import TreeRules.Proofs.Engine.Binding
import TreeRules.Proofs.Engine.Execution

/-!
# Proofs/Engine/Caching — keeping paths makes no difference

Two engines are `Alike` if they differ at most in the paths that they keep, and keep them soundly.
Nothing that an engine does can tell them apart, nor does anything make them less alike, so two
sessions that begin alike answer alike for good (`Session.agree_run`).  Engines of any two settings
with the same fallback message are alike when they are made (`Engine.alike_ofConfig`).
-/

namespace TreeRules

namespace Engine

/-! ## Engines -/

/-- Engines that differ at most in how they keep paths. -/
structure Alike (e e' : Engine) : Prop where
  fallbackMessage : e.config.fallbackMessage = e'.config.fallbackMessage
  registry : e.registry = e'.registry
  store : e.store = e'.store
  memories : e.memories.Alike Eq e'.memories

/-- Two engines that only differ in their settings for paths are alike. -/
theorem alike_ofConfig {config config' : EngineConfig}
    (h : config.fallbackMessage = config'.fallbackMessage) :
    (ofConfig config).value.Alike (ofConfig config').value where
  fallbackMessage := h
  registry := rfl
  store := rfl
  memories := ⟨⟨sound_resolverOf config, sound_resolverOf config'⟩, rfl⟩

theorem agree_register (name : String) (entry : Registration) :
    Agree Alike (register name entry) (register name entry) := by
  intro e e' h
  have ha : answer (register name entry) e = answer (register name entry) e' := by
    change answer (Registry.tryRegister name entry) e.registry = _
    rw [h.registry]
    rfl
  have hr : after (Registry.tryRegister name entry) e.registry =
      after (Registry.tryRegister name entry) e'.registry := by rw [h.registry]
  exact ⟨ha, ⟨h.fallbackMessage, hr, h.store, h.memories⟩⟩

/-- Whether a rule can be bound does not depend on paths that are kept. -/
theorem agree_bindRule (d : Document) (rule : Rule) :
    Agree Alike (bindRule d rule) (bindRule d rule) := by
  intro e e' h
  rw [answer, answer, after, after]
  cases hc : nodesOf d rule.target with
  | error error =>
    rw [value_bindRule_error hc, value_bindRule_error hc]
    exact ⟨rfl, h⟩
  | ok nodes =>
    rw [value_bindRule_ok hc, value_bindRule_ok hc, h.store]
    exact ⟨rfl, ⟨h.fallbackMessage, h.registry, rfl, h.memories⟩⟩

theorem agree_bindRulesFrom (d : Document) (index : Nat) (rules : List Rule) :
    Agree Alike (bindRulesFrom d index rules) (bindRulesFrom d index rules) := by
  induction rules generalizing index with
  | nil => exact agree_pure _
  | cons rule rest ih =>
    refine (agree_bindRule d rule).bind fun id => ?_
    cases id with
    | ok id => exact (ih (index + 1)).bind fun ids => agree_pure _
    | error error => exact (agree_lift rfl).bind fun _ => ih (index + 1)

/-- Running a rule does not tell engines apart that are alike. -/
theorem carried_alike (d : Document) : Carried Alike d where
  store _ _ h := h.store
  execute n rule := by
    rintro ⟨c, registry, store, m⟩ ⟨c', registry', store', m'⟩ ⟨hf, hr, hs, hm⟩
    obtain rfl : registry = registry' := hr
    obtain ⟨ha, hm'⟩ := agree_runBindings hf (fun b _ => blind_eq registry _ b) 0 m m' hm
    exact ⟨ha, ⟨hf, rfl, hs, hm'⟩⟩

end Engine

/-! ## Sessions -/

namespace Session

/-- Sessions with the same document and with engines that are alike. -/
structure Alike (s s' : Session) : Prop where
  document : s.document = s'.document
  engine : s.engine.Alike s'.engine

variable {α : Type}

theorem agree_withEngine {x : StateT Engine Logged α} (h : Agree Engine.Alike x x) :
    Agree Alike (withEngine x) (withEngine x) := by
  intro s s' hs
  obtain ⟨ha, he⟩ := h s.engine s'.engine hs.engine
  exact ⟨ha, ⟨hs.document, he⟩⟩

/-- Paths are resolved alike, as both places for them are sound. -/
theorem agree_resolve (start : List Nat) (path : Option String) :
    Agree Alike (resolve start path) (resolve start path) := by
  rintro ⟨e, d⟩ ⟨e', d'⟩ ⟨hd, he⟩
  obtain rfl : d = d' := hd
  obtain ⟨hf, hr, hs, hm⟩ := he
  obtain ⟨ha, hp⟩ := Resolver.agree_resolve d start path e.memories.paths e'.memories.paths hm.1
  exact ⟨ha, ⟨rfl, ⟨hf, hr, hs, ⟨hp, hm.2⟩⟩⟩⟩

theorem agree_revise (f : Document → Except TreeError (α × Document)) :
    Agree Alike (revise f) (revise f) := by
  rintro ⟨e, d⟩ ⟨e', d'⟩ ⟨hd, he⟩
  obtain rfl : d = d' := hd
  cases h : f d with
  | ok r =>
    rw [answer, answer, after, after, value_revise_ok h, value_revise_ok h]
    exact ⟨rfl, ⟨rfl, he⟩⟩
  | error error =>
    rw [answer, answer, after, after, value_revise_error h, value_revise_error h]
    exact ⟨rfl, ⟨rfl, he⟩⟩

/-- **No operation can tell which paths are kept.** -/
theorem agree_step (op : Operation) : Agree Alike (step op) (step op) := by
  refine agree_get fun s s' hs => ?_
  rw [hs.document]
  generalize s'.document = d
  have hrun := Engine.carried_alike d
  cases op with
  | register name entry =>
    exact (agree_withEngine (Engine.agree_register name entry)).bind fun _ => agree_pure _
  | bind rule => exact (agree_withEngine (Engine.agree_bindRule d rule)).bind fun _ => agree_pure _
  | bindAll rules =>
    exact (agree_withEngine (Engine.agree_bindRulesFrom d 0 rules)).bind fun _ => agree_pure _
  | run n rule => exact (agree_withEngine (hrun.run n rule)).bind fun _ => agree_pure _
  | validate n rule => exact (agree_withEngine (hrun.validate n rule)).bind fun _ => agree_pure _
  | event n event => exact (agree_withEngine (hrun.handleEvent n event)).bind fun _ => agree_pure _
  | validateRule id => exact (agree_withEngine (hrun.validateRule id)).bind fun _ => agree_pure _
  | resolve start path => exact (agree_resolve start path).bind fun _ => agree_pure _
  | append parent spec => exact (agree_revise _).bind fun _ => agree_pure _
  | setValue n value => exact (agree_revise _).bind fun _ => agree_pure _

/-- **Alike sessions stay alike**, with the same answers. -/
theorem agree_run (ops : List Operation) : Agree Alike (run ops) (run ops) :=
  Agree.mapM fun op _ => agree_step op

/-- **The path cache is invisible.**  Two engines are made of settings that differ at most in how
paths are kept.

* Whatever is asked of them, and however the document changes meanwhile, they answer alike at every
  step.
* What an engine keeps after any run is sound.
* So is every cache after any use of its own: an entry is what its text denotes, a path that cannot
  be read has none, and there are never more entries than the cache has room for. -/
theorem path_cache_is_invisible (message : String) (caches caches' : Bool) (size size' : Nat)
    (d : Document) (ops : List Operation) :
    let made caches size : Session := ⟨(Engine.ofConfig ⟨message, caches, size⟩).value, d⟩
    answer (run ops) (made caches size) = answer (run ops) (made caches' size') ∧
    (after (run ops) (made caches size)).engine.memories.paths.Sound ∧
    (∀ capacity uses,
      let c := (PathCache.ofCapacity capacity).used uses
      (∀ path parsed, c.get? path = some parsed → TokenPath.parse path = .ok parsed) ∧
      (∀ path error, TokenPath.parse path = .error error → c.get? path = none) ∧
      c.size ≤ capacity) := by
  intro made
  have halike : (made caches size).Alike (made caches' size') := ⟨rfl, Engine.alike_ofConfig rfl⟩
  obtain ⟨ha, hs⟩ := agree_run ops _ _ halike
  refine ⟨ha, hs.engine.memories.1.1, fun capacity uses => ?_⟩
  intro c
  have hc : c.Sound := (PathCache.sound_ofCapacity capacity).used uses
  have hcap : c.capacity = capacity := PathCache.capacity_used _ uses
  exact ⟨hc.parse_eq, fun path error he => hc.get?_eq_none he, hcap ▸ hc.size_le⟩

end Session

end TreeRules
