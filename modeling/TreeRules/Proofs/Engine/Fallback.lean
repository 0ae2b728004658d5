import TreeRules.Proofs.Check.Kinds
import TreeRules.Proofs.Engine.Binding
import TreeRules.Proofs.Engine.Steady

/-!
# Proofs/Engine/Fallback — where the fallback message is never used

A registration is `Catalogued` if its validator reports nothing twice and nothing without a message.
The five of the library are (`Registry.catalogued_withBuiltins`).  An engine that has no other
ones finds a message for every record before it comes to the fallback, so two engines that differ in
nothing but their settings cannot be told apart (`Engine.carried_catalogued`).
-/

namespace TreeRules

/-! ## Registrations -/

theorem Table.exists_get?_of_mem {α : Type} {t : Table α} {k : String} (h : k ∈ t.keys) :
    ∃ a, t.get? k = some a :=
  Option.ne_none_iff_exists'.1 fun hnone => (t.get?_eq_none_iff k).1 hnone h

/-- Nothing is reported twice, and everything has a message. -/
def Registration.Catalogued (entry : Registration) : Prop :=
  ∀ value options d n m, (answer (entry.validator.apply value options d n) m).Nodup ∧
    ∀ kind ∈ answer (entry.validator.apply value options d n) m, kind ∈ entry.messages.keys

/-- A validator that reports one kind only, and at most once. -/
theorem Registration.catalogued_of_sublist {entry : Registration} {k : String}
    (h : ∀ value options d n m, (answer (entry.validator.apply value options d n) m).Sublist [k])
    (hk : k ∈ entry.messages.keys) : entry.Catalogued := fun value options d n m =>
  ⟨(List.pairwise_singleton _ k).sublist (h value options d n m), fun _ hkind =>
    List.mem_singleton.1 ((h value options d n m).subset hkind) ▸ hk⟩

namespace Registry

/-- All that is registered is catalogued. -/
def Catalogued (r : Registry) : Prop := ∀ name entry, r.get? name = some entry → entry.Catalogued

/-- **The validators of the library are catalogued.** -/
theorem catalogued_withBuiltins : withBuiltins.value.Catalogued := by
  intro name entry h
  have hmem := mem_builtins_of_get? h
  simp only [builtins, List.mem_cons, Prod.mk.injEq, List.not_mem_nil, or_false] at hmem
  rcases hmem with ⟨-, rfl⟩ | ⟨-, rfl⟩ | ⟨-, rfl⟩ | ⟨-, rfl⟩ | ⟨-, rfl⟩
  · exact fun value options _ _ _ =>
      ⟨Check.Number.nodup_check value options, fun _ => Check.Number.mem_keys_of_mem_check⟩
  · exact fun value options _ _ _ =>
      ⟨Check.Range.nodup_check value options, fun _ => Check.Range.mem_keys_of_mem_check⟩
  · exact Registration.catalogued_of_sublist (fun value options _ _ m =>
      Check.Pattern.sublist_check value options m.patterns) (by decide)
  · exact Registration.catalogued_of_sublist (fun _ options d n m =>
      Check.Equality.sublist_mustNotBeEqual d n options m.paths) (by decide)
  · exact Registration.catalogued_of_sublist (fun _ options d n m =>
      Check.Equality.sublist_mustBeEqual d n options m.paths) (by decide)

end Registry

namespace Engine

/-! ## Messages -/

variable {config config' : EngineConfig} {registry : Registry} {d : Document} {n : Nat}

/-- The message of the binding, or else that of the validator. -/
theorem messageFor_of_mem {b : Binding} {entry : Registration} {kind : String}
    (h : kind ∈ entry.messages.keys) :
    (b.messages.get? kind).or (entry.messages.get? kind) =
      some (messageFor config b entry kind) := by
  obtain ⟨message, hmessage⟩ := Table.exists_get?_of_mem h
  rw [messageFor, hmessage]
  cases b.messages.get? kind <;> rfl

/-- A binding of a catalogued validator does the same under any settings. -/
theorem runBinding_of_catalogued (h : registry.Catalogued) (index : Nat) (b : Binding) :
    runBinding config registry d n index b = runBinding config' registry d n index b := by
  rw [runBinding, runBinding]
  cases hentry : registry.get? b.validator with
  | none => rfl
  | some entry =>
    funext m
    refine bind_congr_answer ?_
    have hmessages : ∀ kind ∈ answer (entry.validator.apply (d.value n) b.options d n) m,
        messageFor config b entry kind = messageFor config' b entry kind := fun kind hkind => by
      have hkey := (h _ _ hentry _ _ _ _ _).2 kind hkind
      exact Option.some.inj ((messageFor_of_mem hkey).symm.trans (messageFor_of_mem hkey))
    dsimp only
    rw [List.map_congr_left fun kind hkind => by rw [hmessages kind hkind]]

theorem runBindings_of_catalogued (h : registry.Catalogued) (index : Nat) (bs : List Binding) :
    runBindings config registry d n index bs = runBindings config' registry d n index bs := by
  induction bs generalizing index with
  | nil => rfl
  | cons b bs ih => rw [runBindings, runBindings, runBinding_of_catalogued h, ih]

/-- Every record has the message of its binding, or else that of its validator. -/
theorem exists_message_of_mem_records (h : registry.Catalogued) {bs : List Binding} {m : Memories}
    {r : Record} (hr : r ∈ (answer (runBindings config registry d n 0 bs) m).records) :
    ∃ b entry, bs[r.binding]? = some b ∧ registry.get? b.validator = some entry ∧
      (b.messages.get? r.kind).or (entry.messages.get? r.kind) = some r.message := by
  rw [runBindings_eq_composed, composed, List.mem_flatMap] at hr
  obtain ⟨⟨b, i⟩, hb, hr⟩ := hr
  cases hentry : registry.get? b.validator with
  | none =>
    simp only [hentry] at hr
    exact absurd hr List.not_mem_nil
  | some entry =>
    simp only [hentry, List.mem_map] at hr
    obtain ⟨kind, hkind, rfl⟩ := hr
    refine ⟨b, entry, List.mk_mem_zipIdx_iff_getElem?.1 hb, hentry, ?_⟩
    rw [← messageFor_eq]
    exact messageFor_of_mem ((h _ _ hentry _ _ _ _ _).2 kind hkind)

/-! ## Engines -/

/-- Engines that differ at most in their settings, with validators that are catalogued. -/
structure SameButSettings (e e' : Engine) : Prop where
  catalogued : e.registry.Catalogued
  registry : e.registry = e'.registry
  store : e.store = e'.store
  memories : e.memories = e'.memories

/-- **Settings do not show** in what a rule leaves behind. -/
theorem carried_catalogued (d : Document) : Carried SameButSettings d where
  store _ _ h := h.store
  execute n rule := by
    rintro ⟨config, registry, store, m⟩ ⟨config', registry', store', m'⟩ ⟨h, hr, hs, hm⟩
    obtain ⟨rfl, rfl, rfl⟩ : registry = registry' ∧ store = store' ∧ m = m' := ⟨hr, hs, hm⟩
    have hsame : runBindings config registry d n 0 rule.bindings m =
        runBindings config' registry d n 0 rule.bindings m := by rw [runBindings_of_catalogued h]
    exact ⟨congrArg (fun r => r.value.1) hsame,
      ⟨h, rfl, rfl, congrArg (fun r => r.value.2) hsame⟩⟩

/-- The engine with another fallback message. -/
def withFallback (e : Engine) (fallbackMessage : String) : Engine :=
  { e with config := { e.config with fallbackMessage } }

/-- The fallback message is never used: each record has the message of its binding or else that of
its validator, and no answer would be another one with another fallback. -/
structure WithoutFallback (e : Engine) (d : Document) : Prop where
  message : ∀ n rule, ∀ r ∈ (answer (execute d n rule) e).records,
    ∃ b entry, rule.bindings[r.binding]? = some b ∧ e.registry.get? b.validator = some entry ∧
      (b.messages.get? r.kind).or (entry.messages.get? r.kind) = some r.message
  execute : ∀ fallback n rule,
    answer (execute d n rule) (e.withFallback fallback) = answer (execute d n rule) e
  run : ∀ fallback n rule, answer (run d n rule) (e.withFallback fallback) = answer (run d n rule) e
  validate : ∀ fallback n rule,
    answer (validate d n rule) (e.withFallback fallback) = answer (validate d n rule) e
  handleEvent : ∀ fallback n event,
    answer (handleEvent d n event) (e.withFallback fallback) = answer (handleEvent d n event) e
  validateRule : ∀ fallback id,
    answer (validateRule d id) (e.withFallback fallback) = answer (validateRule d id) e

theorem withoutFallback_of_catalogued {e : Engine} (h : e.registry.Catalogued) (d : Document) :
    e.WithoutFallback d := by
  have hsame (fallback : String) : SameButSettings (e.withFallback fallback) e := ⟨h, rfl, rfl, rfl⟩
  have hcarried := carried_catalogued d
  constructor
  case message => exact fun n rule r hr => exists_message_of_mem_records h hr
  case execute => exact fun fallback n rule => (hcarried.execute n rule _ _ (hsame fallback)).1
  case run => exact fun fallback n rule => (hcarried.run n rule _ _ (hsame fallback)).1
  case validate => exact fun fallback n rule => (hcarried.validate n rule _ _ (hsame fallback)).1
  case handleEvent =>
    exact fun fallback n event => (hcarried.handleEvent n event _ _ (hsame fallback)).1
  case validateRule => exact fun fallback id => (hcarried.validateRule id _ _ (hsame fallback)).1

open Check.Number (kindNumber kindMin kindMax kindStep kindNoScientific)
open Check.Range (kindRange kindNoSpaces)

/-- **The validators of the library report nothing twice and nothing without a message.**

* Whatever is asked of one of them, no kind is reported twice, and for each kind there is a message
  among those that it is registered with.
* So an engine without other validators never uses its fallback message, whatever its rules are and
  whatever it remembers.
* A value is reported as no number and as nothing else, or in the order in which a number is looked
  at.
* Blanks in a range are reported first, and that it is no range last. -/
theorem builtins_never_fall_back :
    (∀ name entry, Registry.withBuiltins.value.get? name = some entry →
      ∀ value options d n m,
        (answer (entry.validator.apply value options d n) m).Nodup ∧
        ∀ kind ∈ answer (entry.validator.apply value options d n) m,
          ∃ message, Registry.withBuiltins.value.message? name kind = some message) ∧
    (∀ config store memories d,
      WithoutFallback ⟨config, Registry.withBuiltins.value, store, memories⟩ d) ∧
    (∀ value options, Check.Number.check value options = [kindNumber] ∨
      (Check.Number.check value options).Sublist
        [kindMin, kindMax, kindStep, kindNoScientific]) ∧
    (∀ value options front back,
      Check.Range.check value options = front ++ kindNoSpaces :: back → front = []) ∧
    ∀ value options front back,
      Check.Range.check value options = front ++ kindRange :: back → back = [] := by
  have hcatalogued := Registry.catalogued_withBuiltins
  refine ⟨fun name entry hentry value options d n m => ?_, fun config store memories d =>
    withoutFallback_of_catalogued hcatalogued d, Check.Number.check_cases,
    fun _ _ _ _ => Check.Range.eq_nil_of_check_eq_noSpaces,
    fun _ _ _ _ => Check.Range.eq_nil_of_check_eq_range⟩
  obtain ⟨hnodup, hkeys⟩ := hcatalogued name entry hentry value options d n m
  refine ⟨hnodup, fun kind hkind => ?_⟩
  rw [Registry.message?, hentry]
  exact Table.exists_get?_of_mem (hkeys kind hkind)

end Engine

end TreeRules
