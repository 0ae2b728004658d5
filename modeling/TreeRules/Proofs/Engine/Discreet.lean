import TreeRules.Proofs.Engine.LastRule
import TreeRules.Proofs.Engine.Steady

/-!
# Proofs/Engine/Discreet — what a session remembers does not show

An engine is discreet about some rules if all rules in its store are among them and its memories are
such as running those rules leads to.  Every operation that binds or runs no other rules keeps it so
(`Session.discreet_step`), as long as what is registered remembers nothing.  So after any run of a
session the rules in the store answer as they would have answered before it
(`Session.discreet_run`).
-/

namespace TreeRules

/-! ## What operations bring in -/

namespace Operation

/-- The rules that an operation binds or runs. -/
def rules : Operation → List Rule
  | .bind rule => [rule]
  | .bindAll rules => rules
  | .run _ (some rule) => [rule]
  | .validate _ (some rule) => [rule]
  | _ => []

/-- Whatever is registered has no memory that shows; the pattern validator is the one that has. -/
def RegistersPure : Operation → Prop
  | .register _ entry => entry.validator ≠ .pattern
  | _ => True

end Operation

namespace Engine

open Check.Pattern (Independent Reached)

/-! ## Engines -/

/-- The rules of the engine are among the given ones, and so is everything that it remembers. -/
structure Discreet (rules : List Rule) (e : Engine) : Prop where
  memories : e.memories.Sound (Reached (patternOptions rules))
  registry : e.registry.OwnPattern
  store : ∀ id rule, e.store.get? id = some rule → rule ∈ rules

theorem discreet_ofConfig (rules : List Rule) (config : EngineConfig) :
    (ofConfig config).value.Discreet rules where
  memories := ⟨sound_resolverOf config, .empty⟩
  registry := Registry.ownPattern_withBuiltins
  store _ rule h := absurd h (Option.some_ne_none rule).symm

variable {rules : List Rule} {made e : Engine}

/-- Running rules changes what is remembered and nothing else. -/
theorem Discreet.of_steady (h : made.Discreet rules)
    (hs : Steady (Reached (patternOptions rules)) made e) : e.Discreet rules where
  memories := hs.memories
  registry := hs.registry ▸ h.registry
  store id rule hr := h.store id rule (hs.store ▸ hr)

theorem Discreet.steady (h : e.Discreet rules) :
    Steady (Reached (patternOptions rules)) e e := ⟨rfl, rfl, rfl, h.memories⟩

theorem Discreet.rule_mem (h : made.Discreet rules) {n id : Nat} {rule : Rule}
    (hr : made.store.ruleFor? n = some (id, rule)) : rule ∈ rules :=
  h.store id rule (RuleStore.ruleFor?_eq_some_iff.1 hr).2

theorem Discreet.blind (h : made.Discreet rules) (hi : Independent (patternOptions rules))
    {rule : Rule} (hrule : rule ∈ rules) (value : String) :
    ∀ b ∈ rule.bindings, Blind (Both (Reached (patternOptions rules))) made.registry value b :=
  fun _ hb => blind_of_independent h.registry hi hrule hb value

/-- A rule that is given has to be among the known ones. -/
theorem Discreet.exists_yields_run (h : made.Discreet rules)
    (hi : Independent (patternOptions rules)) (d : Document) (n : Nat) (rule : Option Rule)
    (hrule : ∀ r ∈ rule, r ∈ rules) :
    ∃ a, Yields (Steady (Reached (patternOptions rules)) made) (run d n rule) a := by
  cases rule with
  | some rule => exact ⟨_, yields_run_some h.memories (h.blind hi (hrule rule rfl) _)⟩
  | none =>
    cases hr : made.store.ruleFor? n with
    | none => exact ⟨_, yields_run_none hr⟩
    | some r => exact ⟨_, yields_run h.memories hr (h.blind hi (h.rule_mem hr) _)⟩

theorem Discreet.exists_yields_handleEvent (h : made.Discreet rules)
    (hi : Independent (patternOptions rules)) (d : Document) (n : Nat) (event : String) :
    ∃ a, Yields (Steady (Reached (patternOptions rules)) made) (handleEvent d n event) a := by
  cases hr : made.store.ruleFor? n with
  | none => exact ⟨_, yields_handleEvent_none hr event⟩
  | some r => exact ⟨_, yields_handleEvent h.memories hr (h.blind hi (h.rule_mem hr) _) event⟩

theorem Discreet.exists_yields_validateRule (h : made.Discreet rules)
    (hi : Independent (patternOptions rules)) (d : Document) (id : Nat) :
    ∃ a, Yields (Steady (Reached (patternOptions rules)) made) (validateRule d id) a := by
  cases hr : made.store.get? id with
  | none => exact ⟨_, yields_validateRule_none hr⟩
  | some rule =>
    exact ⟨_, yields_validateRule h.memories hr fun n => h.blind hi (h.store id rule hr) _⟩

/-- Binding one rule is binding the list of it. -/
theorem after_bindRule (d : Document) (rule : Rule) (e : Engine) :
    after (bindRule d rule) e =
      { e with store := (d.bindsOf [rule]).foldl RuleStore.bind e.store } := by
  cases h : d.named? rule.target with
  | some nodes =>
    rw [(bindRule_of_named h e).2, Document.bindsOf_cons_some h]
    rfl
  | none =>
    rw [(bindRule_of_unnamed h e).2, Document.bindsOf_cons_none h]
    rfl

/-- New rules have to be among the known ones. -/
theorem Discreet.bind (h : made.Discreet rules) {bs : List BoundRule}
    (hbs : ∀ b ∈ bs, b.rule ∈ rules) :
    ({ made with store := bs.foldl RuleStore.bind made.store } : Engine).Discreet rules := by
  refine ⟨h.memories, h.registry, ?_⟩
  change ∀ id rule, (bs.foldl RuleStore.bind made.store).get? id = some rule → rule ∈ rules
  have hstore := h.store
  generalize made.store = store at hstore ⊢
  induction bs generalizing store with
  | nil => exact hstore
  | cons b rest ih =>
    refine ih (fun c hc => hbs c (List.mem_cons_of_mem b hc)) (store.bind b) fun id rule hr => ?_
    rw [RuleStore.get?_bind] at hr
    split at hr
    · exact Option.some.inj hr ▸ hbs b List.mem_cons_self
    · exact hstore id rule hr

end Engine

namespace Session

open Check.Pattern (Independent)
open Engine (patternOptions)

/-! ## Sessions -/

variable {rules : List Rule}

/-- **No operation gives away what is remembered** if it brings in none but the known rules. -/
theorem discreet_step (hi : Independent (patternOptions rules)) {op : Operation}
    (hrules : ∀ rule ∈ op.rules, rule ∈ rules) (hpure : op.RegistersPure) {s : Session}
    (h : s.engine.Discreet rules) : (after (step op) s).engine.Discreet rules := by
  cases op with
  | register name entry =>
    have hregister : Keeps Registry.OwnPattern (Registry.tryRegister name entry) :=
      Registry.keeps_tryRegister (fun k e => e.validator = .pattern → k = "pattern")
        fun hp => absurd hp hpure
    exact ⟨h.memories, hregister _ h.registry, h.store⟩
  | bind rule =>
    have hbs : ∀ b ∈ s.document.bindsOf [rule], b.rule ∈ rules := fun b hb =>
      hrules b.rule (Document.rule_mem_of_mem_bindsOf hb)
    have hbind := h.bind hbs
    rw [← Engine.after_bindRule] at hbind
    exact hbind
  | bindAll rules' =>
    have hbs : ∀ b ∈ s.document.bindsOf rules', b.rule ∈ rules := fun b hb =>
      hrules b.rule (Document.rule_mem_of_mem_bindsOf hb)
    have hbind := h.bind hbs
    rw [← (Engine.bindRules_eq s.document rules' s.engine).2] at hbind
    exact hbind
  | run n rule =>
    obtain ⟨a, ha⟩ := h.exists_yields_run hi s.document n rule
      fun r hr => hrules r (by cases hr; exact List.mem_singleton.2 rfl)
    exact h.of_steady (ha _ h.steady).2
  | validate n rule =>
    obtain ⟨a, ha⟩ := h.exists_yields_run hi s.document n rule
      fun r hr => hrules r (by cases hr; exact List.mem_singleton.2 rfl)
    exact h.of_steady (ha _ h.steady).2
  | event n event =>
    obtain ⟨a, ha⟩ := h.exists_yields_handleEvent hi s.document n event
    exact h.of_steady (ha _ h.steady).2
  | validateRule id =>
    obtain ⟨a, ha⟩ := h.exists_yields_validateRule hi s.document id
    exact h.of_steady (ha _ h.steady).2
  | resolve start path =>
    have hpaths := (Resolver.agree_resolve s.document start path s.engine.memories.paths
      s.engine.memories.paths ⟨h.memories.1, h.memories.1⟩).2.1
    exact ⟨⟨hpaths, h.memories.2⟩, h.registry, h.store⟩
  | append parent spec => exact engine_after_revise _ s ▸ h
  | setValue n value => exact engine_after_revise _ s ▸ h

theorem discreet_run (hi : Independent (patternOptions rules)) {ops : List Operation}
    (hrules : ∀ op ∈ ops, ∀ rule ∈ op.rules, rule ∈ rules)
    (hpure : ∀ op ∈ ops, op.RegistersPure) {s : Session} (h : s.engine.Discreet rules) :
    (after (run ops) s).engine.Discreet rules := by
  induction ops generalizing s with
  | nil => exact h
  | cons op rest ih =>
    rw [after_run_cons]
    exact ih (fun o ho => hrules o (List.mem_cons_of_mem op ho))
      (fun o ho => hpure o (List.mem_cons_of_mem op ho))
      (discreet_step hi (hrules op List.mem_cons_self) (hpure op List.mem_cons_self) h)

end Session

end TreeRules
