import TreeRules.Proofs.Check.PatternMemory
import TreeRules.Proofs.Engine.Execution

/-!
# Proofs/Engine/Steady — engines whose memories do not show

While nothing is registered or bound, an engine changes in what it remembers and in nothing else.
If what it remembers does not show in the answers, it is `Steady`: it answers for a rule and a node
whenever it is asked as it would have answered at the beginning.  Where the pattern validator stands
under its own name alone it is enough for this that the options of its bindings are independent
(`Engine.blind_of_independent`).
-/

namespace TreeRules

/-! ## Built-in validators -/

namespace Registry

/-- What is registered stands in the registry under its name. -/
theorem eq_insert_of_add? {r r' : Registry} {name : String} {entry : Registration}
    (h : r.add? name entry = .ok r') : r' = r.insert name entry := by
  rw [add?] at h
  split at h
  · exact nomatch h
  · split at h
    · exact nomatch h
    · exact (Except.ok.inj h).symm

/-- A property of names and validators that holds of all that is registered and of the newcomer. -/
theorem keeps_register (Q : String → Registration → Prop) {name : String} {entry : Registration}
    (hq : Q name entry) :
    Keeps (fun r : Registry => ∀ k e, r.get? k = some e → Q k e) (register name entry) := by
  intro r h
  rw [after, register]
  cases hr : r.add? name entry with
  | error e => exact h
  | ok r' =>
    intro k e (hk : r'.get? k = some e)
    rw [eq_insert_of_add? hr, Table.get?_insert] at hk
    split at hk
    · next hkey => exact hkey ▸ Option.some.inj hk ▸ hq
    · exact h k e hk

theorem keeps_registerBuiltin (Q : String → Registration → Prop) {name : String}
    {entry : Registration} (hq : Q name entry) :
    Keeps (fun r : Registry => ∀ k e, r.get? k = some e → Q k e) (registerBuiltin name entry) := by
  refine (keeps_register Q hq).bind fun done => ?_
  cases done with
  | ok _ => exact keeps_pure _
  | error e => cases e <;> exact keeps_lift _

/-- What registering keeps is kept also for a caller who only asks whether it worked. -/
theorem keeps_tryRegister_of_keeps {P : Registry → Prop} {name : String} {entry : Registration}
    (h : Keeps P (register name entry)) : Keeps P (tryRegister name entry) := by
  refine h.bind fun done => ?_
  cases done with
  | ok _ => exact keeps_pure _
  | error e => exact (keeps_lift _).bind fun _ => keeps_pure _

/-- An attempt keeps it too, whether it succeeds or not. -/
theorem keeps_tryRegister (Q : String → Registration → Prop) {name : String}
    {entry : Registration} (hq : Q name entry) :
    Keeps (fun r : Registry => ∀ k e, r.get? k = some e → Q k e) (tryRegister name entry) :=
  keeps_tryRegister_of_keeps (keeps_register Q hq)

/-- A name that is taken stays with its validator. -/
theorem keeps_get? {k : String} {e : Registration} (name : String) (entry : Registration) :
    Keeps (fun r : Registry => r.get? k = some e) (tryRegister name entry) := by
  refine keeps_tryRegister_of_keeps fun r h => ?_
  rw [after, register]
  cases hr : r.add? name entry with
  | error error => exact h
  | ok r' =>
    have hne : k ≠ name := by
      rintro rfl
      have htaken : r.contains k = true := by rw [Table.contains, h, Option.isSome_some]
      rw [add?, if_pos htaken] at hr
      split at hr <;> cases hr
    change r'.get? k = some e
    rw [eq_insert_of_add? hr, Table.get?_insert, if_neg hne, h]

/-- What is registered at the beginning comes from the list of built-in validators. -/
theorem mem_builtins_of_get? {name : String} {entry : Registration}
    (h : withBuiltins.value.get? name = some entry) : (name, entry) ∈ builtins := by
  have hk : Keeps (fun r : Registry => ∀ k e, r.get? k = some e → (k, e) ∈ builtins)
      registerBuiltins :=
    Keeps.forM fun b hb => keeps_registerBuiltin (fun k e => (k, e) ∈ builtins) hb
  exact hk .empty (fun k e hk => absurd hk (Option.some_ne_none e).symm) name entry h

/-- And each validator of the library is found under its name. -/
theorem get?_withBuiltins {name : String} {entry : Registration}
    (h : (name, entry) ∈ builtins) : withBuiltins.value.get? name = some entry := by
  simp only [builtins, List.mem_cons, Prod.mk.injEq, List.not_mem_nil, or_false] at h
  rcases h with ⟨rfl, rfl⟩ | ⟨rfl, rfl⟩ | ⟨rfl, rfl⟩ | ⟨rfl, rfl⟩ | ⟨rfl, rfl⟩ <;> rfl

/-- The pattern validator stands under its own name alone. -/
def OwnPattern (r : Registry) : Prop :=
  ∀ name entry, r.get? name = some entry → entry.validator = .pattern → name = "pattern"

/-- In the registry of the library there is one name for patterns. -/
theorem ownPattern_withBuiltins : OwnPattern withBuiltins.value := by
  intro name entry h hp
  have hm := mem_builtins_of_get? h
  simp only [builtins, List.mem_cons, Prod.mk.injEq, List.not_mem_nil, or_false] at hm
  rcases hm with ⟨-, rfl⟩ | ⟨-, rfl⟩ | ⟨rfl, -⟩ | ⟨-, rfl⟩ | ⟨-, rfl⟩
  · exact nomatch hp
  · exact nomatch hp
  · rfl
  · exact nomatch hp
  · exact nomatch hp

end Registry

/-! ## Steady engines -/

namespace Engine

open Check.Pattern (Memory Independent Reached)

/-- Engines that differ from a given one at most in what they remember, which is sound. -/
structure Steady (P : Memory → Prop) (made e : Engine) : Prop where
  config : e.config = made.config
  registry : e.registry = made.registry
  store : e.store = made.store
  memories : e.memories.Sound P

/-- The options of the bindings that ask for a pattern. -/
def patternOptions (rules : List Rule) : List Options :=
  ((rules.flatMap (·.bindings)).filter (·.validator == "pattern")).map (·.options)

/-- Bindings cannot tell apart the memories that independent options lead to. -/
theorem blind_of_independent {registry : Registry} (hr : registry.OwnPattern) {rules : List Rule}
    (h : Independent (patternOptions rules)) {rule : Rule} (hrule : rule ∈ rules) {b : Binding}
    (hb : b ∈ rule.bindings) (value : String) :
    Blind (Both (Reached (patternOptions rules))) registry value b := by
  intro entry hentry hp
  have hname : b.validator = "pattern" := hr b.validator entry hentry hp
  have hmem : b ∈ (rules.flatMap (·.bindings)).filter (·.validator == "pattern") :=
    List.mem_filter.2 ⟨List.mem_flatMap.2 ⟨rule, hrule, hb⟩, beq_iff_eq.2 hname⟩
  exact h.agree_check (List.mem_map_of_mem hmem) value

variable {P : Memory → Prop} {made : Engine} {d : Document}

/-- A steady engine answers for a rule and a node as it did at the beginning. -/
theorem yields_execute (hm : made.memories.Sound P) {n : Nat} {rule : Rule}
    (h : ∀ b ∈ rule.bindings, Blind (Both P) made.registry (d.value n) b) :
    Yields (Steady P made) (execute d n rule) (answer (execute d n rule) made) := by
  rintro ⟨config, registry, store, m⟩ ⟨rfl, rfl, rfl, hm'⟩
  obtain ⟨ha, hs⟩ := agree_runBindings rfl h 0 m made.memories (Memories.alike_both_iff.2 ⟨hm', hm⟩)
  exact ⟨ha, ⟨rfl, rfl, rfl, (Memories.alike_both_iff.1 hs).1⟩⟩

theorem yields_validateRule (hm : made.memories.Sound P) {id : Nat} {rule : Rule}
    (hrule : made.store.get? id = some rule)
    (h : ∀ n, ∀ b ∈ rule.bindings, Blind (Both P) made.registry (d.value n) b) :
    Yields (Steady P made) (validateRule d id)
      (.ok ((made.store.nodesFor id).map fun n => (n, answer (execute d n rule) made))) := by
  refine yields_get fun e he => ?_
  rw [he.store]
  dsimp only
  rw [hrule]
  refine Yields.bind (Yields.mapM fun n _ => ?_) (yields_pure _)
  exact (yields_execute hm (h n)).bind (yields_pure _)

theorem yields_validateRule_none {id : Nat} (h : made.store.get? id = none) :
    Yields (Steady P made) (validateRule d id) (.error (.unknownRule id)) := by
  refine yields_get fun e he => ?_
  rw [he.store]
  dsimp only
  rw [h]
  exact yields_pure _

/-! ### By node and by event -/

variable {n : Nat}

theorem yields_boundRule {id : Nat} {rule : Rule} (h : made.store.ruleFor? n = some (id, rule)) :
    Yields (Steady P made) (boundRule d n) (.ok rule) := by
  refine yields_get fun e he => ?_
  rw [he.store, h]
  exact yields_pure _

theorem yields_boundRule_none (h : made.store.ruleFor? n = none) :
    Yields (Steady P made) (boundRule d n) (.error (.noRule (d.describe n))) := by
  refine yields_get fun e he => ?_
  rw [he.store, h]
  exact (yields_lift _).bind (yields_pure _)

theorem yields_run_some (hm : made.memories.Sound P) {rule : Rule}
    (h : ∀ b ∈ rule.bindings, Blind (Both P) made.registry (d.value n) b) :
    Yields (Steady P made) (run d n (some rule)) (.ok (answer (execute d n rule) made)) :=
  (yields_execute hm h).bind (yields_pure _)

/-- Without a rule of its own, a run takes the rule of the node. -/
theorem yields_run (hm : made.memories.Sound P) {id : Nat} {rule : Rule}
    (hrule : made.store.ruleFor? n = some (id, rule))
    (h : ∀ b ∈ rule.bindings, Blind (Both P) made.registry (d.value n) b) :
    Yields (Steady P made) (run d n none) (.ok (answer (execute d n rule) made)) :=
  (yields_boundRule hrule).bind ((yields_execute hm h).bind (yields_pure _))

/-- Where there is none, it says so. -/
theorem yields_run_none (h : made.store.ruleFor? n = none) :
    Yields (Steady P made) (run d n none) (.error (.noRule (d.describe n))) :=
  (yields_boundRule_none h).bind (yields_pure _)

theorem yields_handleEvent (hm : made.memories.Sound P) {id : Nat} {rule : Rule}
    (hrule : made.store.ruleFor? n = some (id, rule))
    (h : ∀ b ∈ rule.bindings, Blind (Both P) made.registry (d.value n) b) (event : String) :
    Yields (Steady P made) (handleEvent d n event)
      (.ok (if rule.event = event then some (answer (execute d n rule) made) else none)) := by
  refine (yields_boundRule hrule).bind ?_
  dsimp only
  split
  · exact (yields_execute hm h).bind (yields_pure _)
  · exact (yields_lift _).bind (yields_pure _)

theorem yields_handleEvent_none (h : made.store.ruleFor? n = none) (event : String) :
    Yields (Steady P made) (handleEvent d n event) (.error (.noRule (d.describe n))) :=
  (yields_boundRule_none h).bind (yields_pure _)

end Engine

end TreeRules
