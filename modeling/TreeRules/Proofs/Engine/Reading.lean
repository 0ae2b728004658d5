import TreeRules.Proofs.Check.Equality
import TreeRules.Proofs.Document.Values
import TreeRules.Proofs.Engine.Caching
import TreeRules.Proofs.Engine.Steady

/-!
# Proofs/Engine/Reading — which values an outcome depends on

Two documents may be the same tree with different values.  Then rules are bound to the same nodes,
since targets are named by structure alone (`Document.SameTree.bindRule`).  Running a rule reads
values in two places: the value of the node itself, which every validator is given, and the values
of the nodes that the targets of an equality check lead to.  If those are the same, everything is
(`Engine.ReadsSame.runBindings`), outcome, memories and notices.

What the targets lead to does not depend on the paths that are kept, as long as they are kept
soundly; so it is enough to ask for it once, whatever the bindings before have read.
-/

namespace TreeRules

variable {d d' : Document} {n : Nat} {options : Options}

namespace Document.SameTree

/-! ## Binding -/

theorem nodesOf (h : SameTree d d') : Engine.nodesOf d' = Engine.nodesOf d := by
  funext target
  match target with
  | .selector source => rw [Engine.nodesOf, h.query, Engine.nodesOf]
  | .nodes nodes => rw [Engine.nodesOf, h.contains, Engine.nodesOf]

/-- **A rule is bound to the same nodes**, and it is the same computation that binds it. -/
theorem bindRule (h : SameTree d d') : Engine.bindRule d' = Engine.bindRule d := by
  funext rule e
  simp only [Engine.bindRule, h.nodesOf]

/-! ## Equality checks -/

theorem reached (h : SameTree d d') :
    Check.Equality.reached d' = Check.Equality.reached d := by
  funext n target
  rw [Check.Equality.reached, Resolver.resolveFrom, h.resolver_resolve, h.describe,
    Check.Equality.reached, Resolver.resolveFrom]

theorem targets (h : SameTree d d') :
    Check.Equality.targets d' = Check.Equality.targets d := by
  funext n options
  rw [Check.Equality.targets, h.reached, h.describe, Check.Equality.targets]

end Document.SameTree

namespace Check.Equality

variable {r : Resolver}

theorem compare_congr {nodes : List Nat} (hvalues : ∀ m ∈ nodes, d'.value m = d.value m)
    (extent : Extent) : compare d' nodes extent = compare d nodes extent := by
  rw [compare, List.map_congr_left hvalues, compare]

/-- The values of the targets are all that a comparison reads. -/
theorem areEqual_congr (h : d.SameTree d')
    (hvalues : ∀ m ∈ answer (targets d n options) r, d'.value m = d.value m) (extent : Extent) :
    areEqual d' n options extent r = areEqual d n options extent r := by
  rw [areEqual, areEqual, h.targets, h.describe]
  refine bind_congr_answer ?_
  rw [compare_congr hvalues]

theorem mustNotBeEqual_congr (h : d.SameTree d')
    (hvalues : ∀ m ∈ answer (targets d n options) r, d'.value m = d.value m) :
    mustNotBeEqual d' n options r = mustNotBeEqual d n options r :=
  bind_congr_at rfl (bind_congr_at (areEqual_congr h hvalues _) rfl)

theorem mustBeEqual_congr (h : d.SameTree d')
    (hvalues : ∀ m ∈ answer (targets d n options) r, d'.value m = d.value m) :
    mustBeEqual d' n options r = mustBeEqual d n options r :=
  bind_congr_at rfl (bind_congr_at (areEqual_congr h hvalues _) rfl)

end Check.Equality

/-! ## Validators -/

namespace Validator

/-- Whether the values of other nodes are compared. -/
def Compares (v : Validator) : Prop := v = mustNotBeEqual ∨ v = mustBeEqual

/-- **A validator of the library reads the value that it is given**, and if it compares, the values
of its targets. -/
theorem apply_congr (h : d.SameTree d') {v : Validator} (hv : ∀ test, v ≠ custom test)
    {m : Memories} (htargets : v.Compares →
      ∀ k ∈ answer (Check.Equality.targets d n options) m.paths, d'.value k = d.value k)
    (value : String) : v.apply value options d' n m = v.apply value options d n m := by
  match v with
  | number | range | pattern => rfl
  | mustNotBeEqual =>
    have hcheck := Check.Equality.mustNotBeEqual_congr h (htargets (.inl rfl))
    rw [apply, apply, Checking.withPaths, hcheck, Checking.withPaths]
  | mustBeEqual =>
    have hcheck := Check.Equality.mustBeEqual_congr h (htargets (.inr rfl))
    rw [apply, apply, Checking.withPaths, hcheck, Checking.withPaths]
  | custom test => exact absurd rfl (hv test)

end Validator

namespace Engine

/-! ## Rules -/

variable {config : EngineConfig} {registry : Registry} {bs : List Binding}

/-- What bindings read of the values for a node is the same: the value of the node, and for those
that compare, the values of the nodes that their targets lead to.  Their validators are those of the
library; a custom one can read whatever it likes. -/
structure ReadsSame (registry : Registry) (d d' : Document) (n : Nat) (bs : List Binding) :
    Prop where
  value : d'.value n = d.value n
  builtin : ∀ b ∈ bs, ∀ entry, registry.get? b.validator = some entry →
    ∀ test, entry.validator ≠ .custom test
  targets : ∀ b ∈ bs, ∀ entry, registry.get? b.validator = some entry → entry.validator.Compares →
    ∀ m ∈ d.reach n b.options, d'.value m = d.value m

theorem keeps_paths_runBinding (index : Nat) (b : Binding) :
    Keeps (fun m : Memories => m.paths.Sound) (runBinding config registry d n index b) :=
  fun m hm => (agree_runBinding rfl (blind_eq registry _ b) index m m ⟨⟨hm, hm⟩, rfl⟩).2.1.1

namespace ReadsSame

theorem tail {b : Binding} (h : ReadsSame registry d d' n (b :: bs)) :
    ReadsSame registry d d' n bs where
  value := h.value
  builtin c hc := h.builtin c (List.mem_cons_of_mem b hc)
  targets c hc := h.targets c (List.mem_cons_of_mem b hc)

theorem runBinding {b : Binding} (h : ReadsSame registry d d' n (b :: bs)) (hd : d.SameTree d')
    (index : Nat) {m : Memories} (hm : m.paths.Sound) :
    runBinding config registry d' n index b m = runBinding config registry d n index b m := by
  rw [Engine.runBinding, Engine.runBinding, hd.describe, h.value]
  cases hentry : registry.get? b.validator with
  | none => rfl
  | some entry =>
    refine bind_congr_at (Validator.apply_congr hd (h.builtin b List.mem_cons_self entry hentry)
      (fun hcompares => ?_) _) rfl
    rw [(Check.Equality.yields_targets d n b.options m.paths hm).1]
    exact h.targets b List.mem_cons_self entry hentry hcompares

/-- **Where the same is read the same is done**, by one binding after the other. -/
theorem runBindings (h : ReadsSame registry d d' n bs) (hd : d.SameTree d') (index : Nat)
    {m : Memories} (hm : m.paths.Sound) :
    runBindings config registry d' n index bs m = runBindings config registry d n index bs m := by
  induction bs generalizing index m with
  | nil => rfl
  | cons b bs ih =>
    refine bind_congr_at (h.runBinding hd index hm) ?_
    exact bind_congr_at (ih h.tail (index + 1) (keeps_paths_runBinding index b m hm)) rfl

end ReadsSame

/-- **Where the same is read a run is the same.** -/
theorem ReadsSame.run {rule : Rule} {e : Engine} (h : ReadsSame e.registry d d' n rule.bindings)
    (hd : d.SameTree d') (he : e.memories.paths.Sound) :
    run d' n (some rule) e = run d n (some rule) e := by
  refine bind_congr_at ?_ rfl
  rw [execute, execute, h.runBindings hd 0 he]

/-- Running rules leaves the registry alone. -/
theorem carried_registry (registry : Registry) (d : Document) :
    Carried (fun e e' => e = e' ∧ e.registry = registry) d :=
  carried_of_memories (fun _ _ h => h) d

end Engine

namespace Session

open Document (settings)

/-! ## Sessions -/

/-- **What is registered stays registered**, whatever a session does. -/
theorem get?_registry_after_step {name : String} {entry : Registration} (op : Operation)
    {s : Session} (h : s.engine.registry.get? name = some entry) :
    (after (step op) s).engine.registry.get? name = some entry := by
  have hrun := Engine.carried_registry s.engine.registry s.document
  cases op with
  | register other added => exact Registry.keeps_get? other added s.engine.registry h
  | bind rule =>
    change (after (Engine.bindRule s.document rule) s.engine).registry.get? name = _
    cases hnodes : Engine.nodesOf s.document rule.target with
    | ok nodes => rw [after, Engine.value_bindRule_ok hnodes, h]
    | error error => rw [after, Engine.value_bindRule_error hnodes, h]
  | bindAll rules =>
    change (after (Engine.bindRules s.document rules) s.engine).registry.get? name = _
    rw [(Engine.bindRules_eq s.document rules s.engine).2, h]
  | run n rule => exact ((hrun.run n rule).keeps _ rfl) ▸ h
  | validate n rule => exact ((hrun.validate n rule).keeps _ rfl) ▸ h
  | event n event => exact ((hrun.handleEvent n event).keeps _ rfl) ▸ h
  | validateRule id => exact ((hrun.validateRule id).keeps _ rfl) ▸ h
  | resolve start path => exact h
  | append parent spec => exact engine_after_revise _ s ▸ h
  | setValue n value => exact engine_after_revise _ s ▸ h

theorem get?_registry_after_run {name : String} {entry : Registration} (ops : List Operation)
    {s : Session} (h : s.engine.registry.get? name = some entry) :
    (after (run ops) s).engine.registry.get? name = some entry := by
  induction ops generalizing s with
  | nil => rwa [after_run_nil]
  | cons op rest ih =>
    rw [after_run_cons]
    exact ih (get?_registry_after_step op h)

theorem sound_paths_after_run (ops : List Operation) {s : Session}
    (h : s.engine.memories.paths.Sound) : (after (run ops) s).engine.memories.paths.Sound :=
  (agree_run ops s s ⟨rfl, rfl, rfl, rfl, ⟨h, h⟩, rfl⟩).2.engine.memories.1.1

/-- **Values show only where they are read.**  Take a session of any engine, its paths as whoever
else has used them has left them, after any run, and then set values in any order.

* Everything that is asked about structure has the same answer, errors included.
* Every rule is bound to the same nodes, or refused for the same reason.
* A rule that calls on no validator but those of the library leaves the same behind on a node,
  outcome, memories and notices, if the node has its value and so have the nodes that the targets of
  the rule's equality checks lead to.
* These are the nodes that the checks do look up, whatever paths are kept.
* A name stands for the same validator all the time, and at the beginning each validator of the
  library has its own. -/
theorem values_show_only_where_read (config : EngineConfig) (registry : Registry)
    (store : RuleStore) (patterns : Check.Pattern.Memory) (room : Option Nat)
    (uses : List PathCache.Use) (made : Document) (ops : List Operation)
    (values : List (Nat × String)) :
    let s := after (run ops)
      ⟨⟨config, registry, store, ⟨Resolver.made room uses, patterns⟩⟩, made⟩
    let e := s.engine
    let d := s.document
    let d' := d.afterAll (settings values)
    (d'.query = d.query ∧ d'.matches = d.matches ∧ d'.parentElement? = d.parentElement? ∧
      d'.siblings = d.siblings ∧ d'.describe = d.describe ∧
      Resolver.resolve d' = Resolver.resolve d) ∧
    (∀ rule, Engine.nodesOf d' rule.target = Engine.nodesOf d rule.target ∧
      Engine.bindRule d' rule = Engine.bindRule d rule) ∧
    (∀ n rule, Engine.ReadsSame e.registry d d' n rule.bindings →
      Engine.run d' n (some rule) e = Engine.run d n (some rule) e) ∧
    (∀ n options, answer (Check.Equality.targets d n options) e.memories.paths =
      d.reach n options) ∧
    (∀ name entry, registry.get? name = some entry → e.registry.get? name = some entry) ∧
    ∀ name entry, (name, entry) ∈ Registry.builtins →
      Registry.withBuiltins.value.get? name = some entry := by
  intro s e d d'
  have hd : d.SameTree d' := Document.sameTree_afterAll d values
  have hpaths : e.memories.paths.Sound := sound_paths_after_run ops (Resolver.sound_made room uses)
  refine ⟨⟨hd.query, hd.matches, hd.parentElement?, hd.siblings, hd.describe,
    hd.resolver_resolve⟩, fun rule => ⟨congrFun hd.nodesOf rule.target, congrFun hd.bindRule rule⟩,
    fun n rule h => h.run hd hpaths, fun n options => ?_, fun name entry h => ?_,
    fun name entry h => Registry.get?_withBuiltins h⟩
  · exact (Check.Equality.yields_targets d n options e.memories.paths hpaths).1
  · exact get?_registry_after_run ops h

/-- Two of three fields are compared, and the third one is changed: the rule still fails with the one
record it had. -/
theorem values_show_only_where_read_of_third_field :
    let options : Options := Table.empty.insert "targets"
      (.array [.string "\x7b\x7bclosest@form\x7d\x7d #a",
        .string "\x7b\x7bclosest@form\x7d\x7d #b"])
    let rule : Rule :=
      { Rule.ofTarget (.nodes [2]) with
        bindings := [⟨"error", "mustBeEqual", options, .empty⟩, .of "error" "number"] }
    let field (id value : String) := ((ElementSpec.ofTag "input").withId id).withValue value
    let d : Document := .ofSpecs [(ElementSpec.ofTag "form").withChildren
      [field "a" "1", field "b" "2", field "c" "3"]]
    let d' := d.afterAll (settings [(4, "x")])
    let e : Engine := ⟨.standard, Registry.withBuiltins.value, .empty, .fresh .cached⟩
    d'.value 4 ≠ d.value 4 ∧ d.reach 2 options = [2, 3] ∧
      Engine.ReadsSame e.registry d d' 2 rule.bindings ∧
      Engine.run d' 2 (some rule) e = Engine.run d 2 (some rule) e ∧
      (answer (Engine.run d' 2 (some rule)) e).toOption.map (·.records.length) = some 1 := by
  intro options rule field d d' e
  have hreach : d.reach 2 options = [2, 3] := by decide +kernel
  have hkept : ∀ m ∈ d.reach 2 options, d'.value m = d.value m := by
    rw [hreach]
    decide +kernel
  have hequal : e.registry.get? "mustBeEqual" =
      some ⟨.mustBeEqual, Check.Equality.messagesOfMustBeEqual⟩ :=
    Registry.get?_withBuiltins (by simp [Registry.builtins])
  have hnumber : e.registry.get? "number" = some ⟨.number, Check.Number.messages⟩ :=
    Registry.get?_withBuiltins (by simp [Registry.builtins])
  have hreads : Engine.ReadsSame e.registry d d' 2 rule.bindings := by
    refine ⟨by decide +kernel, fun b hb entry hentry test h => ?_,
      fun b hb entry hentry hcompares => ?_⟩
    · rcases List.mem_pair.1 hb with rfl | rfl
      · cases hequal.symm.trans hentry
        cases h
      · cases hnumber.symm.trans hentry
        cases h
    · rcases List.mem_pair.1 hb with rfl | rfl
      · exact hkept
      · cases hnumber.symm.trans hentry
        rcases hcompares with h | h <;> cases h
  obtain ⟨-, -, hrun, -⟩ := values_show_only_where_read .standard Registry.withBuiltins.value .empty
    .empty (some PathCache.defaultCapacity) [] d [] [(4, "x")]
  exact ⟨by decide +kernel, hreach, hreads, hrun 2 rule hreads, by decide +kernel⟩

end Session

end TreeRules
