import TreeRules.Proofs.Engine.Steady

/-!
# Proofs/Engine/Combination — the verdict of a rule speaks of its bindings

An outcome does not say which binding failed: its records and the bindings that ran carry numbers,
and whether the rule passes is read off the numbers.  They are those of the places in the row, so
the verdict is a question about the validators at the places (`Engine.passes_and_composed`,
`Engine.passes_or_composed`).  Where each binding has `Settled` kinds, the places do not matter
either: under `and` every registered binding has to be content, under `or` one of them, and neither
the order of the row nor what is not registered makes a difference
(`Engine.verdict_of_settled_kinds`).
-/

namespace TreeRules

/-! ## Outcomes -/

namespace Outcome

/-- An outcome without a record passes, however the bindings combine. -/
theorem passes_of_records_eq_nil {o : Outcome} (h : o.records = []) (mode : Combination) :
    o.passes mode = true := by
  cases mode with
  | and => rw [passes, h, List.isEmpty_nil]
  | or =>
    rw [passes]
    rcases hran : o.ran with _ | ⟨i, rest⟩
    · rfl
    · have hcontent : o.isContent i = true := by
        rw [isContent, h, hran, List.contains_cons, beq_self_eq_true]
        rfl
      rw [List.any_cons, hcontent, Bool.true_or, Bool.or_true]

theorem isContent_iff {o : Outcome} {i : Nat} :
    o.isContent i = true ↔ i ∈ o.ran ∧ ∀ r ∈ o.records, r.binding ≠ i := by
  rw [isContent, Bool.and_eq_true, List.contains_iff_mem, Bool.not_eq_true', List.any_eq_false]
  exact and_congr_right fun _ => forall₂_congr fun r _ => not_congr beq_iff_eq

theorem passes_or_iff {o : Outcome} :
    o.passes .or = true ↔ o.ran = [] ∨ ∃ i ∈ o.ran, ∀ r ∈ o.records, r.binding ≠ i := by
  rw [passes, Bool.or_eq_true, List.isEmpty_iff, List.any_eq_true]
  refine or_congr_right (exists_congr fun i => and_congr_right fun hi => ?_)
  rw [isContent_iff]
  exact and_iff_right hi

end Outcome

namespace Engine

/-! ## Places -/

section Places

variable (config : EngineConfig) (registry : Registry) (d : Document) (n : Nat)
  {kinds : Nat → Binding → Registration → List String} {bs : List Binding}

/-- The bindings that ran stand at the places of the registered validators. -/
theorem mem_ran_composed {i : Nat} : i ∈ (composed config registry d n kinds bs).ran ↔
    ∃ b entry, bs[i]? = some b ∧ registry.get? b.validator = some entry := by
  rw [composed, List.mem_map]
  constructor
  · rintro ⟨⟨b, j⟩, hmem, rfl⟩
    obtain ⟨hb, hknown⟩ := List.mem_filter.1 hmem
    obtain ⟨entry, hentry⟩ := Option.isSome_iff_exists.1 hknown
    exact ⟨b, entry, List.mk_mem_zipIdx_iff_getElem?.1 hb, hentry⟩
  · rintro ⟨b, entry, hb, hentry⟩
    refine ⟨(b, i), List.mem_filter.2 ⟨List.mk_mem_zipIdx_iff_getElem?.2 hb, ?_⟩, rfl⟩
    exact Option.isSome_iff_exists.2 ⟨entry, hentry⟩

/-- The records numbered with a place are those of the binding at the place. -/
theorem exists_record_composed_iff {i : Nat} :
    (∃ r ∈ (composed config registry d n kinds bs).records, r.binding = i) ↔
      ∃ b entry, bs[i]? = some b ∧ registry.get? b.validator = some entry ∧
        kinds i b entry ≠ [] := by
  simp only [composed, List.mem_flatMap]
  constructor
  · rintro ⟨r, ⟨⟨b, j⟩, hb, hr⟩, hi⟩
    cases hentry : registry.get? b.validator with
    | none =>
      simp only [hentry] at hr
      exact absurd hr List.not_mem_nil
    | some entry =>
      simp only [hentry, List.mem_map] at hr
      obtain ⟨kind, hkind, rfl⟩ := hr
      obtain rfl : j = i := hi
      exact ⟨b, entry, List.mk_mem_zipIdx_iff_getElem?.1 hb, hentry, List.ne_nil_of_mem hkind⟩
  · rintro ⟨b, entry, hb, hentry, hne⟩
    obtain ⟨kind, hkind⟩ := List.exists_mem_of_ne_nil _ hne
    refine ⟨recordOf config d n entry i b kind,
      ⟨(b, i), List.mk_mem_zipIdx_iff_getElem?.2 hb, ?_⟩, rfl⟩
    simp only [hentry]
    exact List.mem_map_of_mem hkind

/-- **Under `and` a row passes if nothing is wrong at any place.** -/
theorem passes_and_composed : (composed config registry d n kinds bs).passes .and = true ↔
    ∀ i b entry, bs[i]? = some b → registry.get? b.validator = some entry →
      kinds i b entry = [] := by
  rw [Outcome.passes, List.isEmpty_iff, List.eq_nil_iff_forall_not_mem]
  constructor
  · intro hnone i b entry hb hentry
    by_contra hne
    obtain ⟨r, hr, -⟩ :=
      (exists_record_composed_iff config registry d n).2 ⟨b, entry, hb, hentry, hne⟩
    exact hnone r hr
  · intro hall r hr
    obtain ⟨b, entry, hb, hentry, hne⟩ :=
      (exists_record_composed_iff config registry d n).1 ⟨r, hr, rfl⟩
    exact hne (hall r.binding b entry hb hentry)

/-- **Under `or` a row passes if nothing is wrong at some place** whose validator is registered, or
if there is no such place. -/
theorem passes_or_composed : (composed config registry d n kinds bs).passes .or = true ↔
    (∀ b ∈ bs, registry.get? b.validator = none) ∨
      ∃ i b entry, bs[i]? = some b ∧ registry.get? b.validator = some entry ∧
        kinds i b entry = [] := by
  rw [Outcome.passes_or_iff]
  refine or_congr ?_ (exists_congr fun i => ?_)
  · rw [List.eq_nil_iff_forall_not_mem]
    constructor
    · intro hnone b hb
      obtain ⟨i, hi⟩ := List.mem_iff_getElem?.1 hb
      refine Option.eq_none_iff_forall_ne_some.2 fun entry hentry => ?_
      exact hnone i ((mem_ran_composed config registry d n).2 ⟨b, entry, hi, hentry⟩)
    · intro hnone i hi
      obtain ⟨b, entry, hb, hentry⟩ := (mem_ran_composed config registry d n).1 hi
      exact absurd ((hnone b (List.mem_of_getElem? hb)).symm.trans hentry)
        (Option.some_ne_none entry).symm
  · have hrecords : ¬ (∃ r ∈ (composed config registry d n kinds bs).records, r.binding = i) ↔ _ :=
      not_congr (exists_record_composed_iff config registry d n)
    push Not at hrecords
    rw [mem_ran_composed, hrecords]
    constructor
    · rintro ⟨⟨b, entry, hb, hentry⟩, hempty⟩
      exact ⟨b, entry, hb, hentry, hempty b entry hb hentry⟩
    · rintro ⟨b, entry, hb, hentry, hempty⟩
      refine ⟨⟨b, entry, hb, hentry⟩, fun c other hc hother => ?_⟩
      obtain rfl : b = c := Option.some.inj (hb.symm.trans hc)
      obtain rfl : entry = other := Option.some.inj (hentry.symm.trans hother)
      exact hempty

end Places

/-! ## Settled kinds -/

/-- The kinds that a binding's validator returns are settled: they are those of `kinds` whatever is
remembered, as far as `I` is known of it, and `I` is not broken. -/
def Settled (I : Memories → Prop) (registry : Registry) (d : Document) (n : Nat)
    (kinds : Binding → List String) (b : Binding) : Prop :=
  ∀ entry, registry.get? b.validator = some entry →
    Yields I (entry.validator.apply (d.value n) b.options d n) (kinds b)

/-- The kinds that a binding's validator returns if nothing is remembered; none if it is not
registered. -/
def freshKinds (registry : Registry) (d : Document) (n : Nat) (b : Binding) : List String :=
  match registry.get? b.validator with
  | some entry => answer (entry.validator.apply (d.value n) b.options d n) (.fresh .uncached)
  | none => []

/-- Where a binding cannot tell memories apart, its kinds are those of a fresh start. -/
theorem settled_of_blind {P : Check.Pattern.Memory → Prop} {registry : Registry} {d : Document}
    {n : Nat} {b : Binding} (hempty : P .empty) (h : Blind (Both P) registry (d.value n) b) :
    Settled (Memories.Sound P) registry d n (freshKinds registry d n) b := by
  intro entry hentry m hm
  have hfresh : (Memories.fresh .uncached).Sound P := ⟨Resolver.sound_uncached, hempty⟩
  have hagree := Validator.agree_apply (d := d) (n := n) (h entry hentry)
  obtain ⟨ha, hk⟩ := hagree m _ (Memories.alike_both_iff.2 ⟨hm, hfresh⟩)
  rw [freshKinds, hentry]
  exact ⟨ha, (Memories.alike_both_iff.1 hk).1⟩

section Settling

variable {I : Memories → Prop} {config : EngineConfig} {registry : Registry} {d : Document}
  {n : Nat} {kinds : Binding → List String} {bs : List Binding}

theorem Settled.keeps_runBinding {b : Binding} (h : Settled I registry d n kinds b) (index : Nat) :
    Keeps I (runBinding config registry d n index b) := by
  intro m hm
  cases hentry : registry.get? b.validator with
  | none => rwa [(runBinding_unknown config registry d n hentry index m).2]
  | some entry =>
    rw [(runBinding_known config registry d n hentry index m).2]
    exact (h entry hentry m hm).2

theorem keeps_runBindings (h : ∀ b ∈ bs, Settled I registry d n kinds b) (index : Nat) :
    Keeps I (runBindings config registry d n index bs) := by
  induction bs generalizing index with
  | nil => exact keeps_pure _
  | cons b rest ih =>
    refine ((h b List.mem_cons_self).keeps_runBinding index).bind fun first => ?_
    exact (ih (fun c hc => h c (List.mem_cons_of_mem b hc)) (index + 1)).bind fun _ => keeps_pure _

/-- A row of settled bindings is composed of their kinds. -/
theorem runBindings_of_settled (h : ∀ b ∈ bs, Settled I registry d n kinds b) {m : Memories}
    (hm : I m) : answer (runBindings config registry d n 0 bs) m =
      composed config registry d n (fun _ b _ => kinds b) bs := by
  rw [runBindings_eq_composed]
  refine composed_congr config registry d n fun i b entry hb hentry => ?_
  have hbefore : I (after (runBindings config registry d n 0 (bs.take i)) m) :=
    keeps_runBindings (fun c hc => h c (List.mem_of_mem_take hc)) 0 m hm
  exact (h b (List.mem_of_getElem? hb) entry hentry _ hbefore).1

end Settling

/-! ## Verdicts -/

/-- The bindings of a row whose validators are registered. -/
def registered (registry : Registry) (bs : List Binding) : List Binding :=
  bs.filter fun b => registry.contains b.validator

theorem mem_registered_iff {registry : Registry} {bs : List Binding} {b : Binding} :
    b ∈ registered registry bs ↔ b ∈ bs ∧ ∃ entry, registry.get? b.validator = some entry := by
  rw [registered, List.mem_filter]
  exact and_congr_right fun _ => Option.isSome_iff_exists

theorem registered_append_unknown {registry : Registry} {b : Binding}
    (h : registry.get? b.validator = none) (xs ys : List Binding) :
    registered registry (xs ++ b :: ys) = registered registry (xs ++ ys) := by
  have hb : registry.contains b.validator = false := by rw [Table.contains, h]; rfl
  rw [registered, registered, List.filter_append, List.filter_append,
    List.filter_cons_of_neg (hb ▸ Bool.false_ne_true)]

/-- Whether bindings pass, if these are the kinds that each of them returns. -/
def Passing (kinds : Binding → List String) (bs : List Binding) : Combination → Prop
  | .and => ∀ b ∈ bs, kinds b = []
  | .or => bs = [] ∨ ∃ b ∈ bs, kinds b = []

theorem Passing.or_of_and {kinds : Binding → List String} {bs : List Binding}
    (h : Passing kinds bs .and) : Passing kinds bs .or := by
  rcases bs with _ | ⟨b, rest⟩
  · exact .inl rfl
  · exact .inr ⟨b, List.mem_cons_self, h b List.mem_cons_self⟩

theorem passing_perm {kinds : Binding → List String} {bs bs' : List Binding} (h : bs.Perm bs')
    (mode : Combination) : Passing kinds bs mode ↔ Passing kinds bs' mode := by
  cases mode with
  | and => exact forall_congr' fun b => by rw [h.mem_iff]
  | or =>
    refine or_congr ?_ (exists_congr fun b => and_congr_left fun _ => h.mem_iff)
    rw [← List.length_eq_zero_iff, h.length_eq, List.length_eq_zero_iff]

/-- A composed row passes as its registered bindings do. -/
theorem passes_composed (config : EngineConfig) (registry : Registry) (d : Document) (n : Nat)
    (kinds : Binding → List String) (bs : List Binding) (mode : Combination) :
    (composed config registry d n (fun _ b _ => kinds b) bs).passes mode = true ↔
      Passing kinds (registered registry bs) mode := by
  cases mode with
  | and =>
    rw [passes_and_composed]
    constructor
    · intro hall b hb
      obtain ⟨hmem, entry, hentry⟩ := mem_registered_iff.1 hb
      obtain ⟨i, hi⟩ := List.mem_iff_getElem?.1 hmem
      exact hall i b entry hi hentry
    · intro hall i b entry hi hentry
      exact hall b (mem_registered_iff.2 ⟨List.mem_of_getElem? hi, entry, hentry⟩)
  | or =>
    rw [passes_or_composed]
    refine or_congr ?_ ?_
    · rw [List.eq_nil_iff_forall_not_mem]
      refine forall_congr' fun b => ?_
      rw [mem_registered_iff, not_and, not_exists, Option.eq_none_iff_forall_ne_some]
    · constructor
      · rintro ⟨i, b, entry, hi, hentry, hempty⟩
        exact ⟨b, mem_registered_iff.2 ⟨List.mem_of_getElem? hi, entry, hentry⟩, hempty⟩
      · rintro ⟨b, hb, hempty⟩
        obtain ⟨hmem, entry, hentry⟩ := mem_registered_iff.1 hb
        obtain ⟨i, hi⟩ := List.mem_iff_getElem?.1 hmem
        exact ⟨i, b, entry, hi, hentry, hempty⟩

/-- What the verdict on the outcome of a rule says, if these are the kinds of its bindings. -/
structure VerdictOf (e : Engine) (d : Document) (n : Nat) (rule : Rule)
    (kinds : Binding → List String) (o : Outcome) : Prop where
  /-- The outcome is that of the rule, and of the node if it is bound to the rule. -/
  outcome : answer (run d n (some rule)) e = .ok o ∧
    ∀ id, e.store.ruleFor? n = some (id, rule) → answer (run d n none) e = .ok o
  /-- Under `and` every registered binding has to be content. -/
  and_iff : o.passes .and = true ↔ ∀ b ∈ registered e.registry rule.bindings, kinds b = []
  /-- Under `or` one of them, if there are any. -/
  or_iff : o.passes .or = true ↔ registered e.registry rule.bindings = [] ∨
    ∃ b ∈ registered e.registry rule.bindings, kinds b = []
  or_of_and : o.passes .and = true → o.passes .or = true
  /-- The order of the bindings makes no difference. -/
  permuted : ∀ bs, bs.Perm rule.bindings → ∃ o', (∀ mode, o'.passes mode = o.passes mode) ∧
    answer (run d n (some { rule with bindings := bs })) e = .ok o'
  /-- Nor does a binding whose validator is not registered, wherever it is put. -/
  inserted : ∀ xs b ys, rule.bindings = xs ++ ys → e.registry.get? b.validator = none →
    ∃ o', (∀ mode, o'.passes mode = o.passes mode) ∧
      answer (run d n (some { rule with bindings := xs ++ b :: ys })) e = .ok o'
  /-- A failure has a record. -/
  records_ne_nil : ∀ mode, o.passes mode = false → o.records ≠ []

/-- **The verdict of a rule speaks of its bindings** wherever their kinds are settled. -/
theorem verdict_of_settled_kinds {I : Memories → Prop} {e : Engine} (hI : I e.memories)
    (d : Document) (n : Nat) (rule : Rule) {kinds : Binding → List String}
    (h : ∀ b ∈ rule.bindings, Settled I e.registry d n kinds b) :
    ∃ o, VerdictOf e d n rule kinds o := by
  let outcomeOf bs := composed e.config e.registry d n (fun _ b _ => kinds b) bs
  have hrun : ∀ bs, (∀ b ∈ bs, Settled I e.registry d n kinds b) →
      answer (run d n (some { rule with bindings := bs })) e = .ok (outcomeOf bs) :=
    fun bs hbs => congrArg Except.ok (runBindings_of_settled hbs hI)
  have hpasses : ∀ bs mode, (outcomeOf bs).passes mode = true ↔
      Passing kinds (registered e.registry bs) mode := passes_composed e.config e.registry d n kinds
  -- rows pass alike if their registered bindings do
  have hsame : ∀ bs, (registered e.registry bs).Perm (registered e.registry rule.bindings) →
      ∀ mode, (outcomeOf bs).passes mode = (outcomeOf rule.bindings).passes mode := by
    intro bs hperm mode
    rw [Bool.eq_iff_iff, hpasses, hpasses]
    exact passing_perm hperm mode
  refine ⟨outcomeOf rule.bindings, ?_⟩
  constructor
  case outcome =>
    exact ⟨hrun _ h, fun id hid => (answer_run_none d n hid).trans (hrun _ h)⟩
  case and_iff => exact hpasses _ .and
  case or_iff => exact hpasses _ .or
  case or_of_and =>
    intro hand
    exact (hpasses _ .or).2 ((hpasses _ .and).1 hand).or_of_and
  case permuted =>
    intro bs hperm
    exact ⟨outcomeOf bs, hsame bs (hperm.filter _), hrun bs fun b hb => h b (hperm.mem_iff.1 hb)⟩
  case inserted =>
    intro xs b ys hxy hb
    refine ⟨outcomeOf (xs ++ b :: ys), hsame _ ?_, hrun _ fun c hc => ?_⟩
    · rw [registered_append_unknown hb, hxy]
    · rcases List.mem_append.1 hc with hx | hy
      · exact h c (hxy ▸ List.mem_append_left ys hx)
      · rcases List.mem_cons.1 hy with rfl | hy
        · exact fun entry hentry => absurd (hb.symm.trans hentry) (Option.some_ne_none entry).symm
        · exact h c (hxy ▸ List.mem_append_right xs hy)
  case records_ne_nil =>
    intro mode hfails hnil
    exact Bool.noConfusion (hfails.symm.trans (Outcome.passes_of_records_eq_nil hnil mode))

/-- The value is no number but has the pattern, and between the two a validator is asked that is not
registered: the rule fails under `and` and passes under `or`. -/
theorem verdict_of_settled_kinds_of_letter :
    let options : Options := Table.empty.insert "pattern" (.string "a")
    let asked : Binding := ⟨"error", "pattern", options, .empty⟩
    let rule : Rule :=
      { Rule.ofTarget (.nodes [1]) with
        bindings := [.of "error" "number", .of "warning" "missing", asked] }
    let d : Document := .ofSpecs [(ElementSpec.ofTag "input").withValue "a"]
    let e := (ofConfig .standard).value
    let I := Memories.Sound (Check.Pattern.Reached (patternOptions [rule]))
    let kinds := freshKinds e.registry d 1
    I e.memories ∧ (∀ b ∈ rule.bindings, Settled I e.registry d 1 kinds b) ∧
      ∃ o, VerdictOf e d 1 rule kinds o ∧ o.passes .and = false ∧ o.passes .or = true := by
  intro options asked rule d e I kinds
  have hI : I e.memories := ⟨sound_resolverOf .standard, .empty⟩
  have hi : Check.Pattern.Independent (patternOptions [rule]) :=
    Check.Pattern.independent_singleton options
  have hsettled : ∀ b ∈ rule.bindings, Settled I e.registry d 1 kinds b := fun b hb =>
    settled_of_blind .empty
      (blind_of_independent Registry.ownPattern_withBuiltins hi List.mem_cons_self hb _)
  obtain ⟨o, ho⟩ := verdict_of_settled_kinds hI d 1 rule hsettled
  have hvalue : (answer (run d 1 (some rule)) e).toOption.map
      (fun o => (o.passes .and, o.passes .or)) = some (false, true) := by decide +kernel
  rw [ho.outcome.1] at hvalue
  exact ⟨hI, hsettled, o, ho, Prod.mk.inj (Option.some.inj hvalue)⟩

end Engine

end TreeRules
