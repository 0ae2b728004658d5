import TreeRules.Check.Equality
import TreeRules.Check.Pattern
import TreeRules.Proofs.Check.OpenRange
import TreeRules.Proofs.Simulation

/-!
# Proofs/Check/Kinds — what a check reports, and in which order

A number is reported in the order in which it is looked at (`Number.check_cases`).  A range puts two
such reports together and says `range` from three places.  None of the three can stand before a
report of a bound: the lower bound is cut off a text that begins with no blank, so it is empty only
where it may be left away (`Range.flag_of_isBlankText`), and an empty upper bound has no number that
the lower one could be compared to.  So a report is in three parts, of which the middle one is about
numbers (`Range.exists_parts`), and all else is read off the parts.  The other checks report one
kind each.
-/

namespace TreeRules.Check

namespace Number

/-- Every kind that is reported has a message. -/
theorem mem_keys_of_mem_check {kind value : String} {options : Options}
    (h : kind ∈ check value options) : kind ∈ messages.keys := by
  have hkeys : messages.keys =
      kindNumber :: [kindMin, kindMax, kindStep, kindNoScientific] := by decide
  rw [hkeys]
  rcases check_cases value options with hcheck | hcheck
  · rw [hcheck, List.mem_singleton] at h
    exact h ▸ List.mem_cons_self
  · exact List.mem_cons_of_mem _ (hcheck.subset h)

end Number

namespace Range

open Number (failing mem_failing_iff)

variable {value : String} {options : Options} {before rest separator lower upper text : List Char}
  {kinds : List String} {kind : String}

/-! ## No kind twice -/

theorem mem_distinct_iff : kind ∈ distinct kinds ↔ kind ∈ kinds := List.mem_eraseDups

theorem nodup_distinct (kinds : List String) : (distinct kinds).Nodup := by
  induction hlength : kinds.length using Nat.strong_induction_on generalizing kinds with
  | _ n ih =>
    cases kinds with
    | nil => exact List.nodup_nil
    | cons k rest =>
      rw [distinct, List.eraseDups_cons, List.nodup_cons]
      have hshorter : (rest.filter fun k' => !k' == k).length < n :=
        hlength ▸ Nat.lt_succ_of_le (List.length_filter_le _ rest)
      refine ⟨fun hmem => ?_, ih _ hshorter _ rfl⟩
      have hne := (List.mem_filter.1 (List.mem_eraseDups.1 hmem)).2
      rw [beq_self_eq_true] at hne
      exact Bool.noConfusion hne

/-- Kinds of different parts are told apart part by part. -/
theorem distinct_append {front back : List String} (h : ∀ k ∈ back, k ∉ front) :
    distinct (front ++ back) = distinct front ++ distinct back := by
  have hback : back.removeAll front = back :=
    List.filter_eq_self.2 fun k hk => by
      rw [Bool.not_eq_true', ← Bool.not_eq_true, List.elem_iff]
      exact h k hk
  rw [distinct, List.eraseDups_append, hback, distinct, distinct]

theorem distinct_failing (k : String) (fails : Bool) :
    distinct (failing k fails) = failing k fails := by
  cases fails <;> rfl

/-! ## Where a bound may be empty -/

/-- What is cut off is the beginning of the text, and not empty. -/
theorem prefix_of_cut? (h : cut? separator before rest = some (lower, upper)) :
    lower ≠ [] ∧ lower <+: before ++ rest := by
  fun_induction cut? separator before rest with
  | case1 => cases h
  | case2 before c s hseparator hcut =>
    obtain ⟨rfl, -⟩ := Prod.mk.inj (Option.some.inj h)
    exact ⟨(cuttable_iff.2 hcut).1, List.prefix_append _ _⟩
  | case3 before c s hseparator hcut ih =>
    obtain ⟨s', hs'⟩ := List.isPrefixOf_iff_prefix.1 (Bool.and_eq_true_iff.1 hseparator).1
    obtain ⟨hne, hprefix⟩ := ih h
    refine ⟨hne, ?_⟩
    rwa [← hs', List.drop_left, List.append_assoc, hs'] at hprefix
  | case4 before c s hseparator ih =>
    obtain ⟨hne, hprefix⟩ := ih h
    refine ⟨hne, ?_⟩
    rwa [List.append_assoc] at hprefix

/-- A lower bound is blank only where it may be left away. -/
theorem flag_of_isBlankText {openEnded : Bool}
    (h : bounds? (Text.trim text) separator openEnded = some (lower, upper))
    (hblank : Text.isBlankText lower = true) : openEnded = true := by
  rw [bounds?] at h
  split at h
  · next cut hcut =>
    obtain rfl := Option.some.inj h
    obtain ⟨hne, hprefix⟩ := prefix_of_cut? hcut
    obtain ⟨c, rest, rfl⟩ := List.exists_cons_of_ne_nil hne
    obtain ⟨s, hs⟩ := hprefix
    rw [Text.isBlankText_cons, Bool.and_eq_true] at hblank
    have hhead : c ∈ (Text.trim text).head? := by
      rw [← List.nil_append (Text.trim text), ← hs]
      rfl
    exact absurd (((Text.ends_trim text).1 c hhead).symm.trans hblank.1) Bool.false_ne_true
  · next hcut =>
    split at h
    · next hopen => exact (Bool.and_eq_true_iff.1 hopen).1
    · cases h

/-! ## The parts of a report -/

/-- An empty bound is reported where it may not be left away, any other one as a number. -/
theorem checkBound_cases (text : List Char) (openEnded : Bool) (options : Options) :
    (Text.isBlankText text = true ∧
        checkBound text openEnded options = (failing kindRange (!openEnded), none)) ∨
      ∀ k ∈ (checkBound text openEnded options).1, k ∈ Number.messages.keys := by
  by_cases h : Text.trim text = []
  · refine .inl ⟨(Text.trim_eq_nil_iff text).1 h, ?_⟩
    rw [checkBound, h]
    rfl
  · refine .inr fun k hk => ?_
    rw [checkBound] at hk
    dsimp only at hk
    rw [if_neg h] at hk
    exact Number.mem_keys_of_mem_check hk

/-- A lower bound is reported as a number, since it may be left away where it is empty. -/
theorem mem_keys_of_lower {openEnded : Bool}
    (h : bounds? (Text.trim text) separator openEnded = some (lower, upper)) (options : Options) :
    ∀ k ∈ (checkBound lower openEnded options).1, k ∈ Number.messages.keys := by
  rcases checkBound_cases lower openEnded options with ⟨hblank, hc⟩ | hc
  · rw [hc, flag_of_isBlankText h hblank]
    exact List.forall_mem_nil _
  · exact hc

theorem kinds_not_mem_keys :
    kindNoSpaces ∉ Number.messages.keys ∧ kindRange ∉ Number.messages.keys ∧
      kindNoSpaces ≠ kindRange := by decide

theorem noSpaces_not_mem (h : ∀ k ∈ kinds, k ∈ Number.messages.keys) (fails : Bool) :
    kindNoSpaces ∉ kinds ++ failing kindRange fails := by
  obtain ⟨hspaces, -, hne⟩ := kinds_not_mem_keys
  intro hmem
  rcases List.mem_append.1 hmem with hk | hk
  · exact hspaces (h _ hk)
  · exact hne (mem_failing_iff.1 hk).2

theorem range_not_mem (h : ∀ k ∈ kinds, k ∈ Number.messages.keys) (spaces : Bool) :
    kindRange ∉ failing kindNoSpaces spaces ++ kinds := by
  obtain ⟨-, hrange, hne⟩ := kinds_not_mem_keys
  intro hmem
  rcases List.mem_append.1 hmem with hk | hk
  · exact hne (mem_failing_iff.1 hk).2.symm
  · exact hrange (h _ hk)

/-- Blanks are reported first, what is wrong with the bounds next, and last that they make no
range. -/
theorem distinct_parts (h : ∀ k ∈ kinds, k ∈ Number.messages.keys) (spaces fails : Bool) :
    distinct (failing kindNoSpaces spaces ++ (kinds ++ failing kindRange fails)) =
      failing kindNoSpaces spaces ++ (distinct kinds ++ failing kindRange fails) := by
  rw [distinct_append, distinct_append, distinct_failing, distinct_failing]
  · intro k hk hmem
    obtain ⟨-, rfl⟩ := mem_failing_iff.1 hk
    exact range_not_mem h spaces (List.mem_append_right _ hmem)
  · intro k hk hmem
    obtain ⟨-, rfl⟩ := mem_failing_iff.1 hmem
    exact noSpaces_not_mem h fails hk

/-- **A report is in three parts**, and repeats nothing. -/
theorem exists_parts (value : String) (options : Options) :
    ∃ spaces kinds fails, (∀ k ∈ kinds, k ∈ Number.messages.keys) ∧
      check value options =
        distinct (failing kindNoSpaces spaces ++ (kinds ++ failing kindRange fails)) := by
  by_cases hwritten : ∀ cut ∈ bounds? (Text.trim value.toList) (separator options).toList
      (options.flag "openEnded"), (Text.isBlankText cut.1 && Text.isBlankText cut.2) = true
  · have hnone : ∀ k ∈ ([] : List String), k ∈ Number.messages.keys := List.forall_mem_nil _
    rw [check_of_unwritten hwritten]
    exact ⟨_, [], true, hnone, (distinct_parts hnone _ true).symm⟩
  · simp only [not_forall, Bool.not_eq_true] at hwritten
    obtain ⟨⟨lower, upper⟩, hcut, hwritten⟩ := hwritten
    rw [check_of_written hcut hwritten, List.append_assoc, List.append_assoc]
    have hlower := mem_keys_of_lower hcut options
    rcases checkBound_cases upper (options.flag "openEnded") options with ⟨-, hc⟩ | hupper
    · -- without an upper number nothing is compared
      have hreversed (low : Option Binary64) : failing kindRange (reversed low none) = [] := by
        cases low <;> rfl
      rw [hc, hreversed, List.append_nil]
      exact ⟨_, _, _, hlower, rfl⟩
    · rw [← List.append_assoc (checkBound lower _ _).1]
      refine ⟨_, _, _, fun k hk => ?_, rfl⟩
      exact (List.mem_append.1 hk).elim (hlower k) (hupper k)

/-- **Nothing is reported twice**, though a kind may be wrong with both bounds. -/
theorem nodup_check (value : String) (options : Options) : (check value options).Nodup := by
  obtain ⟨spaces, kinds, fails, -, hcheck⟩ := exists_parts value options
  exact hcheck ▸ nodup_distinct _

/-- Every kind that is reported has a message. -/
theorem mem_keys_of_mem_check (h : kind ∈ check value options) : kind ∈ messages.keys := by
  have hkeys : messages.keys = Number.messages.keys ++ [kindRange, kindNoSpaces] := by decide
  obtain ⟨spaces, kinds, fails, hkinds, hcheck⟩ := exists_parts value options
  rw [hcheck, mem_distinct_iff, List.mem_append, List.mem_append, mem_failing_iff,
    mem_failing_iff] at h
  rw [hkeys, List.mem_append]
  rcases h with ⟨-, rfl⟩ | h | ⟨-, rfl⟩
  · exact .inr (by decide)
  · exact .inl (hkinds _ h)
  · exact .inr (by decide)

/-- What is reported at most once, in front of all else, has nothing in front of it. -/
theorem eq_nil_of_failing_append {k : String} {fails : Bool} {tail front back : List String}
    (hk : k ∉ tail) (h : failing k fails ++ tail = front ++ k :: back) : front = [] := by
  have hinner {front : List String} (h : tail = front ++ k :: back) : False :=
    hk (h ▸ List.mem_append_right front List.mem_cons_self)
  cases fails with
  | false => exact (hinner h).elim
  | true =>
    cases front with
    | nil => rfl
    | cons k' front => exact (hinner (List.cons.inj h).2).elim

/-- **Blanks are reported first.** -/
theorem eq_nil_of_check_eq_noSpaces {front back : List String}
    (h : check value options = front ++ kindNoSpaces :: back) : front = [] := by
  obtain ⟨spaces, kinds, fails, hkinds, hcheck⟩ := exists_parts value options
  rw [hcheck, distinct_parts hkinds] at h
  exact eq_nil_of_failing_append
    (noSpaces_not_mem (fun k hk => hkinds k (mem_distinct_iff.1 hk)) fails) h

/-- **That a value is no range is reported last.** -/
theorem eq_nil_of_check_eq_range {front back : List String}
    (h : check value options = front ++ kindRange :: back) : back = [] := by
  obtain ⟨spaces, kinds, fails, hkinds, hcheck⟩ := exists_parts value options
  have hno := range_not_mem (fun k hk => hkinds k (mem_distinct_iff.1 hk)) spaces
  rw [hcheck, distinct_parts hkinds, ← List.append_assoc] at h
  -- read from its end, the report begins with what is reported last
  have hturned := congrArg List.reverse h
  have hself : (failing kindRange fails).reverse = failing kindRange fails := by cases fails <;> rfl
  have hright : (front ++ kindRange :: back).reverse =
      back.reverse ++ kindRange :: front.reverse := by simp
  rw [List.reverse_append, hself, hright] at hturned
  exact List.reverse_eq_nil_iff.1
    (eq_nil_of_failing_append (fun hmem => hno (List.mem_reverse.1 hmem)) hturned)

end Range

/-! ## Checks that report one kind -/

/-- A value does not have its pattern, whatever compiles it and was compiled before. -/
theorem sublist_backend_check (B : TreeRules.Pattern.Backend) (value : String) (options : Options)
    (memory : B.Memory) :
    (answer (B.check value options) memory).Sublist [Pattern.kindPattern] := by
  have hverdict (c : Option B.Compiled) :
      (B.verdict c value).Sublist [Pattern.kindPattern] := by
    cases c with
    | none => exact List.nil_sublist _
    | some c =>
      rw [TreeRules.Pattern.Backend.verdict]
      split
      · exact List.nil_sublist _
      · exact List.Sublist.refl _
  rw [TreeRules.Pattern.Backend.check]
  cases Pattern.request? options with
  | none => exact List.nil_sublist _
  | some r => exact hverdict _

theorem Pattern.sublist_check (value : String) (options : Options) (memory : Pattern.Memory) :
    (answer (Pattern.check value options) memory).Sublist [Pattern.kindPattern] :=
  sublist_backend_check TreeRules.Pattern.Expr.backend value options memory

namespace Equality

variable (d : Document) (n : Nat) (options : Options) (paths : Resolver)

theorem sublist_mustNotBeEqual :
    (answer (mustNotBeEqual d n options) paths).Sublist [kindAreNotEqual] := by
  rw [mustNotBeEqual]
  simp only [answer_bind]
  split
  · exact List.Sublist.refl _
  · exact List.nil_sublist _

theorem sublist_mustBeEqual :
    (answer (mustBeEqual d n options) paths).Sublist [kindMustNotEqual] := by
  rw [mustBeEqual]
  simp only [answer_bind]
  split
  · exact List.nil_sublist _
  · exact List.Sublist.refl _

end Equality

end TreeRules.Check
