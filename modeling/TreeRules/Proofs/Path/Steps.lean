import TreeRules.Path.Resolution
import TreeRules.Proofs.Document.Query
import TreeRules.Proofs.Selector.Matching

/-!
# Proofs/Path/Steps — what one segment finds from one node

A segment looks at some nodes around a node and keeps those that its selector matches, so what it
finds is a matter of those nodes and of the list that the selector denotes.  A selector that cannot
be read is noticed only when there is a node to be tested: then the segment fails, and else it finds
nothing.  In either case nothing gets past it (`blames_found`).  What is found are elements, each
once (`found_elements`).
-/

namespace TreeRules

/-! ## Faults -/

namespace Segment

/-- The selector of a segment, if it has one. -/
def selector? : Segment → Option String
  | descendant selector => some selector
  | relation _ argument => argument

/-- What is wrong with the selector of a segment. -/
def fault? (s : Segment) : Option SelectorError :=
  s.selector?.bind fun selector =>
    match SelectorList.parse selector with
    | .ok _ => none
    | .error e => some e

variable {s : Segment} {selector : String} {e : SelectorError}

theorem fault?_of_none (h : s.selector? = none) : s.fault? = none := by rw [fault?, h, Option.bind_none]

/-- A segment is at fault if its selector cannot be read. -/
theorem fault?_eq_some_iff :
    s.fault? = some e ↔
      ∃ selector, s.selector? = some selector ∧ SelectorList.parse selector = .error e := by
  rw [fault?, Option.bind_eq_some_iff]
  refine exists_congr fun selector => and_congr_right fun _ => ?_
  cases SelectorList.parse selector <;> simp

theorem exists_ok_of_fault?_eq_none (h : s.fault? = none) (hs : s.selector? = some selector) :
    ∃ l, SelectorList.parse selector = .ok l := by
  cases hp : SelectorList.parse selector with
  | ok l => exact ⟨l, rfl⟩
  | error e => exact absurd (h.symm.trans (fault?_eq_some_iff.2 ⟨selector, hs, hp⟩)) nofun

end Segment

/-- An answer that can fail for the given fault alone; with that fault, it finds nothing. -/
def Blames (fault : Option SelectorError) (found : Except TreeError (List Nat)) : Prop :=
  match fault with
  | none => ∃ ns, found = .ok ns
  | some e => found = .ok [] ∨ found = .error (.invalidSelector e)

namespace Document

variable {d : Document} {s : Segment} {n m p : Nat} {ns : List Nat} {selector : String}
  {l : SelectorList} {e : SelectorError}

/-! ## Nodes in a list -/

/-- A test that never fails keeps what it is true of. -/
theorem filterM_of_ok {test : Nat → Except TreeError Bool} {keep : Nat → Bool}
    (h : ∀ n ∈ ns, test n = .ok (keep n)) : ns.filterM test = .ok (ns.filter keep) := by
  have haux : ∀ (ns kept : List Nat), (∀ n ∈ ns, test n = .ok (keep n)) →
      ns.filterAuxM test kept = .ok ((ns.filter keep).reverse ++ kept) := by
    intro ns
    induction ns with
    | nil => exact fun kept _ => rfl
    | cons n rest ih =>
      intro kept h
      change (test n >>= fun b => rest.filterAuxM test (cond b (n :: kept) kept)) = _
      rw [h n List.mem_cons_self]
      change rest.filterAuxM test (cond (keep n) (n :: kept) kept) = _
      rw [ih _ fun m hm => h m (List.mem_cons_of_mem n hm), List.filter_cons]
      cases keep n <;> simp
  change (ns.filterAuxM test [] >>= fun kept => pure kept.reverse) = _
  rw [haux ns [] h, List.append_nil]
  exact congrArg Except.ok (List.reverse_reverse _)

theorem filterMatching_of_ok (h : ∀ n ∈ ns, d.hasNode n = true)
    (hp : SelectorList.parse selector = .ok l) :
    d.filterMatching selector ns = .ok (ns.filter (l.matches d)) :=
  filterM_of_ok fun n hn => matches_of_ok (h n hn) hp

/-- The first node that is looked at shows that the selector cannot be read. -/
theorem filterMatching_of_error (h : ∀ n ∈ ns, d.hasNode n = true)
    (hp : SelectorList.parse selector = .error e) :
    d.filterMatching selector ns = if ns = [] then .ok [] else .error (.invalidSelector e) := by
  cases ns with
  | nil => rfl
  | cons n rest =>
    rw [if_neg (List.cons_ne_nil n rest)]
    change ((d.matches n selector >>= _) >>= _) = _
    rw [matches_of_error (h n List.mem_cons_self) hp]
    rfl

/-! ## Above a node -/

theorem closest?_of_none (h : d.parentElement? n = none) (selector : String) :
    d.closest? n selector = .ok none := by
  rw [closest?]
  split
  · rfl
  · next p hp => exact absurd (hp.symm.trans h) (Option.some_ne_none p)

theorem closest?_of_some (h : d.parentElement? n = some p) (selector : String) :
    d.closest? n selector =
      d.matches p selector >>= fun b => if b then pure (some p) else d.closest? p selector := by
  rw [closest?]
  split
  · next hn => exact absurd (h.symm.trans hn) (Option.some_ne_none p)
  · next q hq => rw [Option.some.inj (hq.symm.trans h)]

/-- The nearest match is the first among the nodes above; the root, which is the last of them,
matches nothing. -/
theorem closest?_of_ok (hp : SelectorList.parse selector = .ok l) :
    d.closest? n selector = .ok ((d.ancestors n).find? (l.matches d)) := by
  induction n using Nat.strong_induction_on with
  | _ n ih =>
    cases hn : d.parent? n with
    | none =>
      have hnone : d.parentElement? n = none := by rw [parentElement?, hn, Option.filter_none]
      rw [closest?_of_none hnone, ancestors_of_parent?_none hn]
      rfl
    | some p =>
      rw [ancestors_of_parent? hn]
      by_cases hroot : p = root
      · subst hroot
        have hnone : d.parentElement? n = none := by rw [parentElement?, hn]; rfl
        have hfalse : l.matches d root = false :=
          List.any_eq_false.2 fun s _ => ne_true_of_eq_false (s.not_matches_root d)
        rw [closest?_of_none hnone, List.find?_cons_of_neg (ne_true_of_eq_false hfalse),
          ancestors_of_parent?_none rfl, List.find?_nil]
      · rw [closest?_of_some (parentElement?_eq_some_iff.2 ⟨hn, hroot⟩),
          matches_of_ok (hasNode_of_parent? hn) hp]
        cases hm : l.matches d p with
        | true =>
          rw [List.find?_cons_of_pos hm]
          rfl
        | false =>
          rw [List.find?_cons_of_neg (ne_true_of_eq_false hm)]
          exact ih p (parent?_lt hn)

/-- A selector that cannot be read is only noticed if there is something above to try it on. -/
theorem closest?_of_error (hp : SelectorList.parse selector = .error e) :
    d.closest? n selector = .ok none ∨ d.closest? n selector = .error (.invalidSelector e) := by
  cases hn : d.parentElement? n with
  | none => exact .inl (closest?_of_none hn selector)
  | some p =>
    refine .inr ?_
    rw [closest?_of_some hn, matches_of_error (hasNode_of_contains (contains_of_parentElement? hn)) hp]
    rfl

/-! ## One segment -/

/-- What a segment finds with the selector list that its selector denotes. -/
def foundBy (d : Document) (l : SelectorList) (n : Nat) : Segment → List Nat
  | .descendant _ => (d.descendants n).filter (l.matches d)
  | .relation .closest _ => ((d.ancestors n).find? (l.matches d)).toList
  | .relation .siblings _ => (d.siblings n).filter (l.matches d)
  | .relation .parent _ => (d.parentElement? n).toList.filter (l.matches d)

theorem contains_of_mem_parentElement? (h : m ∈ (d.parentElement? n).toList) : d.contains m = true :=
  contains_of_parentElement? (Option.mem_toList.1 h)

/-- What a segment finds where its selector can be read. -/
theorem found_of_ok (h : d.hasNode n = true) (hs : s.selector? = some selector)
    (hp : SelectorList.parse selector = .ok l) : d.found s n = .ok (d.foundBy l n s) := by
  cases s with
  | descendant text =>
    obtain rfl : text = selector := Option.some.inj hs
    exact query_of_ok h hp
  | relation r argument =>
    obtain rfl : argument = some selector := hs
    cases r with
    | closest =>
      change (d.closest? n selector).map Option.toList = _
      rw [closest?_of_ok hp]
      rfl
    | siblings =>
      exact filterMatching_of_ok (fun m hm => hasNode_of_contains (contains_of_mem_siblings hm)) hp
    | parent =>
      exact filterMatching_of_ok
        (fun m hm => hasNode_of_contains (contains_of_mem_parentElement? hm)) hp

/-- And where it cannot: nothing, or the fault. -/
theorem found_of_error (h : d.hasNode n = true) (hs : s.selector? = some selector)
    (hp : SelectorList.parse selector = .error e) :
    d.found s n = .ok [] ∨ d.found s n = .error (.invalidSelector e) := by
  have hfilter (ns : List Nat) (hns : ∀ m ∈ ns, d.contains m = true) :
      d.filterMatching selector ns = .ok [] ∨
        d.filterMatching selector ns = .error (.invalidSelector e) := by
    rw [filterMatching_of_error (fun m hm => hasNode_of_contains (hns m hm)) hp]
    split
    · exact .inl rfl
    · exact .inr rfl
  cases s with
  | descendant text =>
    obtain rfl : text = selector := Option.some.inj hs
    exact .inr (query_of_error h hp)
  | relation r argument =>
    obtain rfl : argument = some selector := hs
    cases r with
    | closest =>
      exact (closest?_of_error hp).imp (congrArg (Except.map Option.toList))
        (congrArg (Except.map Option.toList))
    | siblings => exact hfilter _ fun m hm => contains_of_mem_siblings hm
    | parent => exact hfilter _ fun m hm => contains_of_mem_parentElement? hm

/-- Without a selector there is the parent or nothing. -/
theorem found_of_none (hs : s.selector? = none) (n : Nat) :
    d.found s n = .ok [] ∨ d.found s n = .ok (d.parentElement? n).toList := by
  cases s with
  | descendant text => exact absurd hs (Option.some_ne_none text)
  | relation r argument =>
    obtain rfl : argument = none := hs
    cases r with
    | parent => exact .inr rfl
    | closest => exact .inl rfl
    | siblings => exact .inl rfl

/-- **A segment fails for its own selector alone**, and finds nothing with one that cannot be
read. -/
theorem blames_found (h : d.hasNode n = true) (s : Segment) : Blames s.fault? (d.found s n) := by
  cases hs : s.selector? with
  | none =>
    rw [Segment.fault?_of_none hs]
    exact (found_of_none hs n).elim (fun hf => ⟨_, hf⟩) fun hf => ⟨_, hf⟩
  | some selector =>
    cases hfault : s.fault? with
    | none =>
      obtain ⟨l, hp⟩ := Segment.exists_ok_of_fault?_eq_none hfault hs
      exact ⟨_, found_of_ok h hs hp⟩
    | some e =>
      obtain ⟨text, htext, hp⟩ := Segment.fault?_eq_some_iff.1 hfault
      exact found_of_error h htext hp

theorem nodup_toList : ∀ o : Option Nat, o.toList.Nodup
  | none => List.nodup_nil
  | some n => List.nodup_singleton n

/-- A segment finds elements, and none of them twice. -/
theorem foundBy_elements (d : Document) (l : SelectorList) (n : Nat) (s : Segment) :
    (d.foundBy l n s).Nodup ∧ ∀ m ∈ d.foundBy l n s, d.contains m = true := by
  cases s with
  | descendant text =>
    refine ⟨(nodup_of_pairwise (d.pairwise_descendants n)).filter _, fun m hm => ?_⟩
    exact contains_of_mem_descendants n (List.mem_filter.1 hm).1
  | relation r argument =>
    cases r with
    | closest =>
      refine ⟨nodup_toList _, fun m hm => ?_⟩
      exact SelectorList.contains_of_matches (List.find?_some (Option.mem_toList.1 hm))
    | siblings =>
      refine ⟨(d.nodup_siblings n).filter _, fun m hm => ?_⟩
      exact contains_of_mem_siblings (List.mem_filter.1 hm).1
    | parent =>
      refine ⟨(nodup_toList _).filter _, fun m hm => ?_⟩
      exact contains_of_mem_parentElement? (List.mem_filter.1 hm).1

/-- **A segment finds elements, each once.** -/
theorem found_elements (h : d.hasNode n = true) (hf : d.found s n = .ok ns) :
    ns.Nodup ∧ ∀ m ∈ ns, d.contains m = true := by
  cases hs : s.selector? with
  | none =>
    rcases found_of_none (d := d) hs n with hnone | hparent
    · obtain rfl : [] = ns := Except.ok.inj (hnone.symm.trans hf)
      exact ⟨List.nodup_nil, fun m hm => absurd hm List.not_mem_nil⟩
    · obtain rfl : (d.parentElement? n).toList = ns := Except.ok.inj (hparent.symm.trans hf)
      exact ⟨nodup_toList _, fun m hm => contains_of_mem_parentElement? hm⟩
  | some selector =>
    cases hp : SelectorList.parse selector with
    | ok l =>
      obtain rfl : d.foundBy l n s = ns := Except.ok.inj ((found_of_ok h hs hp).symm.trans hf)
      exact d.foundBy_elements l n s
    | error e =>
      rcases found_of_error h hs hp with hnone | herror
      · obtain rfl : [] = ns := Except.ok.inj (hnone.symm.trans hf)
        exact ⟨List.nodup_nil, fun m hm => absurd hm List.not_mem_nil⟩
      · exact absurd (herror.symm.trans hf) nofun

end Document

end TreeRules
