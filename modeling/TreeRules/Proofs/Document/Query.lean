import TreeRules.Document.Query
import TreeRules.Proofs.Document.Order

/-!
# Proofs/Document/Query — a query lists what matches below a node, in pre-order

A question about a node and a selector text has an answer if the node is there and the text can be
read, and a missing node is reported first.  Where there is an answer, it is a filter of what is
below the node, so that everything about the order of queries is known from `descendants`
(`query_in_preorder`).
-/

namespace TreeRules

/-- A star is read as the compound without tests. -/
theorem SelectorList.parse_star :
    SelectorList.parse "*" = .ok ⟨"*", [.single ⟨none, [], [], []⟩]⟩ := by
  have h : (SelectorList.parse "*").toOption = some ⟨"*", [.single ⟨none, [], [], []⟩]⟩ := by
    decide +kernel
  cases hp : SelectorList.parse "*" with
  | ok l =>
    rw [hp] at h
    exact congrArg Except.ok (Option.some.inj h)
  | error e =>
    rw [hp] at h
    exact absurd h (Option.some_ne_none _).symm

namespace Document

variable {d : Document} {n m : Nat} {selector : String} {l : SelectorList} {e : SelectorError}

/-! ## Answers and refusals -/

/-- A missing node is reported before the selector is read. -/
theorem selectorFor_of_missing (h : d.hasNode n = false) (selector : String) :
    d.selectorFor n selector = .error (.unknownNode n) := by
  rw [selectorFor, if_neg (ne_true_of_eq_false h)]

theorem selectorFor_of_error (h : d.hasNode n = true) (hp : SelectorList.parse selector = .error e) :
    d.selectorFor n selector = .error (.invalidSelector e) := by
  rw [selectorFor, if_pos h, hp]

theorem selectorFor_of_ok (h : d.hasNode n = true) (hp : SelectorList.parse selector = .ok l) :
    d.selectorFor n selector = .ok l := by
  rw [selectorFor, if_pos h, hp]

theorem query_of_missing (h : d.hasNode n = false) (selector : String) :
    d.query n selector = .error (.unknownNode n) := by
  rw [query, selectorFor_of_missing h]
  rfl

theorem query_of_error (h : d.hasNode n = true) (hp : SelectorList.parse selector = .error e) :
    d.query n selector = .error (.invalidSelector e) := by
  rw [query, selectorFor_of_error h hp]
  rfl

/-- A query is a filter of what is below the node. -/
theorem query_of_ok (h : d.hasNode n = true) (hp : SelectorList.parse selector = .ok l) :
    d.query n selector = .ok ((d.descendants n).filter (l.matches d)) := by
  rw [query, selectorFor_of_ok h hp]
  rfl

theorem matches_of_error (h : d.hasNode n = true) (hp : SelectorList.parse selector = .error e) :
    d.matches n selector = .error (.invalidSelector e) := by
  rw [«matches», selectorFor_of_error h hp]
  rfl

theorem matches_of_ok (h : d.hasNode n = true) (hp : SelectorList.parse selector = .ok l) :
    d.matches n selector = .ok (l.matches d n) := by
  rw [«matches», selectorFor_of_ok h hp]
  rfl

/-! ## Every element -/

/-- Whatever has a tag passes a compound without tests. -/
theorem matches_star (h : d.contains m = true) :
    SelectorList.matches ⟨"*", [.single ⟨none, [], [], []⟩]⟩ d m = true := by
  obtain ⟨e, he⟩ := Option.isSome_iff_exists.1 ((contains_iff d m).1 h)
  simp [SelectorList.matches, Selector.matches, Compound.matches, tag?, he]

/-- Every element below a node is found by a star. -/
theorem query_star (h : d.hasNode n = true) : d.query n "*" = .ok (d.descendants n) := by
  rw [query_of_ok h SelectorList.parse_star, List.filter_eq_self.2]
  intro m hm
  exact matches_star (contains_of_mem_descendants n hm)

/-! ## Order -/

/-- **A query lists what matches strictly below a node, each once and in pre-order.**

* It is what matches of the list that a walk with a stack makes, and the walk comes to its end.
* It is the part of the whole document's list which lies below the node, so a narrower scope leaves
  what matches as it is.
* A missing node is reported whatever the selector is, and then a selector that cannot be read. -/
theorem query_in_preorder (d : Document) (n : Nat) (selector : String) :
    (d.hasNode n = false → d.query n selector = .error (.unknownNode n)) ∧
    (d.hasNode n = true →
      (∀ e, SelectorList.parse selector = .error e →
        d.query n selector = .error (.invalidSelector e)) ∧
      ∀ l, SelectorList.parse selector = .ok l → ∃ found all walked,
        d.query n selector = .ok found ∧ d.findAll selector = .ok all ∧
        (∀ m, m ∈ found ↔ d.Below m n ∧ d.matches m selector = .ok true) ∧
        found.Nodup ∧ found.Pairwise d.Precedes ∧
        (d.Walk (d.children n) walked ∧ found = walked.filter (l.matches d)) ∧
        found = all.filter fun m => d.Below m n) ∧
    ∃ all, d.findAll "*" = .ok all ∧ ∀ m, m ∈ all ↔ d.contains m = true := by
  refine ⟨fun h => query_of_missing h selector, fun h => ⟨fun e hp => query_of_error h hp,
    fun l hp => ?_⟩, ?_⟩
  · have horder : ((d.descendants n).filter (l.matches d)).Pairwise d.Precedes :=
      (d.pairwise_descendants n).filter _
    refine ⟨_, _, d.descendants n, query_of_ok h hp, query_of_ok d.hasNode_root hp, fun m => ?_,
      nodup_of_pairwise horder, horder, ⟨walk_children_iff.2 rfl, rfl⟩, ?_⟩
    · rw [List.mem_filter, mem_descendants_iff]
      refine and_congr_right fun hm => ?_
      rw [matches_of_ok (hasNode_of_contains hm.contains) hp, Except.ok.injEq]
    · rw [List.filter_comm, filter_descendants]
  · refine ⟨_, query_star d.hasNode_root, fun m => ?_⟩
    rw [mem_descendants_iff, below_root_iff]

/-- What is appended under the first of two elements comes before the second, whatever its number
is. -/
example :
    let d := ofSpecs [ElementSpec.ofTag "p", ElementSpec.ofTag "p"]
    ((d.append 1 (ElementSpec.ofTag "input")).bind fun (d, _) => d.findAll "*").toOption =
      some [1, 3, 2] := by
  decide +kernel

end Document

end TreeRules
