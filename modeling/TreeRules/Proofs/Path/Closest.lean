import TreeRules.Proofs.Path.Walking

/-!
# Proofs/Path/Closest — `closest` finds the nearest strict ancestor

`closest` climbs from parent to parent and stops at the first element that matches, or below the
root.  The nodes that the climb passes are those that the start node lies below, nearest first, so
the first match is the one match above the node with no other match in between
(`find?_ancestors_eq_some_iff`).  Seen from above it is the one match that has the node below it and
has no other such match below it (`Document.closest_finds_nearest`).
-/

namespace TreeRules

namespace Document

variable {d : Document} {n a : Nat} {selector : String} {l : SelectorList}

/-! ## The first above a node -/

/-- The first node above that passes a test is the one that passes it with none in between. -/
theorem find?_ancestors_eq_some_iff {test : Nat → Bool} :
    (d.ancestors n).find? test = some a ↔
      d.Below n a ∧ test a = true ∧ ∀ b, d.Below n b → d.Below b a → test b = false := by
  induction n using Nat.strong_induction_on with
  | _ n ih =>
    cases hn : d.parent? n with
    | none =>
      rw [ancestors_of_parent?_none hn, List.find?_nil]
      refine iff_of_false nofun fun h => ?_
      obtain ⟨p, hp, -⟩ := below_iff.1 h.1
      exact absurd (hn.symm.trans hp) nofun
    | some p =>
      have hbelow : d.Below n p := below_of_parent? hn
      rw [ancestors_of_parent? hn]
      cases hp : test p with
      | true =>
        rw [List.find?_cons_of_pos hp, Option.some.injEq]
        constructor
        · rintro rfl
          refine ⟨hbelow, hp, fun b hb hbp => ?_⟩
          rcases hb.eq_or_of_parent? hn with rfl | hpb
          · exact absurd hbp hbp.asymm
          · exact absurd hbp hpb.asymm
        · rintro ⟨ha, -, hbetween⟩
          refine (ha.eq_or_of_parent? hn).resolve_right fun hpa => ?_
          exact absurd (hp.symm.trans (hbetween p hbelow hpa)) nofun
      | false =>
        rw [List.find?_cons_of_neg (ne_true_of_eq_false hp), ih p (parent?_lt hn)]
        constructor
        · rintro ⟨ha, hta, hbetween⟩
          refine ⟨hbelow.trans ha, hta, fun b hb hba => ?_⟩
          rcases hb.eq_or_of_parent? hn with rfl | hpb
          · exact hp
          · exact hbetween b hpb hba
        · rintro ⟨ha, hta, hbetween⟩
          refine ⟨(ha.eq_or_of_parent? hn).resolve_left ?_, hta, fun b hb => ?_⟩
          · rintro rfl
            exact absurd (hp.symm.trans hta) nofun
          · exact hbetween b (hbelow.trans hb)

/-! ## The nearest match -/

/-- What it means that `nearest` is what `closest` finds with a selector, from each node. -/
structure FindsNearest (d : Document) (selector : String) (nearest : Nat → Option Nat) : Prop where
  /-- There is an answer from every node. -/
  answer : ∀ n, d.closest? n selector = .ok (nearest n)
  /-- It is an element above the node that matches, and none between the two matches. -/
  some_iff : ∀ n a, nearest n = some a ↔ d.contains a = true ∧ d.Below n a ∧
    d.matches a selector = .ok true ∧
    ∀ b, d.Below n b → d.Below b a → d.matches b selector = .ok false
  /-- Nothing is found if no element above the node matches, and only then. -/
  none_iff : ∀ n, nearest n = none ↔
    ∀ a, d.contains a = true → d.Below n a → d.matches a selector = .ok false
  /-- A step of a path puts one node or none in the place of each node. -/
  step : ∀ ns, d.foundFrom (.relation .closest (some selector)) ns = .ok (ns.filterMap nearest)
  /-- That node is neither the one it was found from nor the root. -/
  elsewhere : ∀ n, nearest n ≠ some n ∧ nearest n ≠ some root
  /-- Of all that matches in the document it is what has the node below it, and below it no other
  match that has. -/
  downward : ∃ all, d.findAll selector = .ok all ∧ ∃ below : Nat → List Nat,
    (∀ m, d.hasNode m = true → d.query m "*" = .ok (below m)) ∧
    ∀ n a, nearest n = some a ↔ a ∈ all ∧ n ∈ below a ∧ ∀ b ∈ all, n ∈ below b → b ∉ below a

/-- **`closest` finds the nearest strict ancestor that matches.** -/
theorem closest_finds_nearest (hp : SelectorList.parse selector = .ok l) :
    ∃ nearest, d.FindsNearest selector nearest := by
  have hmatches {m : Nat} (v : Bool) (hm : d.hasNode m = true) :
      d.matches m selector = .ok v ↔ l.matches d m = v := by
    rw [matches_of_ok hm hp, Except.ok.injEq]
  have hsome (n a : Nat) : (d.ancestors n).find? (l.matches d) = some a ↔ d.Below n a ∧
      l.matches d a = true ∧ ∀ b, d.Below n b → d.Below b a → l.matches d b = false :=
    find?_ancestors_eq_some_iff
  refine ⟨fun n => (d.ancestors n).find? (l.matches d), ?_⟩
  constructor
  case answer => exact fun n => closest?_of_ok hp
  case some_iff =>
    intro n a
    rw [hsome]
    constructor
    · rintro ⟨hna, ha, hbetween⟩
      have hin : d.contains a = true := SelectorList.contains_of_matches ha
      refine ⟨hin, hna, (hmatches true (hasNode_of_contains hin)).2 ha, fun b hb hba => ?_⟩
      exact (hmatches false (hasNode_of_contains hba.contains)).2 (hbetween b hb hba)
    · rintro ⟨hin, hna, ha, hbetween⟩
      refine ⟨hna, (hmatches true (hasNode_of_contains hin)).1 ha, fun b hb hba => ?_⟩
      exact (hmatches false (hasNode_of_contains hba.contains)).1 (hbetween b hb hba)
  case none_iff =>
    intro n
    rw [List.find?_eq_none]
    constructor
    · intro h a hin hna
      have hfalse := eq_false_of_ne_true (h a (mem_ancestors_iff.2 hna))
      exact (hmatches false (hasNode_of_contains hin)).2 hfalse
    · intro h a hna ha
      have hin : d.contains a = true := SelectorList.contains_of_matches ha
      have hfalse := h a hin (mem_ancestors_iff.1 hna)
      exact absurd (((hmatches false (hasNode_of_contains hin)).1 hfalse).symm.trans ha) nofun
  case step =>
    intro ns
    have hfound : ∀ n ∈ ns, d.found (.relation .closest (some selector)) n =
        .ok ((d.ancestors n).find? (l.matches d)).toList := fun n _ =>
      congrArg (Except.map Option.toList) (closest?_of_ok hp)
    rw [foundFrom_eq, collect_of_ok hfound, List.filterMap_eq_flatMap_toList]
  case elsewhere =>
    intro n
    constructor
    · intro h
      exact absurd ((hsome n n).1 h).1.lt (Nat.lt_irrefl n)
    · intro h
      have hin : d.contains root = true := SelectorList.contains_of_matches ((hsome n root).1 h).2.1
      exact absurd (contains_eq_true_iff.1 hin).1 (Nat.lt_irrefl root)
  case downward =>
    refine ⟨_, query_of_ok d.hasNode_root hp, d.descendants, fun m hm => query_star hm,
      fun n a => ?_⟩
    -- what matches is an element, so it is listed below the root
    have hall (b : Nat) : b ∈ (d.descendants root).filter (l.matches d) ↔ l.matches d b = true := by
      rw [List.mem_filter, mem_descendants_iff, below_root_iff]
      exact and_iff_right_of_imp SelectorList.contains_of_matches
    simp only [hsome, hall, mem_descendants_iff]
    constructor
    · rintro ⟨hna, ha, hbetween⟩
      refine ⟨ha, hna, fun b hb hnb hba => ?_⟩
      exact absurd (hb.symm.trans (hbetween b hnb hba)) nofun
    · rintro ⟨ha, hna, hbetween⟩
      exact ⟨hna, ha, fun b hnb hba => eq_false_of_ne_true fun hb => hbetween b hb hnb hba⟩

/-- Three boxes in each other, all of which match: from the innermost the middle one is found, and
from the outermost, below the root, nothing. -/
theorem closest_finds_nearest_of_boxes :
    let box := ElementSpec.ofTag "div"
    let d := ofSpecs [box.withChildren [box.withChildren [box]]]
    SelectorList.parse "div" = .ok ⟨"div", [.single ⟨some "div", [], [], []⟩]⟩ ∧
      (∃ nearest, d.FindsNearest "div" nearest) ∧
      d.closest? 3 "div" = .ok (some 2) ∧ d.closest? 1 "div" = .ok none := by
  intro box d
  have h : SelectorList.parse "div" = .ok ⟨"div", [.single ⟨some "div", [], [], []⟩]⟩ := by
    decide +kernel
  exact ⟨h, closest_finds_nearest h, by decide +kernel, by decide +kernel⟩

end Document

end TreeRules
