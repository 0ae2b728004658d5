import TreeRules.Proofs.Document.Below
import TreeRules.Selector.Matching

/-!
# Proofs/Selector/Seeing — what a selector can see of a document

A selector looks at an element and at what is above it: their tags, attributes, classes and links.
Two documents that show the same there (`Document.ShowsSame`) are the same to every selector
(`Document.ShowsSame.matches`), whatever else they hold.
-/

namespace TreeRules

namespace Document

/-- What a selector looks at is the same in both documents, on nodes with all that is above them. -/
structure ShowsSame (d d' : Document) (on : Nat → Prop) : Prop where
  up : ∀ n p, on n → d.parent? n = some p → on p
  parent? : ∀ n, on n → d'.parent? n = d.parent? n
  tag? : ∀ n, on n → d'.tag? n = d.tag? n
  attribute? : ∀ n, on n → ∀ name, d'.attribute? n name = d.attribute? n name
  hasClass : ∀ n, on n → ∀ name, d'.hasClass n name = d.hasClass n name

namespace ShowsSame

variable {d d' : Document} {on : Nat → Prop} {n m : Nat}

/-- The nodes above a node are the same, since each link up is. -/
theorem ancestors (h : ShowsSame d d' on) (hn : on n) : d'.ancestors n = d.ancestors n := by
  induction n using Nat.strong_induction_on with
  | _ n ih =>
    cases hp : d.parent? n with
    | none =>
      rw [ancestors_of_parent?_none hp, ancestors_of_parent?_none ((h.parent? n hn).trans hp)]
    | some p =>
      rw [ancestors_of_parent? hp, ancestors_of_parent? ((h.parent? n hn).trans hp),
        ih p (parent?_lt hp) (h.up n p hn hp)]

theorem below_iff (h : ShowsSame d d' on) (hm : on m) : d'.Below m n ↔ d.Below m n := by
  rw [← mem_ancestors_iff, ← mem_ancestors_iff, h.ancestors hm]

/-- What lies above a node that is seen is seen too. -/
theorem of_below (h : ShowsSame d d' on) (hm : on m) (hb : d.Below m n) : on n := by
  induction hb with
  | single hp => exact h.up _ _ hm hp
  | tail _ hp ih => exact h.up _ _ ih hp

/-- A compound looks at its element alone. -/
theorem compound (h : ShowsSame d d' on) (hn : on n) (c : Compound) :
    c.matches d' n = c.matches d n := by
  have htests : ∀ t : AttributeTest, t.matches d' n = t.matches d n := fun t => by
    rw [AttributeTest.matches, AttributeTest.matches, h.attribute? n hn]
  have hclass : d'.hasClass n = d.hasClass n := funext fun name => h.hasClass n hn name
  simp only [Compound.matches, h.tag? n hn, h.attribute? n hn, hclass, htests]

/-- A combinator looks up from the element, to its parent or to all that is above it. -/
theorem selector (h : ShowsSame d d' on) (s : Selector) (hn : on n) :
    s.matches d' n = s.matches d n := by
  induction s generalizing n with
  | single c => exact h.compound hn c
  | joined left k c ih =>
    cases k with
    | child =>
      rw [Selector.matches, Selector.matches, h.compound hn, h.parent? n hn]
      cases hp : d.parent? n with
      | none => rfl
      | some p => rw [Option.any_some, Option.any_some, ih (h.up n p hn hp)]
    | descendant =>
      have habove : (d.ancestors n).any (left.matches d') =
          (d.ancestors n).any (left.matches d) := by
        rw [Bool.eq_iff_iff, List.any_eq_true, List.any_eq_true]
        refine exists_congr fun a => and_congr_right fun ha => ?_
        rw [ih (h.of_below hn (mem_ancestors_iff.1 ha))]
      rw [Selector.matches, Selector.matches, h.compound hn, h.ancestors hn, habove]

/-- **A selector cannot tell the documents apart.** -/
theorem «matches» (h : ShowsSame d d' on) (l : SelectorList) (hn : on n) :
    l.matches d' n = l.matches d n := by
  rw [SelectorList.matches, SelectorList.matches]
  exact congrArg l.selectors.any (funext fun s => h.selector s hn)

end ShowsSame

end Document

end TreeRules
