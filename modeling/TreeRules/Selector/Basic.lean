/-!
# Selector/Basic — selectors over elements

A compound tests one element: its tag, its identifiers, its classes and its attributes.  A selector
joins compounds, each but the first by a combinator that says where the element of the part before
it stands.  A selector list is satisfied by what satisfies one of its selectors.
-/

namespace TreeRules

/-- How the element of the left part stands to the element of the right one. -/
inductive Combinator where
  | descendant
  | child
  deriving DecidableEq, Repr

/-- An attribute that must be there and, with a value given, must have it. -/
structure AttributeTest where
  name : String
  value : Option String
  deriving DecidableEq, Repr

/-- The tests on one element; a missing tag stands for any. -/
structure Compound where
  tag : Option String
  ids : List String
  classes : List String
  attributes : List AttributeTest
  deriving DecidableEq, Repr

/-- Compounds joined by combinators, read from the left. -/
inductive Selector where
  | single (compound : Compound)
  | joined (left : Selector) (combinator : Combinator) (compound : Compound)
  deriving DecidableEq, Repr

namespace Selector

/-- The compounds from left to right. -/
def compounds : Selector → List Compound
  | single c => [c]
  | joined left _ c => left.compounds ++ [c]

/-- The combinators from left to right, each between two compounds. -/
def combinators : Selector → List Combinator
  | single _ => []
  | joined left k _ => left.combinators ++ [k]

/-- One combinator fewer than compounds. -/
theorem length_compounds (s : Selector) : s.compounds.length = s.combinators.length + 1 := by
  induction s with
  | single c => rfl
  | joined left k c ih => simp [compounds, combinators, ih]

/-- A selector is determined by its compounds and its combinators. -/
theorem eq_of_parts {s t : Selector} (hc : s.compounds = t.compounds)
    (hk : s.combinators = t.combinators) : s = t := by
  induction s generalizing t with
  | single c =>
    cases t with
    | single c' => exact congrArg single (List.singleton_inj.1 hc)
    | joined left k c' => exact absurd hk.symm (List.append_ne_nil_of_right_ne_nil _ (by simp))
  | joined left k c ih =>
    cases t with
    | single c' => exact absurd hk (List.append_ne_nil_of_right_ne_nil _ (by simp))
    | joined left' k' c' =>
      obtain ⟨hleft, hlast⟩ := List.append_inj' hc rfl
      obtain ⟨hleft', hlast'⟩ := List.append_inj' hk rfl
      rw [ih hleft hleft', List.singleton_inj.1 hlast, List.singleton_inj.1 hlast']

end Selector

/-- Selectors of which one must match, with the text they were read from. -/
structure SelectorList where
  source : String
  selectors : List Selector
  deriving DecidableEq, Repr

end TreeRules
