import TreeRules.Document.Basic
import TreeRules.Selector.Basic

/-!
# Selector/Matching — which elements satisfy a selector

A selector is matched from its last compound to the left: the element satisfies that compound, and
its parent — or one of its ancestors — satisfies what stands before.  The root has no tag and
satisfies nothing.
-/

namespace TreeRules

/-- The attribute is there, with the value if one is asked for. -/
def AttributeTest.matches (t : AttributeTest) (d : Document) (n : Nat) : Bool :=
  match d.attribute? n t.name, t.value with
  | none, _ => false
  | some _, none => true
  | some actual, some expected => actual == expected

/-- All tests of the compound hold of the element; letters of a tag match in either case. -/
def Compound.matches (c : Compound) (d : Document) (n : Nat) : Bool :=
  match d.tag? n with
  | none => false
  | some tag =>
    (match c.tag with
      | some expected => expected.toLower == tag.toLower
      | none => true) &&
    c.ids.all (fun id => d.attribute? n "id" == some id) &&
    c.classes.all (d.hasClass n) &&
    c.attributes.all (·.matches d n)

namespace Selector

/-- Whether the node satisfies the last compound with the rest of the selector above it. -/
def «matches» : Selector → Document → Nat → Bool
  | single c, d, n => c.matches d n
  | joined left .child c, d, n => c.matches d n && (d.parent? n).any (left.matches d)
  | joined left .descendant c, d, n => c.matches d n && (d.ancestors n).any (left.matches d)

end Selector

def SelectorList.matches (l : SelectorList) (d : Document) (n : Nat) : Bool :=
  l.selectors.any (·.matches d n)

theorem Compound.not_matches_root (c : Compound) (d : Document) : c.matches d 0 = false := rfl

/-- The root satisfies no selector. -/
theorem Selector.not_matches_root (s : Selector) (d : Document) : s.matches d 0 = false := by
  cases s with
  | single c => rfl
  | joined left k c => cases k <;> simp [Selector.matches, Compound.not_matches_root]

end TreeRules
