import TreeRules.Text.CaseFolding
import TreeRules.Text.Property
import TreeRules.Text.Script

/-!
# Pattern/CharSet — sets of characters, written rather than listed

A set is an expression over ranges, named classes and the set operations, and `contains` reads
membership off it.  Closing a set under case means asking it about every case variant.
-/

namespace TreeRules.Pattern

open Text

/-- A set of characters. -/
inductive CharSet where
  | empty
  /-- From one character to another, both included. -/
  | between (first last : Char)
  | categories (members : List Category)
  | script (code : String)
  /-- Characters used with a script, by their extensions. -/
  | usedWith (code : String)
  | property (p : Property)
  /-- What words are made of. -/
  | word
  | union (s t : CharSet)
  | inter (s t : CharSet)
  | diff (s t : CharSet)
  | symmetric (s t : CharSet)
  | complement (s : CharSet)
  /-- The closure under case. -/
  | folded (s : CharSet)
  /-- The closure under the case of ASCII letters. -/
  | asciiFolded (s : CharSet)
  deriving DecidableEq, Repr

namespace CharSet

def contains : CharSet → Char → Bool
  | empty, _ => false
  | between a b, c => a ≤ c && c ≤ b
  | categories members, c => Property.isIn c members
  | script code, c => Script.ofChar c == code
  | usedWith code, c => Script.usedWith code c
  | property p, c => p.holds c
  | word, c => Property.isWordChar c
  | union s t, c => s.contains c || t.contains c
  | inter s t, c => s.contains c && t.contains c
  | diff s t, c => s.contains c && !t.contains c
  | symmetric s t, c => s.contains c != t.contains c
  | complement s, c => !s.contains c
  | folded s, c => (CaseFolding.variants c).any s.contains
  | asciiFolded s, c => (CaseFolding.asciiVariants c).any s.contains

/-- The set of one character. -/
def only (c : Char) : CharSet := between c c

/-- Every character. -/
def any : CharSet := complement empty

/-- The ASCII characters. -/
def ascii : CharSet := between '\x00' '\x7f'

/-- The union of a list of sets. -/
def unions (sets : List CharSet) : CharSet := sets.foldr union empty

/-- A list of ranges, as one set. -/
def ranges (bounds : List (Char × Char)) : CharSet :=
  unions (bounds.map fun (first, last) => between first last)

@[simp] theorem contains_only (c d : Char) : (only c).contains d = decide (c = d) := by
  rw [only, contains, Bool.eq_iff_iff]
  simp only [Bool.and_eq_true, decide_eq_true_eq]
  exact ⟨fun h => Char.le_antisymm h.1 h.2, fun h => h ▸ ⟨Char.le_refl c, Char.le_refl c⟩⟩

@[simp] theorem contains_any (c : Char) : any.contains c = true := rfl

@[simp] theorem contains_unions (sets : List CharSet) (c : Char) :
    (unions sets).contains c = sets.any (·.contains c) := by
  induction sets with
  | nil => rfl
  | cons s rest ih => simp [unions, contains] at ih ⊢; rw [ih]

/-! ## Closing and complementing -/

/-- The set or, if `negated`, everything outside it. -/
def negateIf (negated : Bool) (s : CharSet) : CharSet := if negated then complement s else s

@[simp] theorem contains_negateIf (negated : Bool) (s : CharSet) (c : Char) :
    (s.negateIf negated).contains c = (s.contains c != negated) := by
  cases negated <;> simp [negateIf, contains]

/-! ## Size -/

/-- How many stretches of consecutive characters the set is written with; a property counts as
one. -/
def stretches : CharSet → Nat
  | empty => 0
  | between _ _ | property _ => 1
  | categories members => Category.runs.stretches members.contains
  | script code | usedWith code => Script.runs.stretches (· == code)
  | word => Category.runs.stretches
      [Category.lu, .ll, .lt, .lm, .lo, .nl, .mn, .mc, .me, .nd, .pc].contains
  | union s t | inter s t | diff s t | symmetric s t => s.stretches + t.stretches
  | complement s => s.stretches + 1
  | folded s | asciiFolded s => s.stretches

end CharSet

end TreeRules.Pattern
