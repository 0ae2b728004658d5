/-!
# Text/CodePoints — tables of code points written as run lengths

A set of code points is a list of lengths, alternately of a gap and of a run of members, from code
point 0 upward; what lies beyond the last length is outside.  `CodePoints.contains` walks it.  A
table of values is a list of runs, each a length and the value all along it (`Runs.valueAt?`).
-/

namespace TreeRules

/-- Alternating lengths: a gap, a run of members, a gap, … -/
abbrev CodePoints := List Nat

namespace CodePoints

/-- Whether `n` falls into a run — a gap and a run are crossed together. -/
def containsNat : CodePoints → Nat → Bool
  | gap :: run :: rest, n =>
    if n < gap then false
    else if n < gap + run then true
    else containsNat rest (n - (gap + run))
  | _, _ => false

def contains (s : CodePoints) (c : Char) : Bool := s.containsNat c.toNat

end CodePoints

/-! ## Tables of values -/

/-- Lengths from code point 0 upward, each with the value that holds along it. -/
abbrev Runs (α : Type) := List (Nat × α)

namespace Runs

/-- The value of the run that `n` falls into. -/
def valueAt? {α : Type} : Runs α → Nat → Option α
  | [], _ => none
  | (length, a) :: rest, n => if n < length then some a else valueAt? rest (n - length)

/-- How many maximal stretches of runs carry a value that passes the test. -/
def stretches {α : Type} (p : α → Bool) : Runs α → Nat
  | [] => 0
  | [(_, a)] => if p a then 1 else 0
  | (_, a) :: (n, b) :: rest =>
    stretches p ((n, b) :: rest) + if p a && !p b then 1 else 0

end Runs

end TreeRules
