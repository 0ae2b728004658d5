import TreeRules.Pattern.Modes

/-!
# Pattern/Backend — what compiles patterns and searches for them

A check hands the text of a pattern and the modes it begins in to a backend, which compiles it or
refuses to, and later asks whether what was compiled is found in a text.  Nothing else about
patterns enters a check, so checks are written for any backend.  `Expr.backend` is the one that is
run; it stands in for a larger one, of which it knows most of the syntax but not all of the
properties of characters, and whose limit of size it only estimates.
-/

namespace TreeRules.Pattern

/-- Why a text is not compiled. -/
inductive Refusal where
  /-- It is no pattern. -/
  | invalid
  /-- It nests too deeply, or what it is compiled to would be too large. -/
  | overLimits
  deriving DecidableEq, Repr

/-- What compiles patterns and searches for them. -/
structure Backend where
  /-- What a pattern is compiled to. -/
  Compiled : Type
  /-- Compiles a text that is read in some modes from its beginning on. -/
  compile : Modes → List Char → Except Refusal Compiled
  /-- Searches a text. -/
  isFoundIn : Compiled → List Char → Bool
  /-- Which stretches of text are matched: the second text is, where it stands between the first
  and the third.  This is what a search is for, and nothing that is run asks for it. -/
  Spans : Compiled → List Char → List Char → List Char → Prop

end TreeRules.Pattern
