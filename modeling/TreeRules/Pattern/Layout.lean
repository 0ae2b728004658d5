import TreeRules.Text.Blank

/-!
# Pattern/Layout — blanks and comments between the parts of a pattern

Where blanks are ignored, so is everything from a `#` to the end of its line.  `skip` crosses both
where they are ignored and nothing elsewhere; `peek?` looks past them without crossing.
-/

namespace TreeRules.Pattern.Layout

open Text

/-- Crosses blanks and comments; `inComment` says that a comment has begun. -/
def skipFrom (inComment : Bool) : List Char → List Char
  | [] => []
  | c :: s =>
    if inComment then skipFrom (c != '\n') s
    else if isBlank c then skipFrom false s
    else if c == '#' then skipFrom true s
    else c :: s

/-- What is left after the blanks and comments that are ignored here. -/
def skip (ignoring : Bool) (s : List Char) : List Char :=
  if ignoring then skipFrom false s else s

theorem length_skipFrom_le (b : Bool) (s : List Char) : (skipFrom b s).length ≤ s.length := by
  induction s generalizing b with
  | nil => simp [skipFrom]
  | cons c s ih =>
    rw [skipFrom]
    split
    · exact Nat.le_succ_of_le (ih _)
    · split
      · exact Nat.le_succ_of_le (ih _)
      · split
        · exact Nat.le_succ_of_le (ih _)
        · exact Nat.le_refl _

theorem length_skip_le (ignoring : Bool) (s : List Char) :
    (skip ignoring s).length ≤ s.length := by
  unfold skip
  split
  · exact length_skipFrom_le false s
  · exact Nat.le_refl _

@[simp] theorem skip_false (s : List Char) : skip false s = s := rfl

@[simp] theorem skip_nil (ignoring : Bool) : skip ignoring [] = [] := by
  cases ignoring <;> rfl

/-- The next character that counts; of a comment, only the mark that begins it is passed over, and
where nothing else is left the first character stands in. -/
def peek? (ignoring : Bool) (s : List Char) : Option Char :=
  if ignoring then
    match s.dropWhile isBlank with
    | '#' :: rest => (rest.dropWhile isBlank).head?.or s.head?
    | c :: _ => some c
    | [] => s.head?
  else s.head?

/-- The characters up to `stop`, each of which must pass the test, and what follows `stop`;
`inComment` says that a comment has begun. -/
def collectFrom (ignoring : Bool) (test : Char → Bool) (stop : Char) (inComment : Bool) :
    List Char → Option (List Char × List Char)
  | [] => none
  | c :: s =>
    if inComment then collectFrom ignoring test stop (c != '\n') s
    else if ignoring && isBlank c then collectFrom ignoring test stop false s
    else if ignoring && c == '#' then collectFrom ignoring test stop true s
    else if c == stop then some ([], s)
    else if test c then
      (collectFrom ignoring test stop false s).map fun (cs, r) => (c :: cs, r)
    else none

/-- The characters up to `stop`, and what follows it. -/
def collect (ignoring : Bool) (test : Char → Bool) (stop : Char) (s : List Char) :
    Option (List Char × List Char) :=
  collectFrom ignoring test stop false s

end TreeRules.Pattern.Layout
