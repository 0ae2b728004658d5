/-!
# Text/Blank — blank characters, trimming and words

Blank is the Unicode property `White_Space`.  `trim` drops blanks at both ends, `words` are the
maximal runs between blanks, and `isBlankText` says that nothing else is there.
-/

namespace TreeRules.Text

/-! ## Blank characters -/

/-- The property `White_Space`, all twenty-five of its members. -/
def isBlank (c : Char) : Bool :=
  let n := c.toNat
  (9 ≤ n && n ≤ 13) || n == 0x20 || n == 0x85 || n == 0xA0 || n == 0x1680 ||
    (0x2000 ≤ n && n ≤ 0x200A) || n == 0x2028 || n == 0x2029 || n == 0x202F || n == 0x205F ||
    n == 0x3000

/-! ## Trimming -/

def trimStart (s : List Char) : List Char := s.dropWhile isBlank

/-- Trailing blanks go: a blank is kept only when something that is not blank follows it. -/
def trimEnd : List Char → List Char
  | [] => []
  | c :: s =>
    match trimEnd s with
    | [] => if isBlank c then [] else [c]
    | d :: t => c :: d :: t

def trim (s : List Char) : List Char := trimEnd (trimStart s)

/-- Nothing but blanks. -/
def isBlankText (s : List Char) : Bool := s.all isBlank

theorem trimEnd_eq_nil_iff (s : List Char) : trimEnd s = [] ↔ isBlankText s = true := by
  induction s with
  | nil => simp [trimEnd, isBlankText]
  | cons c s ih =>
    simp only [trimEnd, isBlankText, List.all_cons, Bool.and_eq_true] at *
    cases h : trimEnd s with
    | nil => by_cases hc : isBlank c <;> simp [hc, ih.1 h]
    | cons d t =>
      have : ¬ (s.all isBlank = true) := fun hs => by simp [ih.2 hs] at h
      simp [this]

theorem isBlankText_trimStart (s : List Char) : isBlankText (trimStart s) = isBlankText s := by
  induction s with
  | nil => rfl
  | cons c s ih =>
    by_cases hc : isBlank c <;>
      simp_all [trimStart, isBlankText]

/-- Trimming leaves nothing exactly on a blank text. -/
theorem trim_eq_nil_iff (s : List Char) : trim s = [] ↔ isBlankText s = true := by
  rw [trim, trimEnd_eq_nil_iff, isBlankText_trimStart]

/-! ## Words -/

/-- The maximal runs of characters that are not blank. -/
def words (s : List Char) : List (List Char) :=
  (s.splitOnP isBlank).filter (· ≠ [])

end TreeRules.Text

namespace TreeRules

/-- The text without the blanks at its ends. -/
def trimmed (s : String) : String := String.ofList (Text.trim s.toList)

/-- Whether nothing but blanks is there. -/
def isBlankString (s : String) : Bool := Text.isBlankText s.toList

/-- The blank-separated words of a text. -/
def wordsOf (s : String) : List String := (Text.words s.toList).map String.ofList

end TreeRules
