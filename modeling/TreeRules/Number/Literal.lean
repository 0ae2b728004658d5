import TreeRules.Number.Binary64

/-!
# Number/Literal — numerals and the numbers they denote

A decimal literal is an optional sign, digits with at most one point and at least one digit, and an
optional exponent; it denotes the double nearest to its exact value.  A radix integer is an
optional plus and digits of its radix, below `2 ^ 64`.
-/

namespace TreeRules.Literal

/-! ## Digits -/

/-- The value of a digit or letter digit, below `36`. -/
def digitValue? (c : Char) : Option Nat :=
  if c.isDigit then some (c.toNat - '0'.toNat)
  else if c.isLower then some (c.toNat - 'a'.toNat + 10)
  else if c.isUpper then some (c.toNat - 'A'.toNat + 10)
  else none

/-- The number that digits denote, most significant first; none if one is no digit of the radix. -/
def ofDigits? (radix : Nat) : Nat → List Char → Option Nat
  | n, [] => some n
  | n, c :: s =>
    match digitValue? c with
    | some d => if d < radix then ofDigits? radix (n * radix + d) s else none
    | none => none

/-- The bound of the whole numbers of 64 bits, `2 ^ 64`. -/
abbrev wordBound : Nat := 0x10000000000000000

/-- An optional plus and at least one digit of the radix, denoting a number below `2 ^ 64`. -/
def radixInteger? (radix : Nat) (s : List Char) : Option Nat :=
  let digits := match s with
    | '+' :: r => r
    | _ => s
  if digits = [] then none
  else (ofDigits? radix 0 digits).filter (· < wordBound)

/-! ## Decimal literals -/

/-- The parts of a decimal literal: its digits around the point, and its exponent. -/
structure Parts where
  negative : Bool
  whole : List Char
  fraction : List Char
  exponent : Int
  deriving DecidableEq, Repr

/-- A sign, if there is one, and the rest. -/
def splitSign : List Char → Bool × List Char
  | '-' :: s => (true, s)
  | '+' :: s => (false, s)
  | s => (false, s)

/-- The number that a run of ASCII digits denotes. -/
def natOfDigits (s : List Char) : Nat := s.foldl (fun n c => n * 10 + (c.toNat - '0'.toNat)) 0

/-- The exponent after the letter: a sign and at least one digit, and nothing after them. -/
def exponent? (s : List Char) : Option Int :=
  let (negative, digits) := splitSign s
  if digits.isEmpty || !digits.all Char.isDigit then none
  else some (if negative then -(natOfDigits digits : Int) else natOfDigits digits)

/-- The parts of a decimal literal, if the whole text is one. -/
def parts? (s : List Char) : Option Parts :=
  let (negative, s) := splitSign s
  let whole := s.takeWhile Char.isDigit
  let rest := s.dropWhile Char.isDigit
  let (fraction, rest) := match rest with
    | '.' :: r => (r.takeWhile Char.isDigit, r.dropWhile Char.isDigit)
    | r => ([], r)
  if whole.isEmpty && fraction.isEmpty then none
  else
    match rest with
    | [] => some ⟨negative, whole, fraction, 0⟩
    | c :: r =>
      if c = 'e' || c = 'E' then (exponent? r).map (⟨negative, whole, fraction, ·⟩) else none

/-- The double nearest to the literal's value.  Beyond the range of exponents the answer is known
without computing the value: infinity, or zero. -/
def Parts.toBinary64 (p : Parts) : Binary64 :=
  let coefficient := natOfDigits (p.whole ++ p.fraction)
  let exponent := p.exponent - p.fraction.length
  let places : Int := (Nat.toDigits 10 coefficient).length + exponent
  if coefficient = 0 then .ofRank p.negative 0
  else if 310 < places then .infinite p.negative
  else if places < -330 then .ofRank p.negative 0
  else .ofDecimal p.negative coefficient exponent

/-- The double that a decimal literal denotes. -/
def decimal? (s : List Char) : Option Binary64 := (parts? s).map Parts.toBinary64

end TreeRules.Literal
