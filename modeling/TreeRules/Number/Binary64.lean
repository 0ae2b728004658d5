/-!
# Number/Binary64 — binary floating point as ranks on a line of magnitudes

The finite magnitudes of double precision are numbered `0, 1, 2, …` in increasing order, and a
number is a sign with such a rank.  Neighbours are then consecutive ranks, the order is the order of
ranks, and the rank is the bit pattern without its sign.  Arithmetic is exact on rationals and
rounded once, to the nearest magnitude and on a tie to the one of even rank.
-/

namespace TreeRules

namespace Binary64

/-- The number of ranks that share a unit, `2 ^ 52`. -/
abbrev blockSize : Nat := 0x10000000000000

/-- The rank that infinity would have, `2047 * 2 ^ 52`; the finite ones lie below it. -/
abbrev infinityRank : Nat := 0x7FF0000000000000

/-- The bit of the sign, `2 ^ 63`. -/
abbrev signBit : Nat := 0x8000000000000000

end Binary64

/-- A double-precision number; all not-a-numbers are one. -/
inductive Binary64 where
  | nan
  | infinite (negative : Bool)
  | finite (negative : Bool) (rank : Fin Binary64.infinityRank)
  deriving DecidableEq, Repr

namespace Binary64

/-! ## Ranks and magnitudes

A rank below `blockSize` counts units of `2 ^ -1074`.  From there on each block of ranks has twice
the unit of the block before it, and a significand from `blockSize` upward. -/

/-- How many units the magnitude of rank `r` has. -/
def significand (r : Nat) : Nat := if r < blockSize then r else blockSize + r % blockSize

/-- The unit of the magnitude of rank `r`, as a power of two. -/
def unitExponent (r : Nat) : Int := (max (r / blockSize) 1 : Nat) - 1075

/-- The magnitude of rank `r`; the ranks past the greatest finite one go on as if there were no
end, so that the greatest has an upper neighbour too. -/
def magnitude (r : Nat) : Rat := (significand r : Rat) * Rat.zpow 2 (unitExponent r)

theorem significand_lt (r : Nat) : significand r < 2 * blockSize := by
  simp only [significand, blockSize]
  split <;> omega

/-- The value of a number that has one. -/
def toRat? : Binary64 → Option Rat
  | .finite negative r => some (if negative then -magnitude r else magnitude r)
  | _ => none

/-! ## Rounding -/

/-- The quotient rounded to the nearest whole number, a half to the even one. -/
def halfEven (num den : Nat) : Nat :=
  let below := num / den
  let twice := 2 * (num % den)
  if twice < den then below
  else if den < twice then below + 1
  else below + below % 2

/-- The exponent `e` with `2 ^ e ≤ num / den < 2 ^ (e + 1)`, for positive arguments. -/
def floorLog2 (num den : Nat) : Int :=
  let e : Int := num.log2 - den.log2
  let reached := if 0 ≤ e then den <<< e.toNat ≤ num else den ≤ num <<< (-e).toNat
  if reached then e else e - 1

/-- The rank whose magnitude is nearest to `num / den` — a carry out of the significand lands on
the first rank of the next block by itself. -/
def nearestRank (num den : Nat) : Nat :=
  if num = 0 then 0
  else
    let unit := max (floorLog2 num den - 52) (-1074)
    let units :=
      if 0 ≤ unit then halfEven num (den <<< unit.toNat)
      else halfEven (num <<< (-unit).toNat) den
    (unit + 1074).toNat * blockSize + units

/-- A rank with a sign; past the greatest finite rank lies infinity. -/
def ofRank (negative : Bool) (r : Nat) : Binary64 :=
  if h : r < infinityRank then .finite negative ⟨r, h⟩ else .infinite negative

/-- The number nearest to `±(num / den)`. -/
def ofRatio (negative : Bool) (num den : Nat) : Binary64 := ofRank negative (nearestRank num den)

/-- The number nearest to `±|q|`. -/
def ofMagnitude (negative : Bool) (q : Rat) : Binary64 := ofRatio negative q.num.natAbs q.den

/-- The number nearest to `q`; zero comes out with the sign that is given. -/
def ofRat (zeroNegative : Bool) (q : Rat) : Binary64 :=
  ofMagnitude (if q = 0 then zeroNegative else decide (q < 0)) q

def ofInt (n : Int) : Binary64 := ofRatio (decide (n < 0)) n.natAbs 1

def ofNat (n : Nat) : Binary64 := ofRatio false n 1

/-- The number nearest to `±(coefficient * 10 ^ exponent)`. -/
def ofDecimal (negative : Bool) (coefficient : Nat) (exponent : Int) : Binary64 :=
  if 0 ≤ exponent then ofRatio negative (coefficient * Nat.pow 10 exponent.toNat) 1
  else ofRatio negative coefficient (Nat.pow 10 (-exponent).toNat)

/-! ## Bit patterns -/

def toBits : Binary64 → UInt64
  | .nan => 0x7FF8000000000000
  | .infinite negative => (if negative then 0x8000000000000000 else 0) + 0x7FF0000000000000
  | .finite negative r => (if negative then 0x8000000000000000 else 0) + UInt64.ofNat r

def ofBits (bits : UInt64) : Binary64 :=
  let negative := decide (signBit ≤ bits.toNat)
  let r := bits.toNat % signBit
  if r ≤ infinityRank then ofRank negative r else .nan

/-! ## Order

Each number but not-a-number has a place on a line of whole numbers, where the two zeros share a
place; comparison is comparison of places, and false when there is none. -/

/-- The place on the line. -/
def place? : Binary64 → Option Int
  | .nan => none
  | .infinite negative => some (if negative then -(infinityRank : Int) else infinityRank)
  | .finite negative r => some (if negative then -(r : Int) else r)

def compareBy (test : Int → Int → Bool) (x y : Binary64) : Bool :=
  match x.place?, y.place? with
  | some a, some b => test a b
  | _, _ => false

def lt (x y : Binary64) : Bool := compareBy (fun a b => decide (a < b)) x y

def le (x y : Binary64) : Bool := compareBy (fun a b => decide (a ≤ b)) x y

/-- Equality as numbers: the zeros are equal, not-a-number equals nothing. -/
def eq (x y : Binary64) : Bool := compareBy (fun a b => decide (a = b)) x y

def isFinite : Binary64 → Bool
  | .finite _ _ => true
  | _ => false

def isNegative : Binary64 → Bool
  | .nan => false
  | .infinite negative => negative
  | .finite negative _ => negative

def zero : Binary64 := .finite false 0

def negZero : Binary64 := .finite true 0

def one : Binary64 := ofNat 1

/-! ## Arithmetic -/

def neg : Binary64 → Binary64
  | .nan => .nan
  | .infinite negative => .infinite (!negative)
  | .finite negative r => .finite (!negative) r

def abs : Binary64 → Binary64
  | .nan => .nan
  | .infinite _ => .infinite false
  | .finite _ r => .finite false r

def mul (x y : Binary64) : Binary64 :=
  let negative := x.isNegative != y.isNegative
  match x, y with
  | .nan, _ | _, .nan => .nan
  | .finite _ a, .finite _ b => ofMagnitude negative (magnitude a * magnitude b)
  | .infinite _, .finite _ b => if b.val = 0 then .nan else .infinite negative
  | .finite _ a, .infinite _ => if a.val = 0 then .nan else .infinite negative
  | .infinite _, .infinite _ => .infinite negative

def div (x y : Binary64) : Binary64 :=
  let negative := x.isNegative != y.isNegative
  match x, y with
  | .nan, _ | _, .nan => .nan
  | .finite _ a, .finite _ b =>
    if b.val = 0 then (if a.val = 0 then .nan else .infinite negative)
    else ofMagnitude negative (magnitude a / magnitude b)
  | .infinite _, .finite _ _ => .infinite negative
  | .finite _ _, .infinite _ => .finite negative 0
  | .infinite _, .infinite _ => .nan

def add (x y : Binary64) : Binary64 :=
  match x, y with
  | .nan, _ | _, .nan => .nan
  | .infinite a, .infinite b => if a = b then .infinite a else .nan
  | .infinite a, .finite _ _ | .finite _ _, .infinite a => .infinite a
  | .finite a r, .finite b s =>
    let value (negative : Bool) (r : Nat) := if negative then -magnitude r else magnitude r
    ofRat (a && b) (value a r + value b s)

def sub (x y : Binary64) : Binary64 := add x (neg y)

/-- The greater of two numbers; not-a-number gives way. -/
def larger (x y : Binary64) : Binary64 :=
  match x, y with
  | .nan, _ => y
  | _, .nan => x
  | _, _ => if lt x y then y else x

/-- The nearest whole number, a half away from zero. -/
def round : Binary64 → Binary64
  | .finite negative r => ofRatio negative (magnitude r + 1 / 2).floor.toNat 1
  | x => x

end Binary64

end TreeRules
