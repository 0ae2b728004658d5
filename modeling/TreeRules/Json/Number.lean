import TreeRules.Json.Basic

/-!
# Json/Number — what a number in a JSON text denotes

A whole number in range is itself.  Any other number is read quickly: digits are gathered into a
64-bit significand while they fit, the digits beyond only count as places, and the significand is
scaled once by a power of ten.  The result can be a unit away from the nearest double; past the
greatest double there is none.
-/

namespace TreeRules.Json

/-- The parts of a number as written: digits before the point, after it, and an exponent with its
sign. -/
structure NumberText where
  negative : Bool
  whole : List Char
  fraction : Option (List Char)
  exponent : Option (Bool × List Char)
  deriving DecidableEq, Repr

namespace NumberText

/-- Digits appended to a significand while it stays below `2 ^ 64`, and the digits left over. -/
def gather : Nat → List Char → Nat × List Char
  | n, [] => (n, [])
  | n, c :: s =>
    let next := n * 10 + (c.toNat - '0'.toNat)
    if next < 0x10000000000000000 then gather next s else (n, c :: s)

/-- A power of ten as a double. -/
def powerOfTen (k : Nat) : Binary64 := .ofDecimal false 1 k

/-- `f * 10 ^ e` with one rounded operation; below the table of powers, up to `10 ^ 308`, one
division after the other until the exponent is in it or nothing is left. -/
def scale (f : Binary64) (e : Int) : Option Binary64 :=
  if e.natAbs ≤ 308 then
    if 0 ≤ e then
      let g := f.mul (powerOfTen e.toNat)
      if g.isFinite then some g else none
    else some (f.div (powerOfTen (-e).toNat))
  else if f.eq .zero then some f
  else if 0 ≤ e then none
  else scale (f.div (powerOfTen 308)) (e + 308)
termination_by (-e).toNat

/-- An exponent of more than 31 bits: nothing but zero has such a value. -/
def exponentLimit : Nat := 0x80000000

/-- The value of a number as written. -/
def value? (t : NumberText) : Option Json :=
  let (whole, beyond) := gather 0 t.whole
  if t.fraction.isNone && t.exponent.isNone && beyond.isEmpty then
    if !t.negative then some (.int whole)
    else if 0 < whole && whole ≤ Binary64.signBit then some (.int (-(whole : Int)))
    else some (.float (Binary64.ofNat whole).neg)
  else
    let digits := t.fraction.getD []
    let (significand, dropped) := gather whole digits
    let places : Int := beyond.length - ((digits.length - dropped.length : Nat) : Int)
    let signed (x : Binary64) : Json := .float (if t.negative then x.neg else x)
    let scaled (e : Int) := (scale (Binary64.ofNat significand) e).map signed
    match t.exponent with
    | none => scaled places
    | some (negativeExponent, ds) =>
      let e := ds.foldl (fun n c => n * 10 + (c.toNat - '0'.toNat)) 0
      if exponentLimit ≤ e then
        if significand = 0 || negativeExponent then some (signed .zero) else none
      else scaled (if negativeExponent then places - e else places + e)

end NumberText

end TreeRules.Json
