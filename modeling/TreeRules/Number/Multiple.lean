import TreeRules.Number.Literal
import TreeRules.Number.Positional

/-!
# Number/Multiple — whole multiples of a step

Both numbers are taken as the decimals that they are written as, so `0.3` is three times `0.1`.  On
a common scale the question is one of whole numbers, which must fit into 128 bits; where they do
not, the quotient of the doubles has to be whole within a relative `10 ^ -9`.
-/

namespace TreeRules

/-- The decimal `mantissa / 10 ^ scale`. -/
structure Decimal where
  mantissa : Int
  scale : UInt32
  deriving DecidableEq, Repr

/-- The bound of the whole numbers of 128 bits, `2 ^ 127`. -/
abbrev int128Bound : Int := 0x80000000000000000000000000000000

/-- The whole numbers of 128 bits. -/
def fitsInt128 (n : Int) : Bool := decide (-int128Bound ≤ n ∧ n < int128Bound)

namespace Decimal

/-- The decimal of a text, cut at its first point: what stands before and behind it, put together,
is a sign or none and digits, and fits. -/
def ofText? (text : List Char) : Option Decimal :=
  let whole := text.takeWhile (· != '.')
  let fraction := (text.dropWhile (· != '.')).drop 1
  ((Literal.exponent? (whole ++ fraction)).filter fitsInt128).map
    fun mantissa => ⟨mantissa, UInt32.ofNat fraction.length⟩

/-- The mantissa on a finer scale, if it and the power of ten between the scales fit. -/
def rescale (d : Decimal) (scale : UInt32) : Option Int :=
  let factor : Int := Nat.pow 10 (scale - d.scale).toNat
  if fitsInt128 factor && fitsInt128 (d.mantissa * factor) then some (d.mantissa * factor) else none

/-- The remainder of the mantissas on a common scale. -/
def alignedRemainder (d divisor : Decimal) : Option Int := do
  let scale := max d.scale divisor.scale
  let a ← d.rescale scale
  let b ← divisor.rescale scale
  if b = 0 then none else some (a.tmod b)

end Decimal

namespace Binary64

/-- The remainder of the decimals that two numbers are written as, if all that it takes fits. -/
def exactRemainder? (number step : Binary64) : Option Int := do
  let value ← Decimal.ofText? number.text
  let divisor ← Decimal.ofText? step.text
  value.alignedRemainder divisor

/-- The relative distance from a whole number that is forgiven. -/
def tolerance : Binary64 := .ofDecimal false 1 (-9)

/-- The quotient of the doubles is whole, nearly. -/
def approximatelyMultiple (number step : Binary64) : Bool :=
  let quotient := number.div step
  le (quotient.sub quotient.round).abs (tolerance.mul (quotient.abs.larger one))

/-- Whether a finite number is a whole multiple of a finite positive step. -/
def isMultipleOf (number step : Binary64) : Bool :=
  if !number.isFinite || !step.isFinite || step.le zero then false
  else (exactRemainder? number step).elim (approximatelyMultiple number step) (· == 0)

end Binary64

end TreeRules
