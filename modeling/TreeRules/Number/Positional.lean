import TreeRules.Number.Shortest

/-!
# Number/Positional — numbers written out

A double is written as the shortest decimal that reads back, a half going up, with all its places
and without an exponent: zeros stand between its last digit and the point, or between the point and
its first digit.
-/

namespace TreeRules

/-- The digits of a decimal with the point where it belongs, and one digit at least in front. -/
def ScaledDecimal.positional (d : ScaledDecimal) : List Char :=
  let digits := Nat.toDigits 10 d.coefficient
  if 0 ≤ d.exponent then digits ++ List.replicate d.exponent.toNat '0'
  else
    let places := (-d.exponent).toNat
    let padded := digits.leftpad (places + 1) '0'
    padded.take (padded.length - places) ++ '.' :: padded.drop (padded.length - places)

/-- The text of a number; a zero keeps its sign. -/
def Binary64.text : Binary64 → List Char
  | .nan => "NaN".toList
  | .infinite negative => (if negative then "-inf" else "inf").toList
  | .finite negative r =>
    let body := (shortest .up r).positional
    if negative then '-' :: body else body

end TreeRules
