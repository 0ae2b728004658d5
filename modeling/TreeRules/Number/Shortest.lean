import TreeRules.Number.Binary64

/-!
# Number/Shortest — the shortest decimal that reads back

Every real number nearer to a magnitude than to its neighbours reads back as it.  On the grids of
one, two, … significant digits the first with a point in that interval gives the shortest decimal,
and of the two points around the magnitude the nearer is taken.
-/

namespace TreeRules

/-- The decimal `coefficient * 10 ^ exponent`. -/
structure ScaledDecimal where
  coefficient : Nat
  exponent : Int
  deriving DecidableEq, Repr

/-- Which neighbour an exact half goes to. -/
inductive HalfRule
  | up
  | toEven
  deriving DecidableEq, Repr

namespace Binary64

/-! ## The interval of a magnitude -/

/-- Whether `q` reads back as the magnitude of rank `r`: it lies between the midpoints to the
neighbours, and a midpoint itself goes to the even rank. -/
def readsAs (r : Nat) (q : Rat) : Bool :=
  let low := (magnitude (r - 1) + magnitude r) / 2
  let high := (magnitude r + magnitude (r + 1)) / 2
  if r % 2 = 0 then decide (low ≤ q ∧ q ≤ high) else decide (low < q ∧ q < high)

/-- The `k` with `10 ^ (k - 1) ≤ q < 10 ^ k`, for a positive `q` that is no power of ten below
one. -/
def decimalPlaces (q : Rat) : Int :=
  if 1 ≤ q then ((Nat.toDigits 10 q.floor.toNat).length : Int)
  else 1 - ((Nat.toDigits 10 (1 / q).floor.toNat).length : Int)

/-! ## The first grid with a hit -/

/-- The point of the grid of `digits` significant digits that reads back, the nearer of two. -/
def gridPoint? (half : HalfRule) (r digits : Nat) : Option ScaledDecimal :=
  let q := magnitude r
  let exponent := decimalPlaces q - digits
  let unit := Rat.zpow 10 exponent
  let below := (q / unit).floor.toNat
  let rest := q / unit - below
  let lower := readsAs r (below * unit)
  let upper := readsAs r ((below + 1 : Nat) * unit)
  let takeUpper :=
    match lower, upper with
    | false, u => u
    | true, false => false
    | true, true =>
      if rest = 1 / 2 then (match half with | .up => true | .toEven => below % 2 = 1)
      else decide (1 / 2 < rest)
  if takeUpper then
    if below + 1 = Nat.pow 10 digits then some ⟨1, exponent + digits⟩ else some ⟨below + 1, exponent⟩
  else if lower then some ⟨below, exponent⟩
  else none

/-- The shortest decimal that reads back as the magnitude of rank `r`; seventeen digits always
suffice. -/
def shortest (half : HalfRule) (r : Nat) : ScaledDecimal :=
  if r = 0 then ⟨0, 0⟩
  else ((List.range 17).findSome? fun n => gridPoint? half r (n + 1)).getD ⟨0, 0⟩

end Binary64

end TreeRules
