import TreeRules.Proofs.Number.Positional

/-!
# Proofs/Number/Multiple — whole multiples of a step, exactly

Main statement: where the mantissas, the powers of ten and the mantissas on the common scale fit
into 128 bits, a number passes just if the decimal that it is written as is a whole multiple of the
step's (`exists_testsExactly`).  A decimal of the machine holds a numeral as it is
(`Decimal.Holds`): the count of places is below `2 ^ 32`, and the common scale is never the smaller
one.  The divisor is positive because a positive number has a positive shortest decimal.

Also for the test by the quotient: the exact one can only fail for a multiple if the multiple is
great or the number is (`fits_of_small`).  With digits behind its point a numeral has few of them,
and without any its mantissa is the number.
-/

namespace TreeRules

variable {p q : Numeral} {x y : Binary64} {negative : Bool} {r w : Fin Binary64.infinityRank}

/-! ## The machine's numbers -/

theorem toNat_max (a b : UInt32) : (max a b).toNat = max a.toNat b.toNat := by
  change (if a ≤ b then b else a).toNat = _
  split
  · next hle => exact (max_eq_right (UInt32.le_iff_toNat_le.1 hle)).symm
  · next hle => exact (max_eq_left (not_le.1 (mt UInt32.le_iff_toNat_le.2 hle)).le).symm

theorem fitsInt128_iff {n : ℤ} : fitsInt128 n = true ↔ -2 ^ 127 ≤ n ∧ n < 2 ^ 127 := by
  rw [fitsInt128, decide_eq_true_eq]
  norm_num

theorem fitsInt128_of_abs_lt {n : ℤ} (h : |n| < 2 ^ 127) : fitsInt128 n = true :=
  fitsInt128_iff.2 ⟨(abs_lt.1 h).1.le, (abs_lt.1 h).2⟩

/-- The remainder of a number that fits by a positive one fits. -/
theorem fitsInt128_tmod {a b : ℤ} (hb : fitsInt128 b = true) (hpos : 0 < b) :
    fitsInt128 (a.tmod b) = true := by
  rw [fitsInt128_iff] at *
  have hlow := Int.lt_tmod_of_pos a hpos
  have hhigh := Int.tmod_lt_of_pos a hpos
  omega

namespace Binary64

/-- A positive finite number has no sign and a rank above zero. -/
theorem exists_rank_of_pos (hy : y.isFinite = true) (hpos : zero.lt y = true) :
    ∃ r : Fin infinityRank, y = .finite false r ∧ 0 < r.val := by
  obtain ⟨negative, r, rfl⟩ := exists_rank hy
  have hplace : (0 : ℤ) < if negative then -(r.val : ℤ) else r.val := of_decide_eq_true hpos
  cases negative with
  | true =>
    rw [if_pos rfl] at hplace
    omega
  | false => exact ⟨r, rfl, by simpa using hplace⟩

theorem places_lt (hx : x.isFinite = true) (h : p.text = x.text) : p.places < 2 ^ 32 := by
  obtain ⟨negative, r, rfl⟩ := exists_rank hx
  have hexponent := exponent_ge .up r
  rw [(writes_of_text h).places]
  omega

theorem mantissa_pos (hy : y.isFinite = true) (hpos : zero.lt y = true) (h : q.text = y.text) :
    0 < q.mantissa := by
  obtain ⟨w, rfl, hw⟩ := exists_rank_of_pos hy hpos
  rw [(writes_of_text h).mantissa, if_neg Bool.false_ne_true]
  exact_mod_cast Nat.mul_pos (coefficient_pos .up hw) (Nat.pow_pos (by decide))

end Binary64

/-! ## A common scale -/

/-- The numeral counted in units of a place that is at least as fine as its own. -/
def Numeral.onScale (p : Numeral) (places : ℕ) : ℤ := p.mantissa * 10 ^ (places - p.places)

@[simp] theorem Numeral.onScale_places (p : Numeral) : p.onScale p.places = p.mantissa := by
  rw [onScale, Nat.sub_self, pow_zero, mul_one]

/-- The power of ten between two scales fits if the numeral still does on the finer one. -/
theorem fitsInt128_factor {places : ℕ} (hne : p.mantissa ≠ 0)
    (hlt : |p.onScale places| < 2 ^ 127) : fitsInt128 (10 ^ (places - p.places)) = true := by
  refine fitsInt128_of_abs_lt (lt_of_le_of_lt ?_ hlt)
  rw [Numeral.onScale, abs_mul]
  exact le_mul_of_one_le_left (abs_nonneg _) (Int.one_le_abs hne)

/-- Everything that the exact test computes of two numerals fits into 128 bits. -/
structure Fits (p q : Numeral) : Prop where
  mantissa : fitsInt128 p.mantissa = true
  mantissa_step : fitsInt128 q.mantissa = true
  factor : fitsInt128 (10 ^ (max p.places q.places - p.places)) = true
  factor_step : fitsInt128 (10 ^ (max p.places q.places - q.places)) = true
  rescaled : fitsInt128 (p.onScale (max p.places q.places)) = true
  rescaled_step : fitsInt128 (q.onScale (max p.places q.places)) = true

/-- The machine's decimal holds a numeral as it is, also on a common scale of so many places. -/
structure Decimal.Holds (d : Decimal) (p : Numeral) (common : UInt32) (places : ℕ) : Prop where
  mantissa : d.mantissa = p.mantissa
  /-- The count of places is not cut short. -/
  scale : d.scale.toNat = p.places
  /-- The difference of the scales is that of the places, so it does not wrap. -/
  shift : (common - d.scale).toNat = places - p.places
  rescale : d.rescale common =
    if fitsInt128 (10 ^ (places - p.places)) && fitsInt128 (p.onScale places) then
      some (p.onScale places)
    else none

theorem Decimal.holds_ofNumeral (hp : p.places < 2 ^ 32) {common : UInt32} {places : ℕ}
    (hcommon : common.toNat = places) (hle : p.places ≤ places) :
    (ofNumeral p).Holds p common places := by
  have hplaces : (UInt32.ofNat p.places).toNat = p.places := UInt32.toNat_ofNat_of_lt' hp
  have hshift : (common - UInt32.ofNat p.places).toNat = places - p.places := by
    rw [UInt32.toNat_sub_of_le _ _ (UInt32.le_iff_toNat_le.2 (by omega)), hcommon, hplaces]
  refine ⟨rfl, hplaces, hshift, ?_⟩
  rw [rescale, ofNumeral, hshift, Numeral.onScale, Nat.pow_eq, Nat.cast_pow, Nat.cast_ofNat]

/-- Two numerals are held on the scale of the one with more places. -/
theorem Decimal.holds_both (hp : p.places < 2 ^ 32) (hq : q.places < 2 ^ 32) :
    (ofNumeral p).Holds p (max (ofNumeral p).scale (ofNumeral q).scale) (max p.places q.places) ∧
      (ofNumeral q).Holds q (max (ofNumeral p).scale (ofNumeral q).scale)
        (max p.places q.places) := by
  have hcommon : (max (ofNumeral p).scale (ofNumeral q).scale).toNat = max p.places q.places := by
    rw [toNat_max, ofNumeral, ofNumeral, UInt32.toNat_ofNat_of_lt' hp,
      UInt32.toNat_ofNat_of_lt' hq]
  exact ⟨holds_ofNumeral hp hcommon (le_max_left _ _),
    holds_ofNumeral hq hcommon (le_max_right _ _)⟩

theorem Numeral.onScale_eq_iff {places : ℕ} (hp : p.places ≤ places) (hq : q.places ≤ places)
    {k : ℤ} : p.onScale places = q.onScale places * k ↔ p.value = k * q.value := by
  have hscaled {p : Numeral} (hp : p.places ≤ places) :
      (p.onScale places : ℚ) = p.value * 10 ^ places := by
    obtain ⟨n, rfl⟩ := Nat.exists_eq_add_of_le hp
    rw [onScale, value, Nat.add_sub_cancel_left, pow_add]
    push_cast
    field_simp
  have hten : (10 : ℚ) ^ places ≠ 0 := by positivity
  rw [← @Int.cast_inj ℚ, Int.cast_mul, hscaled hp, hscaled hq, mul_right_comm,
    mul_comm _ (k : ℚ)]
  exact mul_left_inj' hten

/-- On the common scale one numeral is a whole multiple of the other just when it is one as a
number. -/
theorem Numeral.onScale_dvd_iff {places : ℕ} (hp : p.places ≤ places) (hq : q.places ≤ places) :
    q.onScale places ∣ p.onScale places ↔ ∃ k : ℤ, p.value = k * q.value :=
  exists_congr fun _ => onScale_eq_iff hp hq

/-! ## The two ways to an answer -/

theorem fits_iff : Fits p q ↔ fitsInt128 p.mantissa = true ∧ fitsInt128 q.mantissa = true ∧
    (fitsInt128 (10 ^ (max p.places q.places - p.places)) &&
      fitsInt128 (p.onScale (max p.places q.places))) = true ∧
    (fitsInt128 (10 ^ (max p.places q.places - q.places)) &&
      fitsInt128 (q.onScale (max p.places q.places))) = true := by
  rw [Bool.and_eq_true_iff, Bool.and_eq_true_iff]
  constructor
  · rintro ⟨hm, hn, hs, ht, ha, hb⟩
    exact ⟨hm, hn, ⟨hs, ha⟩, ht, hb⟩
  · rintro ⟨hm, hn, ⟨hs, ha⟩, ht, hb⟩
    exact ⟨hm, hn, hs, ht, ha, hb⟩

instance (p q : Numeral) : Decidable (Fits p q) := decidable_of_iff' _ fits_iff

/-- A bind that goes on only under a condition. -/
theorem bind_ite_some {α β : Type} {c : Prop} [Decidable c] (a : α) (f : α → Option β) :
    ((if c then some a else none) >>= f) = if c then f a else none := by
  split <;> rfl

namespace Binary64

section Written

variable (hx : x.isFinite = true) (hy : y.isFinite = true) (hpos : zero.lt y = true)
  (hp : p.text = x.text) (hq : q.text = y.text)

include hy hpos hq in
/-- The divisor is positive on every scale. -/
theorem onScale_pos (places : ℕ) : 0 < q.onScale places :=
  mul_pos (mantissa_pos hy hpos hq) (by positivity)

include hx hy hpos hp hq in
/-- The exact remainder is that on the common scale, if everything fits. -/
theorem exactRemainder?_eq : exactRemainder? x y =
    if Fits p q then
      some ((p.onScale (max p.places q.places)).tmod (q.onScale (max p.places q.places)))
    else none := by
  obtain ⟨hd, he⟩ := Decimal.holds_both (places_lt hx hp) (places_lt hy hq)
  have hne := (onScale_pos hy hpos hq (max p.places q.places)).ne'
  rw [exactRemainder?, ← hp, ← hq, Decimal.ofText?_text, Decimal.ofText?_text, bind_ite_some,
    bind_ite_some, Decimal.alignedRemainder, hd.rescale, he.rescale, bind_ite_some, bind_ite_some,
    if_neg hne, ← ite_and, ← ite_and, ← ite_and]
  refine if_congr ?_ rfl rfl
  rw [fits_iff, and_assoc, and_assoc]

include hx hy hpos in
theorem isMultipleOf_eq : x.isMultipleOf y =
    (exactRemainder? x y).elim (approximatelyMultiple x y) (· == 0) := by
  obtain ⟨w, rfl, hw⟩ := exists_rank_of_pos hy hpos
  have hle : le (.finite false w) zero = false := by
    refine decide_eq_false ?_
    simpa using hw.ne'
  rw [isMultipleOf, hx, hy, hle]
  rfl

include hx hy hpos hp hq in
theorem isMultipleOf_of_fits (h : Fits p q) :
    x.isMultipleOf y = true ↔ ∃ k : ℤ, p.value = k * q.value := by
  rw [isMultipleOf_eq hx hy hpos, exactRemainder?_eq hx hy hpos hp hq, if_pos h, Option.elim_some,
    beq_iff_eq, ← Int.dvd_iff_tmod_eq_zero]
  exact Numeral.onScale_dvd_iff (le_max_left _ _) (le_max_right _ _)

include hx hy hpos hp hq in
theorem isMultipleOf_of_not_fits (h : ¬ Fits p q) :
    x.isMultipleOf y = approximatelyMultiple x y := by
  rw [isMultipleOf_eq hx hy hpos, exactRemainder?_eq hx hy hpos hp hq, if_neg h, Option.elim_none]

/-! ### What fits -/

/-- With a point among them there are no more digits than the shortest decimal has. -/
theorem abs_mantissa_le (hx : x.isFinite = true) (hp : p.text = x.text) (hplaces : 0 < p.places) :
    |p.mantissa| ≤ 10 ^ 17 + 1 := by
  obtain ⟨negative, r, rfl⟩ := exists_rank hx
  have hwrites := writes_of_text hp
  have hexponent : (shortest .up r).exponent.toNat = 0 := by
    rw [hwrites.places] at hplaces
    omega
  have hcoefficient : ((shortest .up r).coefficient : ℤ) ≤ 10 ^ 17 + 1 := by
    exact_mod_cast coefficient_le .up r
  rw [hwrites.mantissa, hexponent, pow_zero, mul_one]
  split
  · rwa [abs_neg, Nat.abs_cast]
  · rwa [Nat.abs_cast]

/-- A mantissa fits if the number is not too great. -/
theorem abs_mantissa_lt (hx : x.isFinite = true) (hp : p.text = x.text)
    (hvalue : |p.value| < 2 ^ 127) : |p.mantissa| < 2 ^ 127 := by
  rcases Nat.eq_zero_or_pos p.places with hzero | hplaces
  · rw [Numeral.value, hzero, pow_zero, div_one] at hvalue
    exact_mod_cast hvalue
  · exact (abs_mantissa_le hx hp hplaces).trans_lt (by norm_num)

include hy hpos hq in
theorem abs_onScale_of_multiple {k : ℤ} (h : p.value = k * q.value) :
    |p.onScale (max p.places q.places)| = q.onScale (max p.places q.places) * |k| := by
  rw [(Numeral.onScale_eq_iff (le_max_left _ _) (le_max_right _ _)).2 h, abs_mul,
    abs_of_pos (onScale_pos hy hpos hq _)]

include hx hy hpos hp hq in
/-- Everything fits if the number is a multiple but not a great one, and is not great itself. -/
theorem fits_of_small {k : ℤ} (h : p.value = k * q.value) (hk : k ≠ 0) (hsmall : |k| < 2 ^ 70)
    (hvalue : |p.value| < 2 ^ 127) : Fits p q := by
  have hone : 1 ≤ |k| := Int.one_le_abs hk
  have hmantissa := abs_mantissa_lt hx hp hvalue
  have hstep : |q.mantissa| < 2 ^ 127 := by
    refine abs_mantissa_lt hy hq (lt_of_le_of_lt ?_ hvalue)
    rw [h, abs_mul]
    exact le_mul_of_one_le_left (abs_nonneg _) (by exact_mod_cast hone)
  have hpositive := mantissa_pos hy hpos hq
  have hdivisor := onScale_pos hy hpos hq (max p.places q.places)
  have habs := abs_onScale_of_multiple hy hpos hq h
  -- the one with more places is its own mantissa on the common scale
  have hrescaled : |p.onScale (max p.places q.places)| < 2 ^ 127 := by
    rcases le_total q.places p.places with hle | hle
    · rwa [max_eq_left hle, Numeral.onScale_places]
    · rcases Nat.eq_zero_or_pos q.places with hzero | hplaces
      · rwa [hzero, Nat.max_zero, Numeral.onScale_places]
      · have hfew := abs_mantissa_le hy hq hplaces
        rw [abs_of_pos hpositive] at hfew
        rw [habs, max_eq_right hle, Numeral.onScale_places]
        calc q.mantissa * |k| ≤ (10 ^ 17 + 1) * |k| :=
              mul_le_mul_of_nonneg_right hfew (abs_nonneg k)
          _ < (10 ^ 17 + 1) * 2 ^ 70 := by omega
          _ < 2 ^ 127 := by norm_num
  have hrescaledStep : |q.onScale (max p.places q.places)| < 2 ^ 127 := by
    refine lt_of_le_of_lt ?_ hrescaled
    rw [habs, abs_of_pos hdivisor]
    exact le_mul_of_one_le_right hdivisor.le hone
  have hne : p.mantissa ≠ 0 := by
    intro hzero
    rw [Numeral.onScale, hzero, zero_mul, abs_zero] at habs
    exact mul_ne_zero hdivisor.ne' (abs_ne_zero.2 hk) habs.symm
  exact ⟨fitsInt128_of_abs_lt hmantissa, fitsInt128_of_abs_lt hstep,
    fitsInt128_factor hne hrescaled, fitsInt128_factor hpositive.ne' hrescaledStep,
    fitsInt128_of_abs_lt hrescaled, fitsInt128_of_abs_lt hrescaledStep⟩

include hy hpos hq in
/-- Where everything fits, the multiple is not a great one. -/
theorem abs_le_of_fits {k : ℤ} (h : p.value = k * q.value) (hfits : Fits p q) : |k| ≤ 2 ^ 127 := by
  have hrescaled := fitsInt128_iff.1 hfits.rescaled
  calc |k| ≤ q.onScale (max p.places q.places) * |k| :=
        le_mul_of_one_le_left (abs_nonneg k) (onScale_pos hy hpos hq _)
    _ = |p.onScale (max p.places q.places)| := (abs_onScale_of_multiple hy hpos hq h).symm
    _ ≤ 2 ^ 127 := abs_le.2 ⟨hrescaled.1, hrescaled.2.le⟩

end Written

/-! ## The exact test -/

/-- The exact test of a number and a step that are written as the numerals `p` and `q`. -/
structure TestsExactly (x y : Binary64) (p q : Numeral) : Prop where
  number : ∀ n : Numeral, n.text = x.text ↔ n = p
  step : ∀ n : Numeral, n.text = y.text ↔ n = q
  /-- Neither a mantissa nor a scale changes when it is read, and no difference of scales wraps. -/
  holds : ∀ d e, Decimal.ofText? x.text = some d → Decimal.ofText? y.text = some e →
    d.Holds p (max d.scale e.scale) (max p.places q.places) ∧
      e.Holds q (max d.scale e.scale) (max p.places q.places)
  /-- No division is by zero or by minus one. -/
  divisor : ∀ places, 0 < q.onScale places
  remainder : ∀ a, exactRemainder? x y = some a → fitsInt128 a = true
  exact : Fits p q → ∃ a, exactRemainder? x y = some a
  /-- The answer is the true one. -/
  answer : Fits p q → (x.isMultipleOf y = true ↔ ∃ k : ℤ, p.value = k * q.value)

/-- **Where everything fits, the test is exact**: a number passes it just if the decimal that it is
written as is a whole multiple of the one that the step is written as.  Nothing that is computed on
the way wraps or divides by zero. -/
theorem exists_testsExactly (hx : x.isFinite = true) (hy : y.isFinite = true)
    (hpos : zero.lt y = true) : ∃ p q, TestsExactly x y p q := by
  obtain ⟨p, hp⟩ := exists_numeral hx
  obtain ⟨q, hq⟩ := exists_numeral hy
  have hremainder := exactRemainder?_eq hx hy hpos hp hq
  refine ⟨p, q, ?_, ?_, ?_, onScale_pos hy hpos hq, ?_, ?_, isMultipleOf_of_fits hx hy hpos hp hq⟩
  · exact fun n => ⟨fun hn => Numeral.eq_of_text_eq (hn.trans hp.symm), fun hn => hn ▸ hp⟩
  · exact fun n => ⟨fun hn => Numeral.eq_of_text_eq (hn.trans hq.symm), fun hn => hn ▸ hq⟩
  · intro d e hd he
    obtain rfl := Decimal.eq_ofNumeral (hp ▸ hd)
    obtain rfl := Decimal.eq_ofNumeral (hq ▸ he)
    exact Decimal.holds_both (places_lt hx hp) (places_lt hy hq)
  · intro a ha
    rw [hremainder] at ha
    split at ha
    · next hfits =>
      obtain rfl := Option.some.inj ha
      exact fitsInt128_tmod hfits.rescaled_step (onScale_pos hy hpos hq _)
    · exact absurd ha nofun
  · intro hfits
    exact ⟨_, hremainder.trans (if_pos hfits)⟩

/-- Three tenths are a whole multiple of a tenth, and all that is computed for it fits. -/
theorem exists_testsExactly_of_tenths :
    ∃ p q, TestsExactly (ofDecimal false 3 (-1)) (ofDecimal false 1 (-1)) p q ∧ Fits p q ∧
      p.value = (3 : ℤ) * q.value := by
  obtain ⟨p, q, h⟩ := @exists_testsExactly (ofDecimal false 3 (-1)) (ofDecimal false 1 (-1))
    (by decide +kernel) (by decide +kernel) (by decide +kernel)
  have hp := (h.number ⟨false, ['0'], ['3'], by decide, by decide, by decide⟩).1 (by decide +kernel)
  have hq := (h.step ⟨false, ['0'], ['1'], by decide, by decide, by decide⟩).1 (by decide +kernel)
  subst hp hq
  exact ⟨_, _, h, by decide +kernel, by decide +kernel⟩

end Binary64

end TreeRules
