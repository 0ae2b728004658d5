import TreeRules.Proofs.Number.Rounding

/-!
# Proofs/Number/Ratio — the quotient of two magnitudes against that of their decimals

Let `a` and `b` read back as two magnitudes and `a = n * b`.  The magnitudes are known up to a
half, so their quotient is `n` up to a factor of three (`ratio_le`, `le_ratio`).  Next to a whole
number it is for one of two reasons: it is so great that all doubles there are whole
(`exists_eq_of_large`), or both magnitudes have full precision and the quotient is relatively near
to `n` (`near_of_great`).
-/

namespace TreeRules.Binary64

variable {r w n : ℕ} {a b : ℚ}

theorem nearest_rankOf_div (r w : ℕ) :
    Nearest (rankOf (magnitude r / magnitude w)) (magnitude r / magnitude w) := by
  have h := nearest_rankOf (magnitude r / magnitude w)
  rwa [abs_of_nonneg (div_nonneg (magnitude_nonneg r) (magnitude_nonneg w))] at h

theorem rankOf_zero : rankOf 0 = 0 := rfl

/-- The least magnitude of full precision. -/
theorem magnitude_blockSize : magnitude blockSize = 2 ^ (-1022 : ℤ) := by
  have h := magnitude_mul_blockSize 0
  rwa [zero_add, one_mul, Nat.cast_zero, zero_sub] at h

theorem magnitude_infinityRank : magnitude infinityRank = 2 ^ (1024 : ℤ) :=
  magnitude_mul_blockSize 2046

section Multiple

variable (ha : Nearest r a) (hb : Nearest w b) (hw : 0 < w) (h : a = n * b)

include ha hb hw h in
theorem ratio_le : magnitude r / magnitude w ≤ 3 * n := by
  have hn : (0 : ℚ) ≤ n := Nat.cast_nonneg n
  rw [div_le_iff₀ (magnitude_pos hw)]
  calc magnitude r ≤ 2 * a := ha.magnitude_le
    _ = n * (2 * b) := by rw [h]; ring
    _ ≤ n * (3 * magnitude w) := mul_le_mul_of_nonneg_left (hb.le_magnitude hw) hn
    _ = 3 * n * magnitude w := by ring

include ha hb hw h in
theorem le_ratio (hr : 0 < r) : n ≤ 3 * (magnitude r / magnitude w) := by
  have hn : (0 : ℚ) ≤ n := Nat.cast_nonneg n
  rw [← mul_div_assoc, le_div_iff₀ (magnitude_pos hw)]
  calc n * magnitude w ≤ n * (2 * b) := mul_le_mul_of_nonneg_left hb.magnitude_le hn
    _ = 2 * a := by rw [h]; ring
    _ ≤ 3 * magnitude r := ha.le_magnitude hr

include ha hb hw h in
/-- A quotient that is not too great is finite. -/
theorem rankOf_ratio_lt (hn : n ≤ 2 ^ 127) : rankOf (magnitude r / magnitude w) < infinityRank := by
  have hbound : magnitude r / magnitude w ≤ magnitude ((1152 + 1) * blockSize) := by
    refine (ratio_le ha hb hw h).trans ?_
    have hcast : (n : ℚ) ≤ 2 ^ 127 := by exact_mod_cast hn
    rw [magnitude_mul_blockSize]
    norm_num
    linarith
  exact ((nearest_rankOf_div r w).le_of_le_magnitude hbound).trans_lt (by decide)

include ha hb hw h in
/-- The double nearest to a great quotient is whole. -/
theorem exists_eq_of_large (hr : 0 < r) (hn : 2 ^ 70 ≤ n) :
    ∃ m : ℕ, magnitude (rankOf (magnitude r / magnitude w)) = m := by
  have hbound : magnitude ((1076 + 1) * blockSize) ≤ magnitude r / magnitude w := by
    have hcast : (2 : ℚ) ^ 70 ≤ n := by exact_mod_cast hn
    have hle := le_ratio ha hb hw h hr
    rw [magnitude_mul_blockSize]
    norm_num
    linarith
  have hrank := (nearest_rankOf_div r w).le_of_magnitude_le hbound
  generalize rankOf (magnitude r / magnitude w) = k at hrank
  have hunit : 0 ≤ unitExponent k := by
    have hfirst : unitExponent ((1076 + 1) * blockSize) = 2 := by decide
    linarith [unitExponent_le hrank]
  obtain ⟨u, hu⟩ := Int.eq_ofNat_of_zero_le hunit
  refine ⟨significand k * 2 ^ u, ?_⟩
  rw [magnitude_eq, hu]
  push_cast
  rw [zpow_natCast]

include ha hb hw h in
/-- The quotient of magnitudes of full precision is relatively near to that of the decimals. -/
theorem abs_ratio_sub_le (hr : blockSize ≤ r) (hblock : blockSize ≤ w) :
    |magnitude r / magnitude w - n| ≤ (magnitude r / magnitude w + n) / 2 ^ 53 := by
  have hpos := magnitude_pos hw
  have hn : (0 : ℚ) ≤ n := Nat.cast_nonneg n
  have hra := ha.abs_sub_le_relative hr
  have hwb := mul_le_mul_of_nonneg_left (hb.abs_sub_le_relative hblock) hn
  have hsplit : magnitude r / magnitude w * magnitude w = magnitude r :=
    div_mul_cancel₀ _ hpos.ne'
  generalize magnitude r / magnitude w = z at *
  refine le_of_mul_le_mul_right ?_ hpos
  calc |z - n| * magnitude w = |z * magnitude w - n * magnitude w| := by
        rw [← sub_mul, abs_mul, abs_of_pos hpos]
    _ = |(magnitude r - a) - n * (magnitude w - b)| := by
        rw [hsplit, h]
        congr 1
        ring
    _ ≤ |magnitude r - a| + |n * (magnitude w - b)| := abs_sub _ _
    _ ≤ magnitude r / 2 ^ 53 + n * (magnitude w / 2 ^ 53) := by
        rw [abs_mul, abs_of_nonneg hn]
        exact add_le_add hra hwb
    _ = (z + n) / 2 ^ 53 * magnitude w := by
        rw [← hsplit]
        ring

include ha hb hw h in
/-- If the greater number is one of many digits, a finite quotient is relatively near. -/
theorem near_of_great (hgreat : 2 ^ 127 ≤ a) (hn : 0 < n)
    (hfinite : rankOf (magnitude r / magnitude w) < infinityRank) :
    2 * |magnitude (rankOf (magnitude r / magnitude w)) - n| ≤
      9 / 10 ^ 10 * magnitude (rankOf (magnitude r / magnitude w)) := by
  have hquotient := nearest_rankOf_div r w
  have hsmall : magnitude blockSize ≤ 1 / 2 := by
    rw [magnitude_blockSize, one_div, ← zpow_neg_one]
    exact zpow_le_zpow_right₀ one_le_two (by decide)
  have hr : blockSize ≤ r := by
    refine ha.le_of_magnitude_le (hsmall.trans (le_trans ?_ hgreat))
    norm_num
  have hblock : blockSize ≤ w := by
    -- else the quotient would be past the greatest double
    by_contra! hlt
    refine absurd hfinite (not_lt.2 (hquotient.le_of_magnitude_le ?_))
    have hlarge := ha.le_magnitude (Nat.lt_of_lt_of_le (by decide) hr)
    have hfour : (2 : ℚ) ^ (1024 : ℤ) * 2 ^ (-1022 : ℤ) = 4 := by
      rw [← zpow_add₀ two_ne_zero]
      norm_num
    rw [magnitude_infinityRank, le_div_iff₀ (magnitude_pos hw)]
    calc (2 : ℚ) ^ (1024 : ℤ) * magnitude w ≤ 2 ^ (1024 : ℤ) * 2 ^ (-1022 : ℤ) := by
          rw [← magnitude_blockSize]
          exact mul_le_mul_of_nonneg_left (magnitude_strictMono hlt).le (two_zpow_pos _).le
      _ = 4 := hfour
      _ ≤ magnitude r := by linarith
  have hratio := abs_ratio_sub_le ha hb hw h hr hblock
  generalize magnitude r / magnitude w = z at *
  have hcast : (1 : ℚ) ≤ n := by exact_mod_cast hn
  have hlow := (abs_le.1 hratio).1
  have hrank : blockSize ≤ rankOf z :=
    hquotient.le_of_magnitude_le (hsmall.trans (by linarith))
  have hrounded := hquotient.abs_sub_le_relative hrank
  have htriangle := abs_sub_le (magnitude (rankOf z)) z n
  have hbelow := (abs_le.1 hrounded).1
  linarith

include ha hb hw h in
/-- A finite quotient is next to a whole number if the multiple is none, or great, or of a great
number. -/
theorem exists_near (hfinite : rankOf (magnitude r / magnitude w) < infinityRank)
    (hcases : n = 0 ∨ 2 ^ 70 ≤ n ∨ 0 < n ∧ 2 ^ 127 ≤ a) :
    ∃ m : ℕ, 2 * |magnitude (rankOf (magnitude r / magnitude w)) - m| ≤
      9 / 10 ^ 10 * max (magnitude (rankOf (magnitude r / magnitude w))) 1 := by
  rcases hcases with rfl | hlarge | ⟨hn, hgreat⟩
  · -- nothing is written as zero but zero, and its quotient is zero
    have hr : r = 0 := by
      refine Nat.le_zero.1 (ha.le_of_le_magnitude ?_)
      rw [h, Nat.cast_zero, zero_mul, magnitude_zero]
    refine ⟨0, ?_⟩
    rw [hr, magnitude_zero, zero_div, rankOf_zero, magnitude_zero, Nat.cast_zero, sub_zero,
      abs_zero, mul_zero]
    positivity
  · have hr : 0 < r := by
      by_contra hzero
      obtain rfl := Nat.eq_zero_of_not_pos hzero
      have hhigh := ha.high
      have htwo : (2 : ℚ) ≤ n := by exact_mod_cast (by norm_num : 2 ≤ 2 ^ 70).trans hlarge
      have hfirst : magnitude (0 + 1) ≤ magnitude w := magnitude_strictMono.monotone hw
      have hpos := magnitude_pos (Nat.zero_lt_succ 0)
      have hb' := mul_le_mul_of_nonneg_right htwo (by linarith [hb.magnitude_le] : 0 ≤ b)
      rw [h, magnitude_zero] at hhigh
      linarith [hb.magnitude_le]
    obtain ⟨m, hm⟩ := exists_eq_of_large ha hb hw h hr hlarge
    refine ⟨m, ?_⟩
    rw [hm, sub_self, abs_zero, mul_zero]
    positivity
  · refine ⟨n, (near_of_great ha hb hw h hgreat hn hfinite).trans ?_⟩
    exact mul_le_mul_of_nonneg_left (le_max_left _ _) (by norm_num)

end Multiple

end TreeRules.Binary64
