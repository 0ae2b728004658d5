import Mathlib.Data.Nat.Log
import Mathlib.Tactic.FieldSimp
import TreeRules.Proofs.Number.Magnitude

/-!
# Proofs/Number/Rounding — no magnitude is nearer

Of rounding one fact is used: a number lies between the midpoints from the magnitude of its rank to
the two neighbours (`Nearest`).  It holds of a quotient and the rank that it is rounded to
(`nearest_nearestRank`), and of whatever reads back as a rank.  So no magnitude is nearer
(`Nearest.abs_sub_le`), ranks keep the order of numbers (`Nearest.le_of_lt`), and the error is half
a unit, relatively `2 ^ -53` where precision is full (`Nearest.abs_sub_le_relative`).

A quotient is counted in the units of its block and the count is rounded (`nearest_of_count`).  At
the start of a block the rank before is only half a unit away and at its end the next one is two,
but there the number itself lies on the other side.
-/

namespace TreeRules.Binary64

variable {r s : ℕ} {p q : ℚ}

/-! ## Between the midpoints -/

/-- The number lies between the midpoints from a magnitude to its neighbours. -/
structure Nearest (r : ℕ) (q : ℚ) : Prop where
  low : (magnitude (r - 1) + magnitude r) / 2 ≤ q
  high : q ≤ (magnitude r + magnitude (r + 1)) / 2

theorem nearest_magnitude (r : ℕ) : Nearest r (magnitude r) := by
  have hlow := magnitude_pred_le r
  have hhigh := magnitude_le_succ r
  constructor <;> linarith

namespace Nearest

theorem le_of_le_magnitude (h : Nearest r q) (hq : q ≤ magnitude s) : r ≤ s := by
  by_contra! hlt
  have hpred : magnitude s ≤ magnitude (r - 1) := magnitude_strictMono.monotone (by omega)
  have hstep : magnitude (r - 1) < magnitude r := magnitude_strictMono (by omega)
  linarith [h.low]

theorem le_of_magnitude_le (h : Nearest r q) (hq : magnitude s ≤ q) : s ≤ r := by
  by_contra! hlt
  have hsucc : magnitude (r + 1) ≤ magnitude s := magnitude_strictMono.monotone hlt
  have hstep : magnitude r < magnitude (r + 1) := magnitude_strictMono (Nat.lt_succ_self r)
  linarith [h.high]

/-- Rounding keeps the order. -/
theorem le_of_lt (h : Nearest r q) (hs : Nearest s p) (hlt : q < p) : r ≤ s := by
  by_contra! hsr
  have hpred : magnitude s ≤ magnitude (r - 1) := magnitude_strictMono.monotone (by omega)
  have hsucc : magnitude (s + 1) ≤ magnitude r := magnitude_strictMono.monotone hsr
  linarith [h.low, hs.high]

/-- **No magnitude is nearer.** -/
theorem abs_sub_le (h : Nearest r q) (s : ℕ) : |magnitude r - q| ≤ |magnitude s - q| := by
  rcases lt_trichotomy s r with hlt | rfl | hlt
  · have hpred : magnitude s ≤ magnitude (r - 1) := magnitude_strictMono.monotone (by omega)
    have hstep := magnitude_pred_le r
    rw [abs_sub_comm (magnitude s), abs_le]
    have hs := le_abs_self (q - magnitude s)
    constructor <;> linarith [h.low]
  · exact le_rfl
  · have hsucc : magnitude (r + 1) ≤ magnitude s := magnitude_strictMono.monotone hlt
    have hstep := magnitude_le_succ r
    rw [abs_le]
    have hs := le_abs_self (magnitude s - q)
    constructor <;> linarith [h.high]

/-- The error is half a unit at most. -/
theorem abs_sub_le_unit (h : Nearest r q) : |magnitude r - q| ≤ 2 ^ unitExponent r / 2 := by
  have hsucc := magnitude_succ r
  have hpred : magnitude r ≤ magnitude (r - 1) + 2 ^ unitExponent r := by
    cases r with
    | zero => simpa using (two_zpow_pos (unitExponent 0)).le
    | succ r =>
      have hunit : (2 : ℚ) ^ unitExponent r ≤ 2 ^ unitExponent (r + 1) :=
        zpow_le_zpow_right₀ one_le_two (unitExponent_le (Nat.le_succ r))
      rw [Nat.add_sub_cancel, magnitude_succ r]
      linarith
  rw [abs_le]
  constructor <;> linarith [h.low, h.high]

/-- From the second block on the error is relatively small. -/
theorem abs_sub_le_relative (h : Nearest r q) (hr : blockSize ≤ r) :
    |magnitude r - q| ≤ magnitude r / 2 ^ 53 := by
  refine h.abs_sub_le_unit.trans ?_
  have hsignificand : (2 : ℚ) ^ 52 ≤ significand r := by
    exact_mod_cast blockSize_le_significand hr
  have hunit := mul_le_mul_of_nonneg_right hsignificand (two_zpow_pos (unitExponent r)).le
  rw [← magnitude_eq] at hunit
  linarith

theorem magnitude_le (h : Nearest r q) : magnitude r ≤ 2 * q := by
  linarith [h.low, magnitude_nonneg (r - 1)]

theorem le_magnitude (h : Nearest r q) (hr : 0 < r) : 2 * q ≤ 3 * magnitude r := by
  linarith [h.high, magnitude_succ_le_double hr]

end Nearest

/-! ## Rounding a quotient -/

theorem abs_halfEven_sub_le (num : ℕ) {den : ℕ} (hden : 0 < den) :
    |(halfEven num den : ℚ) - num / den| ≤ 1 / 2 := by
  have hmod := Nat.mod_lt num hden
  have hnum : den * (num / den) + num % den = num := Nat.div_add_mod num den
  have hsucc : den * (num / den + 1) = den * (num / den) + den := Nat.mul_succ ..
  have htwice : 2 * (den * halfEven num den) ≤ 2 * num + den ∧
      2 * num ≤ 2 * (den * halfEven num den) + den := by
    simp only [halfEven]
    split
    · omega
    · split
      · omega
      · rcases Nat.mod_two_eq_zero_or_one (num / den) with hpar | hpar <;>
          simp only [hpar, Nat.add_zero] <;> omega
  have hpos : (0 : ℚ) < den := by exact_mod_cast hden
  have hlow : (2 : ℚ) * (den * halfEven num den) ≤ 2 * num + den := by exact_mod_cast htwice.1
  have hhigh : (2 : ℚ) * num ≤ 2 * (den * halfEven num den) + den := by exact_mod_cast htwice.2
  rw [abs_le]
  constructor <;> refine le_of_mul_le_mul_right ?_ hpos <;>
    rw [sub_mul, div_mul_cancel₀ _ hpos.ne'] <;> linarith

theorem div_shiftLeft (num den : ℕ) {n : ℤ} (hn : 0 ≤ n) :
    (num : ℚ) / (den <<< n.toNat : ℕ) = num / den / 2 ^ n := by
  rw [Nat.shiftLeft_eq]
  push_cast
  rw [← zpow_natCast, Int.toNat_of_nonneg hn, div_div]

theorem shiftLeft_div (num den : ℕ) {n : ℤ} (hn : n ≤ 0) :
    ((num <<< (-n).toNat : ℕ) : ℚ) / den = num / den / 2 ^ n := by
  rw [Nat.shiftLeft_eq]
  push_cast
  rw [← zpow_natCast, Int.toNat_of_nonneg (by omega), zpow_neg]
  ring

/-- The exponent of a quotient: it lies between this power of two and the next. -/
theorem floorLog2_spec {num den : ℕ} (hnum : 0 < num) (hden : 0 < den) :
    (2 : ℚ) ^ floorLog2 num den ≤ num / den ∧ (num : ℚ) / den < 2 ^ (floorLog2 num den + 1) := by
  have hd : (0 : ℚ) < den := by exact_mod_cast hden
  have hnumLow : (2 : ℚ) ^ (num.log2 : ℤ) ≤ num := by exact_mod_cast Nat.log2_self_le hnum.ne'
  have hnumHigh : (num : ℚ) < 2 ^ ((num.log2 : ℤ) + 1) := by exact_mod_cast Nat.lt_log2_self
  have hdenLow : (2 : ℚ) ^ (den.log2 : ℤ) ≤ den := by exact_mod_cast Nat.log2_self_le hden.ne'
  have hdenHigh : (den : ℚ) < 2 ^ ((den.log2 : ℤ) + 1) := by exact_mod_cast Nat.lt_log2_self
  set e : ℤ := num.log2 - den.log2 with he
  have hreached : (if 0 ≤ e then den <<< e.toNat ≤ num else den ≤ num <<< (-e).toNat) ↔
      (2 : ℚ) ^ e ≤ num / den := by
    rw [← one_le_div (two_zpow_pos e)]
    split
    · next hsign =>
      have hshifted : (0 : ℚ) < (den <<< e.toNat : ℕ) := by
        rw [Nat.shiftLeft_eq]
        positivity
      rw [← div_shiftLeft num den hsign, one_le_div hshifted, Nat.cast_le]
    · next hsign =>
      rw [← shiftLeft_div num den (not_le.1 hsign).le, one_le_div hd, Nat.cast_le]
  have hlow : (2 : ℚ) ^ (e - 1) ≤ num / den := by
    rw [le_div_iff₀ hd]
    calc (2 : ℚ) ^ (e - 1) * den ≤ 2 ^ (e - 1) * 2 ^ ((den.log2 : ℤ) + 1) := by gcongr
      _ = 2 ^ (num.log2 : ℤ) := by rw [← zpow_add₀ two_ne_zero]; congr 1; omega
      _ ≤ num := hnumLow
  have hhigh : (num : ℚ) / den < 2 ^ (e + 1) := by
    rw [div_lt_iff₀ hd]
    calc (num : ℚ) < 2 ^ ((num.log2 : ℤ) + 1) := hnumHigh
      _ = 2 ^ (e + 1) * 2 ^ (den.log2 : ℤ) := by rw [← zpow_add₀ two_ne_zero]; congr 1; omega
      _ ≤ 2 ^ (e + 1) * den := by gcongr
  rw [floorLog2, ← he]
  by_cases hle : (2 : ℚ) ^ e ≤ num / den
  · rw [if_pos (hreached.2 hle)]
    exact ⟨hle, hhigh⟩
  · rw [if_neg (hreached.not.2 hle), sub_add_cancel]
    exact ⟨hlow, not_le.1 hle⟩

/-- Counting a number in the units of its block and rounding the count gives the nearest rank. -/
theorem nearest_of_count {e i : ℕ} {w : ℚ} (hcount : |(i : ℚ) - w| ≤ 1 / 2) (hw : 0 ≤ w)
    (hhigh : w < 2 * blockSize) (hlow : e = 0 ∨ (blockSize : ℚ) ≤ w) :
    Nearest (e * blockSize + i) (w * 2 ^ ((e : ℤ) - 1074)) := by
  obtain ⟨hbelow, habove⟩ := abs_le.1 hcount
  have hunit := two_zpow_pos ((e : ℤ) - 1074)
  have hblock : ∀ {j : ℕ}, j ≤ 2 * blockSize → (e = 0 ∨ blockSize ≤ j) →
    magnitude (e * blockSize + j) = j * 2 ^ ((e : ℤ) - 1074) := magnitude_block
  generalize blockSize = size at *
  have hfits : ∀ {j : ℕ}, (j : ℚ) < w + 1 → j ≤ 2 * size := fun {j} hj => by
    have hlt : (j : ℚ) < (2 * size : ℕ) + 1 := by
      push_cast
      linarith
    exact Nat.lt_succ_iff.1 (by exact_mod_cast hlt)
  have hreaches : ∀ {j : ℕ}, w < j + 1 → e = 0 ∨ size ≤ j := fun {j} hj =>
    hlow.imp_right fun hle => by
      have hlt : (size : ℚ) < (j : ℚ) + 1 := by linarith
      exact Nat.lt_succ_iff.1 (by exact_mod_cast hlt)
  have hmagnitude := hblock (hfits (by linarith)) (hreaches (j := i) (by linarith))
  constructor
  · by_cases hiw : (i : ℚ) ≤ w
    · -- at the start of a block the rank before counts in half units, but `w` is past it
      have hle := mul_le_mul_of_nonneg_right hiw hunit.le
      linarith [magnitude_pred_le (e * size + i)]
    · obtain ⟨j, rfl⟩ : ∃ j, i = j + 1 := by
        refine Nat.exists_eq_succ_of_ne_zero ?_
        rintro rfl
        exact hiw (by simpa using hw)
      rw [Nat.cast_succ] at hiw habove hmagnitude
      have hpred : magnitude (e * size + j) = j * 2 ^ ((e : ℤ) - 1074) :=
        hblock (hfits (by linarith)) (hreaches (by linarith))
      have hle := mul_le_mul_of_nonneg_right habove hunit.le
      rw [← add_assoc, Nat.add_sub_cancel, hpred, add_assoc, hmagnitude]
      linarith
  · by_cases hwi : w ≤ i
    · have hle := mul_le_mul_of_nonneg_right hwi hunit.le
      linarith [magnitude_le_succ (e * size + i)]
    · have hsucc : magnitude (e * size + (i + 1)) = (i + 1 : ℕ) * 2 ^ ((e : ℤ) - 1074) := by
        refine hblock (hfits ?_) (hreaches ?_) <;> push_cast <;> linarith
      have hle := mul_le_mul_of_nonneg_right hbelow hunit.le
      rw [add_assoc, hsucc, hmagnitude]
      push_cast
      linarith

/-- **The nearest rank**: a quotient lies between the midpoints around it. -/
theorem nearest_nearestRank (num : ℕ) {den : ℕ} (hden : 0 < den) :
    Nearest (nearestRank num den) (num / den) := by
  rcases Nat.eq_zero_or_pos num with rfl | hnum
  · rw [nearestRank, if_pos rfl, Nat.cast_zero, zero_div]
    exact magnitude_zero ▸ nearest_magnitude 0
  obtain ⟨hlow, hhigh⟩ := floorLog2_spec hnum hden
  rw [nearestRank, if_neg hnum.ne']
  dsimp only
  set unit := max (floorLog2 num den - 52) (-1074) with hunit
  set units := if 0 ≤ unit then halfEven num (den <<< unit.toNat)
    else halfEven (num <<< (-unit).toNat) den with hunits
  have hpos := two_zpow_pos unit
  have hcount : |(units : ℚ) - num / den / 2 ^ unit| ≤ 1 / 2 := by
    rw [hunits]
    split
    · next hsign =>
      rw [← div_shiftLeft num den hsign]
      exact abs_halfEven_sub_le num (by rw [Nat.shiftLeft_eq]; positivity)
    · next hsign =>
      rw [← shiftLeft_div num den (not_le.1 hsign).le]
      exact abs_halfEven_sub_le _ hden
  have hsize : ((blockSize : ℕ) : ℚ) = 2 ^ (52 : ℤ) := by norm_num
  have hfew : (num : ℚ) / den / 2 ^ unit < 2 * blockSize := by
    rw [hsize, ← two_zpow_succ, div_lt_iff₀ hpos, ← zpow_add₀ two_ne_zero]
    exact hhigh.trans_le (zpow_le_zpow_right₀ one_le_two (by omega))
  have hmany : (unit + 1074).toNat = 0 ∨ (blockSize : ℚ) ≤ num / den / 2 ^ unit := by
    rcases max_cases (floorLog2 num den - 52) (-1074) with ⟨hmax, -⟩ | ⟨hmax, -⟩
    · refine .inr ?_
      rw [hsize, le_div_iff₀ hpos, ← zpow_add₀ two_ne_zero]
      exact (zpow_le_zpow_right₀ one_le_two (by omega)).trans hlow
    · exact .inl (by omega)
  have hexponent : ((unit + 1074).toNat : ℤ) - 1074 = unit := by omega
  have hnearest := nearest_of_count hcount (by positivity) hfew hmany
  rwa [hexponent, div_mul_cancel₀ _ hpos.ne'] at hnearest

/-- The rank nearest to a number without its sign. -/
def rankOf (q : ℚ) : ℕ := nearestRank q.num.natAbs q.den

theorem rankOf_abs (q : ℚ) : rankOf |q| = rankOf q := by
  rcases abs_choice q with h | h <;> rw [h]
  rw [rankOf, Rat.neg_num, Int.natAbs_neg, Rat.neg_den, rankOf]

theorem nearest_rankOf (q : ℚ) : Nearest (rankOf q) |q| := by
  have hvalue : (q.num.natAbs : ℚ) / q.den = |q| := by
    conv_rhs => rw [← Rat.num_div_den q, abs_div, Nat.abs_cast]
    rw [Nat.cast_natAbs, Int.cast_abs]
  exact hvalue ▸ nearest_nearestRank _ q.den_pos

theorem rankOf_le (h : |p| ≤ |q|) : rankOf p ≤ rankOf q := by
  rcases h.lt_or_eq with hlt | heq
  · exact (nearest_rankOf p).le_of_lt (nearest_rankOf q) hlt
  · rw [← rankOf_abs p, heq, rankOf_abs]

end TreeRules.Binary64
