import Mathlib.Algebra.Order.Field.Power
import Mathlib.Data.Rat.Floor
import Mathlib.Order.Monotone.Basic
import Mathlib.Tactic.Linarith
import Mathlib.Tactic.NormNum
import Mathlib.Tactic.Positivity
import Mathlib.Tactic.Ring
import TreeRules.Number.Binary64

/-!
# Proofs/Number/Magnitude — the magnitudes in the order of their ranks

A rank is a block with a number of units in it (`Counts`), and both formulas for its magnitude are
read off these.  At the end of a block the count may run over by one, since twice as many units are
as many of the next block (`magnitude_block`); so the step from a rank to the next is one unit
everywhere (`magnitude_succ`), and the magnitudes grow with the ranks.
-/

namespace TreeRules.Binary64

variable {r s e i : ℕ}

/-! ## Blocks and units -/

/-- The magnitude of rank `r` is counted as `i` units of `2 ^ (e - 1074)`. -/
structure Counts (r e i : ℕ) : Prop where
  rank : r = e * blockSize + i
  lt : i < 2 * blockSize
  /-- Only the first units are counted from zero. -/
  low : e = 0 ∨ blockSize ≤ i

/-- Every rank lies in a block. -/
theorem exists_counts (r : ℕ) : ∃ e i, Counts r e i := by
  by_cases hr : r < blockSize
  · exact ⟨0, r, by omega, by omega, .inl rfl⟩
  · refine ⟨r / blockSize - 1, blockSize + r % blockSize, ?_, ?_, .inr ?_⟩ <;>
      simp only [blockSize] at * <;> omega

theorem Counts.significand_eq (h : Counts r e i) : significand r = i := by
  obtain ⟨rfl, hlt, hlow⟩ := h
  simp only [significand, blockSize] at *
  split <;> omega

theorem Counts.unitExponent_eq (h : Counts r e i) : unitExponent r = (e : ℤ) - 1074 := by
  obtain ⟨rfl, hlt, hlow⟩ := h
  simp only [unitExponent, blockSize] at *
  omega

theorem magnitude_eq (r : ℕ) : magnitude r = significand r * 2 ^ unitExponent r := rfl

/-- The magnitude of a rank is so many units of its block. -/
theorem Counts.magnitude_eq (h : Counts r e i) : magnitude r = i * 2 ^ ((e : ℤ) - 1074) := by
  rw [Binary64.magnitude_eq, h.significand_eq, h.unitExponent_eq]

theorem two_zpow_succ (n : ℤ) : (2 : ℚ) ^ (n + 1) = 2 * 2 ^ n := by
  rw [zpow_add_one₀ two_ne_zero, mul_comm]

/-- The count may reach the end of the block, where the next one begins. -/
theorem magnitude_block (hi : i ≤ 2 * blockSize) (hlow : e = 0 ∨ blockSize ≤ i) :
    magnitude (e * blockSize + i) = i * 2 ^ ((e : ℤ) - 1074) := by
  rcases hi.lt_or_eq with hlt | rfl
  · exact Counts.magnitude_eq ⟨rfl, hlt, hlow⟩
  · have hnext : Counts (e * blockSize + 2 * blockSize) (e + 1) blockSize :=
      ⟨by ring, by decide, .inr le_rfl⟩
    have hexponent : ((e + 1 : ℕ) : ℤ) - 1074 = (e - 1074) + 1 := by
      push_cast
      ring
    rw [hnext.magnitude_eq, hexponent, two_zpow_succ]
    push_cast
    ring

/-! ## Order -/

/-- From a rank to the next it is one unit. -/
theorem magnitude_succ (r : ℕ) : magnitude (r + 1) = magnitude r + 2 ^ unitExponent r := by
  obtain ⟨e, i, h⟩ := exists_counts r
  have hsucc : magnitude (e * blockSize + (i + 1)) = (i + 1 : ℕ) * 2 ^ ((e : ℤ) - 1074) :=
    magnitude_block h.lt (h.low.imp_right Nat.le_succ_of_le)
  rw [h.magnitude_eq, h.unitExponent_eq, h.rank, add_assoc, hsucc]
  push_cast
  ring

theorem two_zpow_pos (n : ℤ) : (0 : ℚ) < 2 ^ n := zpow_pos two_pos n

/-- **The magnitudes grow with the ranks.** -/
theorem magnitude_strictMono : StrictMono magnitude :=
  strictMono_nat_of_lt_succ fun r => by
    rw [magnitude_succ]
    exact lt_add_of_pos_right _ (two_zpow_pos _)

@[simp] theorem magnitude_zero : magnitude 0 = 0 := by
  rw [magnitude_eq]
  exact zero_mul _

theorem magnitude_nonneg (r : ℕ) : 0 ≤ magnitude r :=
  magnitude_zero ▸ magnitude_strictMono.monotone (Nat.zero_le r)

theorem magnitude_pos (hr : 0 < r) : 0 < magnitude r :=
  magnitude_zero ▸ magnitude_strictMono hr

theorem magnitude_pred_le (r : ℕ) : magnitude (r - 1) ≤ magnitude r :=
  magnitude_strictMono.monotone (Nat.sub_le r 1)

theorem magnitude_le_succ (r : ℕ) : magnitude r ≤ magnitude (r + 1) :=
  magnitude_strictMono.monotone (Nat.le_succ r)

/-- The units do not get smaller. -/
theorem unitExponent_le (h : r ≤ s) : unitExponent r ≤ unitExponent s := by
  have hblocks : r / blockSize ≤ s / blockSize := Nat.div_le_div_right h
  simp only [unitExponent]
  omega

/-- No unit is smaller than the least. -/
theorem unitExponent_ge (r : ℕ) : -1074 ≤ unitExponent r := by
  simp only [unitExponent]
  omega

theorem significand_pos (hr : 0 < r) : 0 < significand r := by
  simp only [significand, blockSize]
  split <;> omega

/-- Above the lowest block a magnitude has at least as many units as a block has. -/
theorem blockSize_le_significand (hr : blockSize ≤ r) : blockSize ≤ significand r := by
  rw [significand, if_neg (not_lt.2 hr)]
  exact Nat.le_add_right _ _

/-- Also from the rank before it is one unit, but for the first rank of a block. -/
theorem magnitude_pred (hr : 0 < r) :
    magnitude (r - 1) + 2 ^ unitExponent r = magnitude r ∨ significand r = blockSize := by
  obtain ⟨e, i, h⟩ := exists_counts r
  rw [h.significand_eq, h.unitExponent_eq]
  refine or_iff_not_imp_right.2 fun hi => ?_
  have hlow : e = 0 ∨ blockSize ≤ i - 1 := h.low.imp_right fun hle => by omega
  have hpos : 0 < i := by
    have hrank := h.rank
    rcases h.low with rfl | hle
    · omega
    · simp only [blockSize] at hle
      omega
  obtain ⟨j, rfl⟩ := Nat.exists_eq_add_one.2 hpos
  have hpred : r - 1 = e * blockSize + j := by
    have hrank := h.rank
    omega
  rw [h.magnitude_eq, hpred, magnitude_block (h.lt.le.trans' (Nat.le_succ j)) hlow]
  push_cast
  ring

/-- Twice a positive magnitude lies past the next one. -/
theorem magnitude_succ_le_double (hr : 0 < r) : magnitude (r + 1) ≤ 2 * magnitude r := by
  have hone : (1 : ℚ) ≤ significand r := by exact_mod_cast significand_pos hr
  have hunit := le_mul_of_one_le_left (two_zpow_pos (unitExponent r)).le hone
  rw [magnitude_succ]
  rw [← magnitude_eq] at hunit
  linarith

/-- No positive magnitude is less than the least unit. -/
theorem le_magnitude (hr : 0 < r) : (2 : ℚ) ^ (-1074 : ℤ) ≤ magnitude r := by
  have hone : (1 : ℚ) ≤ significand r := by exact_mod_cast significand_pos hr
  rw [magnitude_eq]
  exact (zpow_le_zpow_right₀ one_le_two (unitExponent_ge r)).trans
    (le_mul_of_one_le_left (two_zpow_pos _).le hone)

/-- The first rank of each block but the lowest is a power of two. -/
theorem magnitude_mul_blockSize (k : ℕ) :
    magnitude ((k + 1) * blockSize) = 2 ^ ((k : ℤ) - 1022) := by
  have hsplit : (k : ℤ) - 1022 = 52 + (k - 1074) := by ring
  rw [add_one_mul, magnitude_block (by decide) (.inr le_rfl), hsplit, zpow_add₀ two_ne_zero]
  norm_num

end TreeRules.Binary64
