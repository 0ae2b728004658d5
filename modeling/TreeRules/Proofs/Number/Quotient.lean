import TreeRules.Proofs.Number.Multiple
import TreeRules.Proofs.Number.Ratio

/-!
# Proofs/Number/Quotient — the test by the quotient of doubles

Main statement: a whole multiple of a step passes if and only if the quotient of the doubles is
finite (`isMultipleOf_of_multiple`).  An infinite quotient never passes, since its distance from
itself is not a number (`approximatelyMultiple_of_infinite`).  A finite one passes as soon as any
whole number is next to it (`approximatelyMultiple_of_near`): the whole number that it is rounded
to is not farther away, and as a double this moves by no more than its distance from the quotient.
-/

namespace TreeRules

/-- No whole number is nearer than the one that a half is rounded up to. -/
theorem abs_sub_floor_le (a : ℚ) (j : ℤ) : |a - ⌊a + 1 / 2⌋| ≤ |a - j| := by
  rw [← round_eq]
  exact round_le a j

namespace Binary64

variable {k l : ℕ} {negative : Bool} {r w s : Fin infinityRank} {a : ℚ}

/-! ## Operations as rounded ranks -/

theorem isFinite_ofRank : (ofRank negative k).isFinite = decide (k < infinityRank) := by
  rw [ofRank]
  split
  · next hk => exact (decide_eq_true hk).symm
  · next hk => exact (decide_eq_false hk).symm

theorem ofRank_of_lt (hk : k < infinityRank) : ofRank negative k = .finite negative ⟨k, hk⟩ :=
  dif_pos hk

theorem ofRank_of_le (hk : infinityRank ≤ k) : ofRank negative k = .infinite negative :=
  dif_neg (not_lt.2 hk)

theorem abs_ofRank : (ofRank negative k).abs = ofRank false k := by
  rw [ofRank, ofRank]
  split <;> rfl

theorem le_ofRank (h : k ≤ l) : le (ofRank false k) (ofRank false l) = true := by
  rcases lt_or_ge l infinityRank with hl | hl
  · rw [ofRank_of_lt hl, ofRank_of_lt (h.trans_lt hl)]
    exact decide_eq_true (Int.ofNat_le.2 h)
  · rw [ofRank_of_le hl]
    rcases lt_or_ge k infinityRank with hk | hk
    · rw [ofRank_of_lt hk]
      exact decide_eq_true (Int.ofNat_le.2 hk.le)
    · rw [ofRank_of_le hk]
      rfl

theorem div_finite (negative : Bool) (r : Fin infinityRank) (hw : 0 < w.val) :
    div (.finite negative r) (.finite false w) =
      ofRank negative (rankOf (magnitude r / magnitude w)) := by
  rw [div]
  simp only [isNegative, Bool.bne_false, hw.ne', ↓reduceIte]
  rfl

theorem round_finite (negative : Bool) (r : Fin infinityRank) :
    round (.finite negative r) =
      ofRank negative (nearestRank ⌊magnitude r + 1 / 2⌋.toNat 1) := by
  rw [round]
  rfl

theorem rankOf_neg (a : ℚ) : rankOf (-a) = rankOf a := by
  rw [← rankOf_abs, abs_neg, rankOf_abs]

theorem abs_sub_finite (negative : Bool) (r s : Fin infinityRank) :
    (sub (.finite negative r) (.finite negative s)).abs =
      ofRank false (rankOf (magnitude r - magnitude s)) := by
  rw [sub, neg, add]
  dsimp only
  rw [ofRat, ofMagnitude, ofRatio, abs_ofRank]
  change ofRank false (rankOf _) = _
  cases negative with
  | false =>
    simp only [Bool.not_false, Bool.false_eq_true, ↓reduceIte, ← sub_eq_add_neg]
  | true =>
    simp only [Bool.not_true, Bool.false_eq_true, ↓reduceIte, neg_add_eq_sub]
    rw [← neg_sub, rankOf_neg]

theorem mul_finite (r s : Fin infinityRank) :
    mul (.finite false r) (.finite false s) =
      ofRank false (rankOf (magnitude r * magnitude s)) := by
  rw [mul]
  rfl

/-- The greater of two magnitudes. -/
theorem larger_finite (r s : Fin infinityRank) :
    larger (.finite false r) (.finite false s) = .finite false (max r s) := by
  have hlt : lt (.finite false r) (.finite false s) = decide (r < s) := by
    refine decide_eq_decide.2 ?_
    simp
  rw [larger, hlt]
  · rcases lt_or_ge r s with h | h
    · rw [decide_eq_true h, if_pos rfl, max_eq_right h.le]
    · rw [decide_eq_false (not_lt.2 h), if_neg Bool.false_ne_true, max_eq_left h]
  · exact nofun
  · exact nofun

/-- What is forgiven is the tolerance times the greater of the quotient and one. -/
theorem exists_forgiven (negative : Bool) (r : Fin infinityRank) : ∃ b : ℚ,
    9 / 10 ^ 10 * max (magnitude r) 1 ≤ b ∧
      tolerance.mul ((finite negative r).abs.larger one) = ofRank false (rankOf b) := by
  have htolerance : tolerance = .finite false ⟨0x3E112E0BE826D695, by decide⟩ := by decide +kernel
  have hsize : (9 / 10 ^ 10 : ℚ) ≤ magnitude 0x3E112E0BE826D695 := by decide +kernel
  have hone : one = .finite false ⟨0x3FF0000000000000, by decide⟩ := by decide +kernel
  have hunit : magnitude 0x3FF0000000000000 = 1 := by decide +kernel
  refine ⟨_, ?_, by rw [htolerance, hone, abs, larger_finite, mul_finite]⟩
  rw [Fin.coe_max, magnitude_strictMono.monotone.map_max, hunit]
  exact mul_le_mul_of_nonneg_right hsize (le_max_of_le_right zero_le_one)

/-- By adding one no finite magnitude comes to infinity. -/
theorem magnitude_add_one_lt (hk : k < infinityRank) :
    magnitude k + 1 < magnitude infinityRank := by
  have hlast : magnitude k ≤ magnitude 0x7FEFFFFFFFFFFFFF :=
    magnitude_strictMono.monotone (Nat.le_of_lt_succ hk)
  have hgap := magnitude_succ 0x7FEFFFFFFFFFFFFF
  have hunit : unitExponent 0x7FEFFFFFFFFFFFFF = 971 := by decide
  have hone : (1 : ℚ) < 2 ^ (971 : ℤ) := one_lt_zpow₀ one_lt_two (by decide)
  rw [hunit] at hgap
  calc magnitude k + 1 < magnitude 0x7FEFFFFFFFFFFFFF + 2 ^ (971 : ℤ) :=
        add_lt_add_of_le_of_lt hlast hone
    _ = magnitude infinityRank := hgap.symm

/-- **A quotient next to a whole number passes.** -/
theorem approximatelyMultiple_of_near {x y : Binary64} (hquotient : x.div y = .finite negative r)
    {n : ℕ} (hnear : 2 * |magnitude r - n| ≤ 9 / 10 ^ 10 * max (magnitude r) 1) :
    approximatelyMultiple x y = true := by
  set whole := ⌊magnitude r + 1 / 2⌋.toNat with hwhole
  have hfloor : ((whole : ℕ) : ℚ) = (⌊magnitude r + 1 / 2⌋ : ℤ) := by
    have hnonneg : 0 ≤ magnitude r + 1 / 2 := add_nonneg (magnitude_nonneg r) (by norm_num)
    exact_mod_cast Int.toNat_of_nonneg (Int.floor_nonneg.2 hnonneg)
  have hhalf : |magnitude r - whole| ≤ 1 / 2 := by
    rw [hfloor, abs_le]
    have hle := Int.floor_le (magnitude r + 1 / 2)
    have hlt := Int.lt_floor_add_one (magnitude r + 1 / 2)
    constructor <;> linarith
  have hnearer : |magnitude r - whole| ≤ |magnitude r - n| := by
    rw [hfloor]
    exact_mod_cast abs_sub_floor_le (magnitude r) n
  -- rounding the whole number moves it no farther than the quotient is from it
  have hround : Nearest (nearestRank whole 1) whole := by
    have h := nearest_nearestRank whole Nat.one_pos
    rwa [Nat.cast_one, div_one] at h
  have hmoved : |magnitude r - magnitude (nearestRank whole 1)| ≤ 2 * |magnitude r - whole| := by
    have h := hround.abs_sub_le r
    have htriangle := abs_sub_le (magnitude r) whole (magnitude (nearestRank whole 1))
    rw [abs_sub_comm (whole : ℚ)] at htriangle
    linarith
  have hfinite : nearestRank whole 1 < infinityRank := by
    have hle := neg_le_of_abs_le (hmoved.trans (by linarith : _ ≤ (1 : ℚ)))
    have hlt := magnitude_add_one_lt r.isLt
    exact magnitude_strictMono.lt_iff_lt.1 (by linarith)
  obtain ⟨b, hb, hforgiven⟩ := exists_forgiven negative r
  rw [approximatelyMultiple, hquotient, round_finite, ← hwhole, ofRank_of_lt hfinite,
    abs_sub_finite, hforgiven]
  refine le_ofRank (rankOf_le ?_)
  calc |magnitude r - magnitude (nearestRank whole 1)| ≤ 2 * |magnitude r - whole| := hmoved
    _ ≤ 2 * |magnitude r - n| := by linarith
    _ ≤ b := hnear.trans hb
    _ ≤ |b| := le_abs_self b

/-- **An infinite quotient never passes**: its distance from itself is not a number. -/
theorem approximatelyMultiple_of_infinite {x y : Binary64}
    (hquotient : x.div y = .infinite negative) : approximatelyMultiple x y = false := by
  rw [approximatelyMultiple, hquotient]
  cases negative with
  | false => rfl
  | true => rfl

/-! ## Multiples of a step -/

/-- The numerals of a number and of a step are those of their magnitudes. -/
theorem abs_value_of_text {p : Numeral} (h : p.text = text (.finite negative r)) :
    |p.value| = (shortest .up r).value := by
  have hnonneg : 0 ≤ (shortest .up r).value :=
    mul_nonneg (Nat.cast_nonneg _) (ten_zpow_pos _).le
  rw [(writes_of_text h).value]
  split
  · rw [abs_neg, abs_of_nonneg hnonneg]
  · rw [abs_of_nonneg hnonneg]

/-- **A multiple passes just if the quotient of the doubles is finite**, whichever of the two tests
decides. -/
theorem isMultipleOf_of_multiple {x y : Binary64} {p q : Numeral} {k : ℤ}
    (hx : x.isFinite = true) (hy : y.isFinite = true) (hpos : zero.lt y = true)
    (hp : p.text = x.text) (hq : q.text = y.text) (h : p.value = k * q.value) :
    x.isMultipleOf y = (x.div y).isFinite := by
  have hfits := isMultipleOf_of_fits hx hy hpos hp hq
  have hnot := isMultipleOf_of_not_fits hx hy hpos hp hq
  have hbound := abs_le_of_fits hy hpos hq h
  have hsmall := fits_of_small hx hy hpos hp hq h
  obtain ⟨w, rfl, hw⟩ := exists_rank_of_pos hy hpos
  obtain ⟨negative, r, rfl⟩ := exists_rank hx
  have ha := nearest_shortest .up r
  have hb := nearest_shortest .up w
  have hvalue : (shortest .up r).value = k.natAbs * (shortest .up w).value := by
    rw [← abs_value_of_text hp, ← abs_value_of_text hq, h, abs_mul, Nat.cast_natAbs, Int.cast_abs]
  rw [div_finite negative r hw, isFinite_ofRank]
  by_cases hfit : Fits p q
  · rw [(hfits hfit).2 ⟨k, h⟩]
    have hk : k.natAbs ≤ 2 ^ 127 := by
      have habs := hbound hfit
      rw [Int.abs_eq_natAbs] at habs
      exact_mod_cast habs
    exact (decide_eq_true (rankOf_ratio_lt ha hb hw hvalue hk)).symm
  · rw [hnot hfit]
    rcases lt_or_ge (rankOf (magnitude r / magnitude w)) infinityRank with hlt | hge
    · rw [decide_eq_true hlt]
      have hcases : k.natAbs = 0 ∨ 2 ^ 70 ≤ k.natAbs ∨
          0 < k.natAbs ∧ 2 ^ 127 ≤ (shortest .up r).value := by
        by_contra! hall
        obtain ⟨hzero, hless, hvalueLess⟩ := hall
        refine hfit (hsmall (Int.natAbs_ne_zero.1 hzero) ?_ ?_)
        · rw [Int.abs_eq_natAbs]
          exact_mod_cast hless
        · rw [abs_value_of_text hp]
          exact hvalueLess (Nat.pos_of_ne_zero hzero)
      obtain ⟨m, hm⟩ := exists_near ha hb hw hvalue hlt hcases
      exact approximatelyMultiple_of_near ((div_finite negative r hw).trans (ofRank_of_lt hlt)) hm
    · rw [decide_eq_false (not_lt.2 hge)]
      exact approximatelyMultiple_of_infinite ((div_finite negative r hw).trans (ofRank_of_le hge))

end Binary64

end TreeRules
