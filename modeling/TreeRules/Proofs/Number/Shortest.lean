import TreeRules.Number.Shortest
import TreeRules.Proofs.Number.Rounding

/-!
# Proofs/Number/Shortest — seventeen digits are enough

On the grid of seventeen significant digits a unit is less than that of the magnitude, so the
nearer of the two points around the magnitude reads back.  The first rank of a block has a
neighbour at half a unit; there the unit of the grid is less than half of that of the magnitude as
well, and the upper point reads back (`readsAs_seventeen`).  The search for the shortest decimal
therefore ends, and what it ends with lies between the midpoints around the magnitude
(`nearest_shortest`), has few digits (`coefficient_le`) and not too many places (`exponent_ge`).
-/

namespace TreeRules

/-- The number that a decimal denotes. -/
def ScaledDecimal.value (d : ScaledDecimal) : ℚ := d.coefficient * 10 ^ d.exponent

namespace Binary64

variable {r n : ℕ} {q : ℚ} {half : HalfRule} {d : ScaledDecimal}

/-! ## What reads back -/

theorem nearest_of_readsAs (h : readsAs r q = true) : Nearest r q := by
  simp only [readsAs] at h
  split at h
  · exact ⟨(of_decide_eq_true h).1, (of_decide_eq_true h).2⟩
  · exact ⟨(of_decide_eq_true h).1.le, (of_decide_eq_true h).2.le⟩

theorem readsAs_of_lt (hlow : (magnitude (r - 1) + magnitude r) / 2 < q)
    (hhigh : q < (magnitude r + magnitude (r + 1)) / 2) : readsAs r q = true := by
  simp only [readsAs]
  split
  · exact decide_eq_true ⟨hlow.le, hhigh.le⟩
  · exact decide_eq_true ⟨hlow, hhigh⟩

/-! ## Decimal places -/

theorem ten_zpow_pos (n : ℤ) : (0 : ℚ) < 10 ^ n := zpow_pos (by norm_num) n

/-- A number from one upward has as many places as its whole part has digits. -/
theorem places_floor (hq : 1 ≤ q) :
    (10 : ℚ) ^ (((Nat.toDigits 10 q.floor.toNat).length : ℤ) - 1) ≤ q ∧
      q < 10 ^ ((Nat.toDigits 10 q.floor.toNat).length : ℤ) := by
  have hfloor : ((q.floor.toNat : ℕ) : ℤ) = ⌊q⌋ :=
    Int.toNat_of_nonneg (Int.floor_nonneg.2 (zero_le_one.trans hq))
  have hle : (q.floor.toNat : ℚ) ≤ q := by
    have := Int.floor_le q
    rwa [← hfloor, Int.cast_natCast] at this
  have hlt : q < (q.floor.toNat : ℚ) + 1 := by
    have := Int.lt_floor_add_one q
    rwa [← hfloor, Int.cast_natCast] at this
  have hone : 1 ≤ q.floor.toNat := by
    have : (1 : ℤ) ≤ ⌊q⌋ := Int.le_floor.2 (by exact_mod_cast hq)
    omega
  generalize q.floor.toNat = whole at *
  have hlength : 0 < (Nat.toDigits 10 whole).length := Nat.length_toDigits_pos
  have hbelow : whole < 10 ^ (Nat.toDigits 10 whole).length :=
    (Nat.length_toDigits_le_iff (by decide) hlength).1 le_rfl
  have habove : 10 ^ ((Nat.toDigits 10 whole).length - 1) ≤ whole := by
    rcases Nat.eq_zero_or_pos ((Nat.toDigits 10 whole).length - 1) with hzero | hpos
    · rw [hzero]
      exact hone
    · refine not_lt.1 fun hlt => ?_
      have := (Nat.length_toDigits_le_iff (by decide) hpos).2 hlt
      omega
  generalize (Nat.toDigits 10 whole).length = length at *
  constructor
  · refine le_trans ?_ hle
    obtain ⟨k, rfl⟩ := Nat.exists_eq_succ_of_ne_zero hlength.ne'
    rw [Nat.succ_eq_add_one, Nat.cast_add_one, add_sub_cancel_right, zpow_natCast]
    exact_mod_cast habove
  · refine hlt.trans_le ?_
    rw [zpow_natCast]
    exact_mod_cast hbelow

/-- A number has its places: it lies between the powers of ten that they name. -/
theorem decimalPlaces_spec (hq : 0 < q) :
    (10 : ℚ) ^ (decimalPlaces q - 1) ≤ q ∧ q ≤ 10 ^ decimalPlaces q := by
  rw [decimalPlaces]
  split
  · next hone => exact ⟨(places_floor hone).1, (places_floor hone).2.le⟩
  · next hone =>
    have hinverse : 1 ≤ 1 / q := by
      rw [one_le_div hq]
      exact (not_le.1 hone).le
    obtain ⟨hlow, hhigh⟩ := places_floor hinverse
    generalize (((Nat.toDigits 10 (1 / q).floor.toNat).length : ℕ) : ℤ) = length at *
    have hsplit : (1 : ℤ) - length - 1 = -length := by ring
    rw [hsplit, zpow_neg, inv_eq_one_div, ← neg_sub length 1, zpow_neg, inv_eq_one_div]
    exact ⟨(one_div_lt hq (ten_zpow_pos _)).1 hhigh |>.le, (le_one_div (ten_zpow_pos _) hq).1 hlow⟩

/-! ## The points of a grid -/

/-- The unit of the grid of `n` significant digits around the magnitude of rank `r`. -/
def gridUnit (r n : ℕ) : ℚ := 10 ^ (decimalPlaces (magnitude r) - n)

/-- The point of the grid below the magnitude, as a number of units. -/
def gridBelow (r n : ℕ) : ℕ := (magnitude r / gridUnit r n).floor.toNat

/-- The upper point is taken only if it reads back, and whenever the lower one does not. -/
theorem gridPoint?_eq (half : HalfRule) (r n : ℕ) : ∃ takeUpper : Bool,
    (takeUpper = true → readsAs r ((gridBelow r n + 1 : ℕ) * gridUnit r n) = true) ∧
    (readsAs r (gridBelow r n * gridUnit r n) = false →
      takeUpper = readsAs r ((gridBelow r n + 1 : ℕ) * gridUnit r n)) ∧
    gridPoint? half r n =
      if takeUpper then
        if gridBelow r n + 1 = Nat.pow 10 n then some ⟨1, decimalPlaces (magnitude r) - n + n⟩
        else some ⟨gridBelow r n + 1, decimalPlaces (magnitude r) - n⟩
      else if readsAs r (gridBelow r n * gridUnit r n) then
        some ⟨gridBelow r n, decimalPlaces (magnitude r) - n⟩
      else none := by
  refine ⟨_, ?_, ?_, gridPoint?.eq_def half r n⟩
  · intro htake
    split at htake
    · exact htake
    · exact absurd htake Bool.false_ne_true
    · assumption
  · intro hlower
    split
    · rfl
    · next heq _ => exact absurd (hlower.symm.trans heq) Bool.false_ne_true
    · next heq _ => exact absurd (hlower.symm.trans heq) Bool.false_ne_true

theorem gridUnit_pos (r n : ℕ) : 0 < gridUnit r n := ten_zpow_pos _

/-- The magnitude has `n` places in units of the grid. -/
theorem gridUnit_spec (hr : 0 < r) (n : ℕ) :
    10 ^ n * gridUnit r n ≤ 10 * magnitude r ∧ magnitude r ≤ 10 ^ n * gridUnit r n := by
  obtain ⟨hlow, hhigh⟩ := decimalPlaces_spec (magnitude_pos hr)
  have hplaces : (10 : ℚ) ^ n * gridUnit r n = 10 ^ decimalPlaces (magnitude r) := by
    rw [gridUnit, ← zpow_natCast, ← zpow_add₀ (by norm_num)]
    congr 1
    omega
  rw [hplaces]
  refine ⟨?_, hhigh⟩
  rw [zpow_sub_one₀ (by norm_num)] at hlow
  linarith

theorem gridBelow_spec (r n : ℕ) : gridBelow r n * gridUnit r n ≤ magnitude r ∧
    magnitude r < (gridBelow r n + 1) * gridUnit r n := by
  have hunit := gridUnit_pos r n
  have hnonneg : 0 ≤ magnitude r / gridUnit r n := div_nonneg (magnitude_nonneg r) hunit.le
  have hfloor : ((gridBelow r n : ℕ) : ℚ) = (⌊magnitude r / gridUnit r n⌋ : ℤ) := by
    exact_mod_cast Int.toNat_of_nonneg (Int.floor_nonneg.2 hnonneg)
  rw [hfloor, ← le_div_iff₀ hunit, ← div_lt_iff₀ hunit]
  exact ⟨Int.floor_le _, Int.lt_floor_add_one _⟩

theorem gridBelow_pos (hr : 0 < r) (hn : 0 < n) : 0 < gridBelow r n := by
  have hunit := gridUnit_pos r n
  have hten : (10 : ℚ) ≤ 10 ^ n := le_self_pow₀ (by norm_num) hn.ne'
  have hone : gridUnit r n ≤ magnitude r := by
    linarith [(gridUnit_spec hr n).1, mul_le_mul_of_nonneg_right hten hunit.le]
  by_contra hzero
  have hlt := (gridBelow_spec r n).2
  rw [Nat.eq_zero_of_not_pos hzero, Nat.cast_zero, zero_add, one_mul] at hlt
  exact absurd hone (not_le.2 hlt)

theorem gridBelow_le (hr : 0 < r) (n : ℕ) : gridBelow r n ≤ 10 ^ n := by
  have hle := (gridBelow_spec r n).1.trans (gridUnit_spec hr n).2
  exact_mod_cast le_of_mul_le_mul_right hle (gridUnit_pos r n)

/-- What a grid gives reads back, with at most one unit more than its digits can count. -/
structure Represents (d : ScaledDecimal) (r n : ℕ) : Prop where
  nearest : Nearest r d.value
  pos : 0 < d.coefficient
  le : d.coefficient ≤ 10 ^ n + 1
  exponent_ge : decimalPlaces (magnitude r) - n ≤ d.exponent

theorem represents_of_gridPoint? (hr : 0 < r) (hn : 0 < n) (h : gridPoint? half r n = some d) :
    Represents d r n := by
  obtain ⟨takeUpper, hupper, -, heq⟩ := gridPoint?_eq half r n
  have hbelow := gridBelow_le hr n
  rw [h] at heq
  split at heq
  · next htake =>
    have hnearest := nearest_of_readsAs (hupper htake)
    split at heq
    · next hcarry =>
      -- all digits are nines: the point above is the next power of ten
      obtain rfl := Option.some.inj heq
      have hvalue : (10 : ℚ) ^ n * gridUnit r n = 10 ^ (decimalPlaces (magnitude r) - n + n) := by
        rw [gridUnit, ← zpow_natCast, ← zpow_add₀ (by norm_num), add_comm]
      refine ⟨?_, Nat.one_pos, Nat.le_add_left _ _, by dsimp only; omega⟩
      rw [hcarry, Nat.pow_eq, Nat.cast_pow, Nat.cast_ofNat, hvalue] at hnearest
      rwa [ScaledDecimal.value, Nat.cast_one, one_mul]
    · obtain rfl := Option.some.inj heq
      exact ⟨hnearest, Nat.succ_pos _, Nat.succ_le_succ hbelow, le_rfl⟩
  · split at heq
    · next hlower =>
      obtain rfl := Option.some.inj heq
      exact ⟨nearest_of_readsAs hlower, gridBelow_pos hr hn, hbelow.trans (Nat.le_succ _), le_rfl⟩
    · exact absurd heq.symm nofun

/-- Of seventeen digits a unit is less than that of the magnitude, and less than half of it where
the rank before is only half a unit away. -/
theorem gridUnit_seventeen (hr : 0 < r) : gridUnit r 17 < 2 ^ unitExponent r ∧
    (significand r = blockSize → 2 * gridUnit r 17 < 2 ^ unitExponent r) := by
  have hunit := two_zpow_pos (unitExponent r)
  have hgrid := (gridUnit_spec hr 17).1
  rw [magnitude_eq] at hgrid
  constructor
  · have hlt : (significand r : ℚ) ≤ 2 ^ 53 := by exact_mod_cast (significand_lt r).le
    linarith [mul_le_mul_of_nonneg_right hlt hunit.le]
  · intro hfirst
    have hlt : (significand r : ℚ) ≤ 2 ^ 52 := by exact_mod_cast hfirst.le
    linarith [mul_le_mul_of_nonneg_right hlt hunit.le]

/-- **Seventeen digits are enough** for a point next to the magnitude to read back. -/
theorem readsAs_seventeen (hr : 0 < r) :
    readsAs r (gridBelow r 17 * gridUnit r 17) = true ∨
      readsAs r ((gridBelow r 17 + 1 : ℕ) * gridUnit r 17) = true := by
  obtain ⟨hbelow, habove⟩ := gridBelow_spec r 17
  obtain ⟨hgrid, hfirst⟩ := gridUnit_seventeen hr
  have hunit := gridUnit_pos r 17
  have hsucc := magnitude_succ r
  have hpred := magnitude_pred_le r
  rw [Nat.cast_add_one]
  rcases magnitude_pred hr with hregular | hboundary
  · by_cases hhalf : 2 * (magnitude r - gridBelow r 17 * gridUnit r 17) ≤ gridUnit r 17
    · exact .inl (readsAs_of_lt (by linarith) (by linarith))
    · exact .inr (readsAs_of_lt (by linarith) (by linarith))
  · exact .inr (readsAs_of_lt (by linarith) (by linarith [hfirst hboundary]))

theorem exists_gridPoint?_seventeen (half : HalfRule) (hr : 0 < r) :
    ∃ d, gridPoint? half r 17 = some d := by
  obtain ⟨takeUpper, -, hlower, heq⟩ := gridPoint?_eq half r 17
  rw [heq]
  cases takeUpper with
  | true =>
    rw [if_pos rfl]
    split <;> exact ⟨_, rfl⟩
  | false =>
    rw [if_neg Bool.false_ne_true]
    split
    · exact ⟨_, rfl⟩
    · next hno =>
      have hupper := hlower (eq_false_of_ne_true hno)
      exact absurd (readsAs_seventeen hr) (not_or.2 ⟨hno, ne_true_of_eq_false hupper.symm⟩)

/-! ## The shortest decimal -/

theorem represents_shortest (half : HalfRule) (hr : 0 < r) :
    ∃ n ≤ 17, Represents (shortest half r) r n := by
  rw [shortest, if_neg hr.ne']
  obtain ⟨d, hd⟩ := exists_gridPoint?_seventeen half hr
  cases hfind : (List.range 17).findSome? fun n => gridPoint? half r (n + 1) with
  | none =>
    have hnone := List.findSome?_eq_none_iff.1 hfind 16 (List.mem_range.2 (by decide))
    exact absurd (hnone.symm.trans hd) nofun
  | some d =>
    obtain ⟨n, hn, hpoint⟩ := List.exists_of_findSome?_eq_some hfind
    exact ⟨n + 1, List.mem_range.1 hn, represents_of_gridPoint? hr n.succ_pos hpoint⟩

@[simp] theorem shortest_zero (half : HalfRule) : shortest half 0 = ⟨0, 0⟩ := rfl

/-- The shortest decimal lies between the midpoints around the magnitude. -/
theorem nearest_shortest (half : HalfRule) (r : ℕ) : Nearest r (shortest half r).value := by
  rcases Nat.eq_zero_or_pos r with rfl | hr
  · have hzero : (shortest half 0).value = magnitude 0 := by
      rw [shortest_zero, magnitude_zero, ScaledDecimal.value, Nat.cast_zero, zero_mul]
    exact hzero ▸ nearest_magnitude 0
  · obtain ⟨n, -, h⟩ := represents_shortest half hr
    exact h.nearest

theorem coefficient_pos (half : HalfRule) (hr : 0 < r) : 0 < (shortest half r).coefficient := by
  obtain ⟨n, -, h⟩ := represents_shortest half hr
  exact h.pos

theorem coefficient_le (half : HalfRule) (r : ℕ) :
    (shortest half r).coefficient ≤ 10 ^ 17 + 1 := by
  rcases Nat.eq_zero_or_pos r with rfl | hr
  · exact Nat.zero_le _
  · obtain ⟨n, hn, h⟩ := represents_shortest half hr
    exact h.le.trans (Nat.succ_le_succ (Nat.pow_le_pow_right (by decide) hn))

theorem ten_zpow_neg_le (m : ℕ) : (10 : ℚ) ^ (-(m : ℤ)) ≤ 2 ^ (-(m : ℤ)) := by
  rw [zpow_neg, zpow_neg, zpow_natCast, zpow_natCast]
  exact inv_anti₀ (by positivity) (pow_le_pow_left₀ (by norm_num) (by norm_num) m)

/-- Every magnitude is written with fewer places than fill a machine word. -/
theorem exponent_ge (half : HalfRule) (r : ℕ) : -1091 ≤ (shortest half r).exponent := by
  rcases Nat.eq_zero_or_pos r with rfl | hr
  · rw [shortest_zero]
    decide
  · obtain ⟨n, hn, h⟩ := represents_shortest half hr
    have hplaces : -1074 ≤ decimalPlaces (magnitude r) := by
      by_contra! hlt
      obtain ⟨m, hm⟩ := Int.exists_eq_neg_ofNat (a := decimalPlaces (magnitude r)) (by omega)
      have hplace := (decimalPlaces_spec (magnitude_pos hr)).2
      rw [hm] at hplace hlt
      have htwo : (2 : ℚ) ^ (-(m : ℤ)) < 2 ^ (-1074 : ℤ) := zpow_lt_zpow_right₀ one_lt_two hlt
      exact absurd (hplace.trans (ten_zpow_neg_le m)) (not_le.2 (htwo.trans_le (le_magnitude hr)))
    have hexponent := h.exponent_ge
    omega

end Binary64

end TreeRules
