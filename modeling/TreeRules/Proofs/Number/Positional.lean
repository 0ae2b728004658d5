import TreeRules.Number.Multiple
import TreeRules.Proofs.Number.Literal
import TreeRules.Proofs.Number.Shortest

/-!
# Proofs/Number/Positional — the decimal that a number is written as

A numeral is a minus or none, digits, and a point with more digits or none,

    numeral  :=  '-'? digit+ ('.' digit+)?

and denotes a decimal in the usual way (`Numeral.value`).  A text is at most one numeral
(`Numeral.eq_of_text_eq`), and a numeral is read as its mantissa and the count of its places,
although the sign and the zeros in front get glued to the digits behind the point
(`Decimal.ofText?_text`). Every finite number is written as a numeral, which denotes the shortest
decimal of the number, with its sign (`Binary64.exists_writes`, `Numeral.Writes.value`).
-/

namespace TreeRules

namespace Literal

/-! ## Digits -/

theorem Digits.append {s t : List Char} (hs : Digits s) (ht : Digits t) : Digits (s ++ t) :=
  fun c hc => (List.mem_append.1 hc).elim (hs c) (ht c)

theorem digits_zeros (n : ℕ) : Digits (List.replicate n '0') := fun _ hc =>
  List.eq_of_mem_replicate hc ▸ rfl

theorem digits_toDigits (n : ℕ) : Digits (Nat.toDigits 10 n) := fun _ hc =>
  Nat.isDigit_of_mem_toDigits (by decide) le_rfl hc

theorem natOfDigits_eq (s : List Char) : natOfDigits s = Nat.ofDigitChars 10 s 0 := by
  rw [Nat.ofDigitChars_eq_foldl, natOfDigits]
  simp only [mul_comm]

/-- Digits behind others move these up by as many places. -/
theorem natOfDigits_append (s t : List Char) :
    natOfDigits (s ++ t) = natOfDigits s * 10 ^ t.length + natOfDigits t := by
  rw [natOfDigits_eq, natOfDigits_eq, natOfDigits_eq, Nat.ofDigitChars_append,
    Nat.ofDigitChars_eq_ofDigitChars_zero, mul_comm]

theorem natOfDigits_toDigits (n : ℕ) : natOfDigits (Nat.toDigits 10 n) = n := by
  rw [natOfDigits_eq, Nat.ofDigitChars_ten_toDigits]

theorem natOfDigits_zeros (n : ℕ) : natOfDigits (List.replicate n '0') = 0 := by
  rw [natOfDigits_eq, Nat.ofDigitChars_replicate_zero, mul_zero]

end Literal

/-! ## Numerals -/

/-- A decimal written without an exponent. -/
structure Numeral where
  negative : Bool
  /-- The digits in front of the point. -/
  whole : List Char
  /-- The digits behind the point; without any there is no point. -/
  fraction : List Char
  whole_ne_nil : whole ≠ []
  isDigit_whole : whole.all Char.isDigit = true
  isDigit_fraction : fraction.all Char.isDigit = true

namespace Numeral

variable {p q : Numeral}

/-- The minus, if there is one. -/
def sign (p : Numeral) : List Char := if p.negative then ['-'] else []

/-- How the numeral is written. -/
def text (p : Numeral) : List Char :=
  p.sign ++ p.whole ++ (if p.fraction = [] then [] else '.' :: p.fraction)

/-- How many digits stand behind the point. -/
def places (p : Numeral) : ℕ := p.fraction.length

/-- The numeral counted in units of its last place. -/
def mantissa (p : Numeral) : ℤ :=
  let units : ℤ := Literal.natOfDigits p.whole * 10 ^ p.places + Literal.natOfDigits p.fraction
  if p.negative then -units else units

/-- The number that the numeral denotes. -/
def value (p : Numeral) : ℚ := p.mantissa / 10 ^ p.places

theorem digits_whole (p : Numeral) : Literal.Digits p.whole := List.all_eq_true.1 p.isDigit_whole

theorem digits_fraction (p : Numeral) : Literal.Digits p.fraction :=
  List.all_eq_true.1 p.isDigit_fraction

theorem signText_sign (p : Numeral) : Literal.SignText p.sign p.negative := by
  rw [sign]
  cases p.negative with
  | false => exact .none
  | true => exact .minus

/-! ### What a text denotes is determined -/

theorem decimalText (p : Numeral) :
    Literal.DecimalText p.text ⟨p.negative, p.whole, p.fraction, 0⟩ := by
  have hcoefficient : Literal.CoefficientText
      (p.whole ++ if p.fraction = [] then [] else '.' :: p.fraction) p.whole p.fraction := by
    split
    · next hnone =>
      rw [hnone, List.append_nil]
      exact .whole p.digits_whole p.whole_ne_nil
    · exact .point p.digits_whole p.digits_fraction (.inl p.whole_ne_nil)
  have htext := Literal.DecimalText.parts p.signText_sign hcoefficient .none
  rwa [List.append_nil, ← List.append_assoc] at htext

/-- A text is at most one numeral. -/
theorem eq_of_text_eq (h : p.text = q.text) : p = q := by
  have hparts := h ▸ p.decimalText.parts?
  obtain ⟨hnegative, hwhole, hfraction, -⟩ :=
    Literal.Parts.mk.inj (Option.some.inj (hparts.symm.trans q.decimalText.parts?))
  cases p
  cases q
  congr

/-! ### Reading a numeral -/

/-- The point is the first one, so the text is cut there. -/
theorem cut_text (p : Numeral) : p.text.takeWhile (· != '.') = p.sign ++ p.whole ∧
    (p.text.dropWhile (· != '.')).drop 1 = p.fraction := by
  have hfront : ∀ c ∈ p.sign ++ p.whole, (c != '.') = true := by
    intro c hc
    rw [bne_iff_ne]
    rintro rfl
    rcases List.mem_append.1 hc with hsign | hwhole
    · rw [sign] at hsign
      split at hsign
      · exact absurd (List.mem_singleton.1 hsign) (by decide)
      · exact List.not_mem_nil hsign
    · exact absurd (p.digits_whole _ hwhole) (by decide)
  rw [text, List.takeWhile_append_of_pos hfront, List.dropWhile_append_of_pos hfront]
  split
  · next hnone => exact ⟨List.append_nil _, hnone.symm⟩
  · exact ⟨List.append_nil _, rfl⟩

/-- Without the point the digits count the units of the last place. -/
theorem exponent?_digits (p : Numeral) :
    Literal.exponent? (p.sign ++ p.whole ++ p.fraction) = some p.mantissa := by
  have hdigits := p.digits_whole.append p.digits_fraction
  have hne : p.whole ++ p.fraction ≠ [] := List.append_ne_nil_of_left_ne_nil p.whole_ne_nil _
  have htext := Literal.ExponentText.letter (.inl rfl) p.signText_sign hdigits hne
  rw [List.append_assoc, htext.exponent?.2, mantissa, places, Literal.natOfDigits_append]
  push_cast
  rfl

end Numeral

/-- The decimal of a numeral, as the machine holds it. -/
def Decimal.ofNumeral (p : Numeral) : Decimal := ⟨p.mantissa, UInt32.ofNat p.places⟩

/-- **A numeral is read as what it denotes** if it fits. -/
theorem Decimal.ofText?_text (p : Numeral) :
    Decimal.ofText? p.text = if fitsInt128 p.mantissa then some (ofNumeral p) else none := by
  rw [ofText?, p.cut_text.1, p.cut_text.2, p.exponent?_digits, Option.filter_some]
  split <;> rfl

theorem Decimal.eq_ofNumeral {p : Numeral} {d : Decimal} (h : Decimal.ofText? p.text = some d) :
    d = ofNumeral p := by
  rw [ofText?_text] at h
  split at h
  · exact (Option.some.inj h).symm
  · exact absurd h nofun

/-! ## Writing a number -/

/-- A decimal is written with the digits of its coefficient, moved up or behind the point. -/
theorem ScaledDecimal.exists_positional (d : ScaledDecimal) : ∃ whole fraction : List Char,
    d.positional = whole ++ (if fraction = [] then [] else '.' :: fraction) ∧ whole ≠ [] ∧
    Literal.Digits (whole ++ fraction) ∧ fraction.length = (-d.exponent).toNat ∧
    Literal.natOfDigits (whole ++ fraction) = d.coefficient * 10 ^ d.exponent.toNat := by
  have hdigits := Literal.digits_toDigits d.coefficient
  rw [positional]
  split
  · next hsign =>
    refine ⟨_, [], by rw [if_pos rfl, List.append_nil],
      List.append_ne_nil_of_left_ne_nil Nat.toDigits_ne_nil _, ?_, ?_, ?_⟩
    · rw [List.append_nil]
      exact hdigits.append (Literal.digits_zeros _)
    · rw [List.length_nil]
      omega
    · rw [List.append_nil, Literal.natOfDigits_append, Literal.natOfDigits_toDigits,
        Literal.natOfDigits_zeros, List.length_replicate, add_zero]
  · next hsign =>
    dsimp only
    have hplaces : 0 < (-d.exponent).toNat := by omega
    have hexponent : d.exponent.toNat = 0 := by omega
    generalize (-d.exponent).toNat = places at *
    set padded := (Nat.toDigits 10 d.coefficient).leftpad (places + 1) '0' with hpadded
    have hlength : places + 1 ≤ padded.length := by
      rw [hpadded, List.length_leftpad]
      exact le_max_left _ _
    have hfraction : (padded.drop (padded.length - places)).length = places := by
      rw [List.length_drop]
      omega
    have hwhole : (padded.take (padded.length - places)).length = padded.length - places := by
      rw [List.length_take]
      omega
    refine ⟨_, _, by rw [if_neg (List.ne_nil_of_length_pos (by omega))],
      List.ne_nil_of_length_pos (by omega), ?_, hfraction, ?_⟩
    · rw [List.take_append_drop, hpadded, List.leftpad]
      exact (Literal.digits_zeros _).append hdigits
    · rw [List.take_append_drop, hpadded, List.leftpad, Literal.natOfDigits_append,
        Literal.natOfDigits_zeros, Literal.natOfDigits_toDigits, zero_mul, zero_add, hexponent,
        pow_zero, mul_one]

/-- The numeral has the sign and the decimal of a number. -/
structure Numeral.Writes (p : Numeral) (negative : Bool) (d : ScaledDecimal) : Prop where
  negative : p.negative = negative
  places : p.places = (-d.exponent).toNat
  /-- Without the point its digits are the coefficient, with zeros for the places in front. -/
  units : Literal.natOfDigits (p.whole ++ p.fraction) = d.coefficient * 10 ^ d.exponent.toNat

namespace Numeral.Writes

variable {p : Numeral} {negative : Bool} {d : ScaledDecimal}

theorem mantissa (h : p.Writes negative d) : p.mantissa =
    if negative then -((d.coefficient * 10 ^ d.exponent.toNat : ℕ) : ℤ)
    else (d.coefficient * 10 ^ d.exponent.toNat : ℕ) := by
  have hunits := h.units
  rw [Literal.natOfDigits_append] at hunits
  rw [Numeral.mantissa, ← hunits, h.negative, Numeral.places]
  push_cast
  rfl

theorem value (h : p.Writes negative d) :
    p.value = if negative then -d.value else d.value := by
  have hten : (10 : ℚ) ^ d.exponent = 10 ^ d.exponent.toNat / 10 ^ (-d.exponent).toNat := by
    rw [← zpow_natCast, ← zpow_natCast, ← zpow_sub₀ (by norm_num)]
    congr 1
    omega
  rw [Numeral.value, h.mantissa, h.places, ScaledDecimal.value, hten]
  split
  · push_cast
    ring
  · push_cast
    ring

end Numeral.Writes

namespace Binary64

variable {p : Numeral} {negative : Bool} {r : Fin infinityRank}

/-- **Every finite number is written as a numeral**, which denotes its shortest decimal. -/
theorem exists_writes (negative : Bool) (r : Fin infinityRank) :
    ∃ p : Numeral, p.text = text (.finite negative r) ∧ p.Writes negative (shortest .up r) := by
  obtain ⟨whole, fraction, htext, hne, hdigits, hplaces, hunits⟩ :=
    (shortest .up r).exists_positional
  refine ⟨⟨negative, whole, fraction, hne, ?_, ?_⟩, ?_, ⟨rfl, hplaces, hunits⟩⟩
  · exact List.all_eq_true.2 fun c hc => hdigits c (List.mem_append_left _ hc)
  · exact List.all_eq_true.2 fun c hc => hdigits c (List.mem_append_right _ hc)
  · rw [text, htext, Numeral.text, Numeral.sign]
    cases negative with
    | false => exact List.append_assoc ..
    | true => exact List.append_assoc ..

/-- A numeral that is a number's text writes it. -/
theorem writes_of_text (h : p.text = text (.finite negative r)) :
    p.Writes negative (shortest .up r) := by
  obtain ⟨q, hq, hwrites⟩ := exists_writes negative r
  rwa [Numeral.eq_of_text_eq (h.trans hq.symm)]

theorem exists_rank {x : Binary64} (hx : x.isFinite = true) :
    ∃ negative r, x = .finite negative r := by
  cases x with
  | finite negative r => exact ⟨negative, r, rfl⟩
  | nan => exact absurd hx Bool.false_ne_true
  | infinite negative => exact absurd hx Bool.false_ne_true

theorem exists_numeral {x : Binary64} (hx : x.isFinite = true) :
    ∃ p : Numeral, p.text = x.text := by
  obtain ⟨negative, r, rfl⟩ := exists_rank hx
  obtain ⟨p, hp, -⟩ := exists_writes negative r
  exact ⟨p, hp⟩

end Binary64

end TreeRules
