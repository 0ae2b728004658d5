import TreeRules.Json.Printer
import TreeRules.Json.Reader
import TreeRules.Proofs.Number.Positional
import TreeRules.Proofs.Text.Stops

/-!
# Proofs/Json/Number — numbers in front of other text

A number is read as far as it goes, so what stands behind it is left alone if it does not go on with
the number (`readNumber?_append`).  Whole numbers that fit are written with their digits and read as
themselves (`exists_readNumber?_int`): the first digit is a zero only for zero, and digits that fit
are all gathered.
-/

namespace TreeRules.Json

open Literal (Digits natOfDigits)
open Text (Stops stops_nil stops_cons)

variable {s r rest ds : List Char}

/-! ## What stands behind -/

/-- The characters that can go on with a number, a sign apart. -/
def continuesNumber (c : Char) : Bool := c.isDigit || c == '.' || c == 'e' || c == 'E'

theorem stops_isDigit (h : Stops continuesNumber rest) : Stops Char.isDigit rest :=
  h.mono fun c hc => by rw [continuesNumber, hc]; rfl

/-- Digits are read as far as they go, and there has to be one. -/
theorem readDigits1?_eq_some_iff : readDigits1? s = some (ds, r) ↔
    s = ds ++ r ∧ ds ≠ [] ∧ Digits ds ∧ Stops Char.isDigit r := by
  have hread : readDigits1? s = if s.takeWhile Char.isDigit = [] then none
      else some (s.takeWhile Char.isDigit, s.dropWhile Char.isDigit) := by
    rw [readDigits1?, readDigits]
    cases s.takeWhile Char.isDigit with
    | nil => rfl
    | cons c w => rfl
  rw [hread]
  constructor
  · intro h
    split at h
    · exact absurd h nofun
    · next hne =>
      obtain ⟨rfl, rfl⟩ := Prod.mk.inj (Option.some.inj h)
      exact ⟨List.takeWhile_append_dropWhile.symm, hne, Literal.digits_takeWhile s,
        Text.stops_dropWhile Char.isDigit s⟩
  · rintro ⟨rfl, hne, hdigits, hstop⟩
    rw [Text.takeWhile_append hdigits hstop, Text.dropWhile_append hdigits hstop, if_neg hne]

theorem readDigits1?_append (h : readDigits1? s = some (ds, r))
    (hrest : Stops continuesNumber rest) : readDigits1? (s ++ rest) = some (ds, r ++ rest) := by
  obtain ⟨rfl, hne, hdigits, hstop⟩ := readDigits1?_eq_some_iff.1 h
  exact readDigits1?_eq_some_iff.2
    ⟨List.append_assoc .., hne, hdigits, hstop.append (stops_isDigit hrest)⟩

/-- Behind a leading zero there must not be a further digit. -/
theorem readWhole?_zero (s : List Char) : readWhole? ('0' :: s) =
    if (s.head?.map Char.isDigit).getD false then none else some (['0'], s) := rfl

/-- A whole part that does not begin with a zero is a run of digits. -/
theorem readWhole?_of_ne {c : Char} (hc : c ≠ '0') (s : List Char) :
    readWhole? (c :: s) = readDigits1? (c :: s) := by
  rw [readWhole?]
  exact fun _ h => hc (List.cons.inj h).1

/-- A whole part ends where the next character goes on with no number. -/
theorem readWhole?_append (h : readWhole? s = some (ds, r)) (hrest : Stops continuesNumber rest) :
    readWhole? (s ++ rest) = some (ds, r ++ rest) := by
  cases s with
  | nil => exact absurd h nofun
  | cons c s =>
    by_cases hc : c = '0'
    · subst hc
      rw [readWhole?_zero] at h
      rw [List.cons_append, readWhole?_zero]
      cases s with
      | nil =>
        obtain ⟨rfl, rfl⟩ := Prod.mk.inj (Option.some.inj h)
        have hnone : ((rest.head?).map Char.isDigit).getD false = false := by
          cases rest with
          | nil => rfl
          | cons d _ => exact stops_isDigit hrest d rfl
        rw [List.nil_append, hnone]
        rfl
      | cons d s =>
        rw [List.cons_append, List.head?_cons] at *
        split at h
        · exact absurd h nofun
        · next hd =>
          obtain ⟨rfl, rfl⟩ := Prod.mk.inj (Option.some.inj h)
          exact if_neg hd
    · rw [readWhole?_of_ne hc] at h
      rw [List.cons_append, readWhole?_of_ne hc]
      exact readDigits1?_append h hrest

theorem readFraction?_of_ne {c : Char} (hc : c ≠ '.') (s : List Char) :
    readFraction? (c :: s) = some (none, c :: s) := by
  rw [readFraction?]
  exact fun _ h => hc (List.cons.inj h).1

/-- So does a fraction, and where there is none, none comes up. -/
theorem readFraction?_append {x : Option (List Char)} (h : readFraction? s = some (x, r))
    (hrest : Stops continuesNumber rest) :
    readFraction? (s ++ rest) = some (x, r ++ rest) := by
  cases s with
  | nil =>
    obtain ⟨rfl, rfl⟩ := Prod.mk.inj (Option.some.inj h)
    cases rest with
    | nil => rfl
    | cons c rest =>
      refine readFraction?_of_ne ?_ rest
      rintro rfl
      exact absurd (hrest '.' rfl) (by decide)
  | cons c s =>
    by_cases hc : c = '.'
    · subst hc
      rw [readFraction?] at h
      obtain ⟨⟨digits, r'⟩, hdigits, heq⟩ := Option.map_eq_some_iff.1 h
      obtain ⟨rfl, rfl⟩ := Prod.mk.inj heq
      rw [List.cons_append, readFraction?, readDigits1?_append hdigits hrest]
      rfl
    · rw [readFraction?_of_ne hc] at h
      obtain ⟨rfl, rfl⟩ := Prod.mk.inj (Option.some.inj h)
      exact readFraction?_of_ne hc (s ++ rest)

theorem readSign_append (hs : s ≠ []) (rest : List Char) :
    readSign (s ++ rest) = ((readSign s).1, (readSign s).2 ++ rest) := by
  cases s with
  | nil => exact absurd rfl hs
  | cons c s =>
    by_cases hminus : c = '-'
    · rw [hminus]; rfl
    · by_cases hplus : c = '+'
      · rw [hplus]; rfl
      · have hnone (t : List Char) : readSign (c :: t) = (false, c :: t) := by
          rw [readSign]
          · exact fun _ h => hminus (List.cons.inj h).1
          · exact fun _ h => hplus (List.cons.inj h).1
        rw [List.cons_append, hnone, hnone, List.cons_append]

theorem readMinus_of_ne {c : Char} (hc : c ≠ '-') (s : List Char) :
    readMinus (c :: s) = (false, c :: s) := by
  rw [readMinus]
  exact fun _ h => hc (List.cons.inj h).1

theorem readMinus_append (hs : s ≠ []) (rest : List Char) :
    readMinus (s ++ rest) = ((readMinus s).1, (readMinus s).2 ++ rest) := by
  cases s with
  | nil => exact absurd rfl hs
  | cons c s =>
    by_cases hminus : c = '-'
    · rw [hminus]; rfl
    · rw [List.cons_append, readMinus_of_ne hminus, readMinus_of_ne hminus, List.cons_append]

/-- So does an exponent. -/
theorem readExponent?_append {x : Option (Bool × List Char)} (h : readExponent? s = some (x, r))
    (hrest : Stops continuesNumber rest) :
    readExponent? (s ++ rest) = some (x, r ++ rest) := by
  cases s with
  | nil =>
    obtain ⟨rfl, rfl⟩ := Prod.mk.inj (Option.some.inj h)
    cases rest with
    | nil => rfl
    | cons c rest =>
      refine if_neg fun hletter => ?_
      have hc := hrest c rfl
      rw [continuesNumber, Bool.or_assoc, hletter, Bool.or_true] at hc
      exact absurd hc nofun
  | cons c s =>
    rw [readExponent?] at h
    rw [List.cons_append, readExponent?]
    split at h
    · next hc =>
      obtain ⟨⟨digits, r'⟩, hdigits, heq⟩ := Option.map_eq_some_iff.1 h
      obtain ⟨rfl, rfl⟩ := Prod.mk.inj heq
      have hs : s ≠ [] := by
        rintro rfl
        exact absurd hdigits nofun
      rw [if_pos hc, readSign_append hs, readDigits1?_append hdigits hrest]
      rfl
    · next hc =>
      obtain ⟨rfl, rfl⟩ := Prod.mk.inj (Option.some.inj h)
      exact if_neg hc

/-- The four parts of a number, each read from what the one before it left. -/
theorem readNumber?_eq_some_iff {t : NumberText} : readNumber? s = some (t, r) ↔
    ∃ r₁ r₂, readWhole? (readMinus s).2 = some (t.whole, r₁) ∧
      readFraction? r₁ = some (t.fraction, r₂) ∧ readExponent? r₂ = some (t.exponent, r) ∧
      t.negative = (readMinus s).1 := by
  rw [readNumber?]
  constructor
  · intro h
    obtain ⟨⟨whole, r₁⟩, h₁, h⟩ := Option.bind_eq_some_iff.1 h
    obtain ⟨⟨fraction, r₂⟩, h₂, h⟩ := Option.bind_eq_some_iff.1 h
    obtain ⟨⟨exponent, r₃⟩, h₃, h⟩ := Option.bind_eq_some_iff.1 h
    obtain ⟨rfl, rfl⟩ := Prod.mk.inj (Option.some.inj h)
    exact ⟨r₁, r₂, h₁, h₂, h₃, rfl⟩
  · rintro ⟨r₁, r₂, h₁, h₂, h₃, hnegative⟩
    refine Option.bind_eq_some_iff.2 ⟨(t.whole, r₁), h₁, Option.bind_eq_some_iff.2
      ⟨(t.fraction, r₂), h₂, Option.bind_eq_some_iff.2 ⟨(t.exponent, r), h₃, ?_⟩⟩⟩
    rw [← hnegative]
    rfl

/-- There is no number that starts with anything but a minus or a digit. -/
theorem exists_front {t : NumberText} (h : readNumber? s = some (t, r)) :
    ∃ c u, s = c :: u ∧ (c = '-' ∨ c.isDigit = true) := by
  obtain ⟨r₁, -, h, -⟩ := readNumber?_eq_some_iff.1 h
  cases s with
  | nil => exact absurd h nofun
  | cons c u =>
    refine ⟨c, u, rfl, ?_⟩
    by_cases hminus : c = '-'
    · exact .inl hminus
    · by_cases hzero : c = '0'
      · exact .inr (hzero ▸ rfl)
      · rw [readMinus_of_ne hminus, readWhole?_of_ne hzero] at h
        obtain ⟨heq, hne, hdigits, -⟩ := readDigits1?_eq_some_iff.1 h
        obtain ⟨d, w, hw⟩ := List.exists_cons_of_ne_nil hne
        rw [hw] at heq hdigits
        obtain rfl := (List.cons.inj heq).1
        exact .inr (hdigits c List.mem_cons_self)

/-- **What stands behind a number is left alone**, unless it goes on with it. -/
theorem readNumber?_append {t : NumberText} (h : readNumber? s = some (t, r))
    (hrest : Stops continuesNumber rest) : readNumber? (s ++ rest) = some (t, r ++ rest) := by
  obtain ⟨c, u, rfl, -⟩ := exists_front h
  obtain ⟨r₁, r₂, hwhole, hfraction, hexponent, hnegative⟩ := readNumber?_eq_some_iff.1 h
  have hminus := readMinus_append (List.cons_ne_nil c u) rest
  refine readNumber?_eq_some_iff.2 ⟨r₁ ++ rest, r₂ ++ rest, ?_, readFraction?_append hfraction hrest,
    readExponent?_append hexponent hrest, ?_⟩
  · rw [hminus]
    exact readWhole?_append hwhole hrest
  · rw [hminus]
    exact hnegative

/-! ## Whole numbers -/

theorem readMinus_digits (h : Digits s) : readMinus s = (false, s) := by
  rw [readMinus]
  rintro u rfl
  exact absurd (h '-' List.mem_cons_self) (by decide)

/-- No other number starts with a zero. -/
theorem exists_toDigits_cons {n : Nat} (hn : n ≠ 0) :
    ∃ c u, Nat.toDigits 10 n = c :: u ∧ c ≠ '0' := by
  induction n using Nat.strongRecOn with
  | ind n ih =>
    by_cases hlt : n < 10
    · refine ⟨_, _, Nat.toDigits_of_lt_base hlt, ?_⟩
      have hdigit : ∀ k < 10, k ≠ 0 → Nat.digitChar k ≠ '0' := by decide
      exact hdigit n hlt hn
    · obtain ⟨c, u, hdigits, hc⟩ := ih (n / 10) (by omega) (by omega)
      refine ⟨c, u ++ [Nat.digitChar (n % 10)], ?_, hc⟩
      rw [Nat.toDigits_of_base_le (by decide) (by omega), hdigits, List.cons_append]

/-- The digits of a number are read to their end: only zero begins with one. -/
theorem readWhole?_toDigits (n : Nat) :
    readWhole? (Nat.toDigits 10 n) = some (Nat.toDigits 10 n, []) := by
  by_cases hn : n = 0
  · subst hn
    rfl
  · obtain ⟨c, u, hdigits, hc⟩ := exists_toDigits_cons hn
    rw [hdigits, readWhole?_of_ne hc, ← hdigits]
    exact readDigits1?_eq_some_iff.2
      ⟨(List.append_nil _).symm, Nat.toDigits_ne_nil, Literal.digits_toDigits n, stops_nil _⟩

/-- Digits that fit are all gathered. -/
theorem gather_of_lt {n : Nat} (h : Nat.ofDigitChars 10 s n < 2 ^ 64) :
    NumberText.gather n s = (Nat.ofDigitChars 10 s n, []) := by
  induction s generalizing n with
  | nil => rfl
  | cons c s ih =>
    rw [Nat.ofDigitChars_cons, mul_comm] at h
    have hle : n * 10 + (c.toNat - '0'.toNat) ≤
        Nat.ofDigitChars 10 s (n * 10 + (c.toNat - '0'.toNat)) := by
      rw [Nat.ofDigitChars_eq_ofDigitChars_zero]
      exact le_add_right (Nat.le_mul_of_pos_left _ (by positivity))
    rw [Nat.ofDigitChars_cons, mul_comm 10 n]
    exact (if_pos (hle.trans_lt h)).trans (ih h)

/-- A whole number is kept as it is if it fits; a negative zero does not. -/
theorem value?_toDigits (negative : Bool) {n : Nat} (h : n < 2 ^ 64) :
    NumberText.value? ⟨negative, Nat.toDigits 10 n, none, none⟩ =
      if !negative then some (.int n)
      else if 0 < n && n ≤ Binary64.signBit then some (.int (-(n : Int)))
      else some (.float (Binary64.ofNat n).neg) := by
  have hgather : NumberText.gather 0 (Nat.toDigits 10 n) = (n, []) := by
    have hvalue : Nat.ofDigitChars 10 (Nat.toDigits 10 n) 0 = n := Nat.ofDigitChars_ten_toDigits
    rw [gather_of_lt (by rwa [hvalue]), hvalue]
  rw [NumberText.value?, hgather]
  rfl

theorem readNumber?_whole {negative : Bool} {n : Nat}
    (h : readMinus s = (negative, Nat.toDigits 10 n)) :
    readNumber? s = some (⟨negative, Nat.toDigits 10 n, none, none⟩, []) := by
  refine readNumber?_eq_some_iff.2 ⟨[], [], ?_, rfl, rfl, ?_⟩
  · rw [h]
    exact readWhole?_toDigits n
  · rw [h]

/-- **A whole number that fits reads as itself.** -/
theorem exists_readNumber?_int {n : Int} (low : -2 ^ 63 ≤ n) (high : n < 2 ^ 64) :
    ∃ t, readNumber? (toString n).toList = some (t, []) ∧ t.value? = some (.int n) := by
  rw [Int.toString_eq_repr, Int.repr_eq_if]
  split
  · next hn =>
    have hminus : readMinus n.toNat.repr.toList = (false, Nat.toDigits 10 n.toNat) := by
      rw [Nat.toList_repr]
      exact readMinus_digits (Literal.digits_toDigits n.toNat)
    refine ⟨_, readNumber?_whole hminus, ?_⟩
    rw [value?_toDigits false (by omega), Int.toNat_of_nonneg hn]
    rfl
  · next hn =>
    have hminus : readMinus ("-" ++ (-n).toNat.repr).toList =
        (true, Nat.toDigits 10 (-n).toNat) := by
      rw [String.toList_append, Nat.toList_repr]
      rfl
    have hfits : (0 < (-n).toNat && (-n).toNat ≤ Binary64.signBit) = true := by
      rw [Bool.and_eq_true, decide_eq_true_eq, decide_eq_true_eq, Binary64.signBit]
      omega
    refine ⟨_, readNumber?_whole hminus, ?_⟩
    rw [value?_toDigits true (by omega), hfits, Int.toNat_of_nonneg (by omega), neg_neg]
    rfl

end TreeRules.Json
