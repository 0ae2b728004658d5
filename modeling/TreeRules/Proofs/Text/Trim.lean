import Mathlib.Data.List.Induction
import Mathlib.Data.List.TakeWhile
import TreeRules.Text.Blank

/-!
# Proofs/Text/Trim — a text is what is left of it between blanks

Trimming takes the blanks at both ends away, all of them and nothing else
(`exists_blank_append`), so blanks that are put around a text make no difference to what is left of
it (`trim_append_blank`).  What is left begins and ends with characters that are not blank, and such
a text is left as it is.
-/

namespace TreeRules.Text

variable {b b' s t : List Char} {c : Char}

/-! ## Blanks -/

theorem isBlankText_append : isBlankText (s ++ t) = (isBlankText s && isBlankText t) :=
  List.all_append

theorem isBlankText_cons : isBlankText (c :: s) = (isBlank c && isBlankText s) := List.all_cons

/-! ## Trailing blanks -/

/-- The last character goes if it is a blank, and then those before it. -/
theorem trimEnd_concat (s : List Char) (c : Char) :
    trimEnd (s ++ [c]) = if isBlank c then trimEnd s else s ++ [c] := by
  induction s with
  | nil => rfl
  | cons d s ih =>
    rw [List.cons_append, trimEnd, ih]
    cases hc : isBlank c with
    | true => rfl
    | false => cases s <;> rfl

/-- Blanks behind a text make no difference at its end. -/
theorem trimEnd_append_blank (s : List Char) (hb : isBlankText b = true) :
    trimEnd (s ++ b) = trimEnd s := by
  induction b using List.reverseRecOn with
  | nil => rw [List.append_nil]
  | append_singleton b c ih =>
    rw [isBlankText_append, isBlankText_cons, Bool.and_eq_true, Bool.and_eq_true] at hb
    rw [← List.append_assoc, trimEnd_concat, if_pos hb.2.1, ih hb.1]

theorem trimEnd_eq_self (h : ∀ c ∈ s.getLast?, isBlank c = false) : trimEnd s = s := by
  induction s using List.reverseRecOn with
  | nil => rfl
  | append_singleton s c _ =>
    rw [trimEnd_concat, if_neg]
    exact ne_true_of_eq_false (h c List.getLast?_concat)

/-- What is taken away at the end is blank. -/
theorem exists_trimEnd_append (s : List Char) : ∃ b, isBlankText b = true ∧ s = trimEnd s ++ b := by
  induction s using List.reverseRecOn with
  | nil => exact ⟨[], rfl, rfl⟩
  | append_singleton s c ih =>
    rw [trimEnd_concat]
    split
    · next hc =>
      obtain ⟨b, hb, hs⟩ := ih
      refine ⟨b ++ [c], ?_, ?_⟩
      · rw [isBlankText_append, hb, isBlankText_cons, hc]
        rfl
      · rw [← List.append_assoc, ← hs]
    · exact ⟨[], rfl, (List.append_nil _).symm⟩

/-! ## Blanks at both ends -/

/-- A text is what is left of it, between blanks. -/
theorem exists_blank_append (s : List Char) :
    ∃ b b', isBlankText b = true ∧ isBlankText b' = true ∧ s = b ++ trim s ++ b' := by
  obtain ⟨b', hb', hs⟩ := exists_trimEnd_append (trimStart s)
  refine ⟨s.takeWhile isBlank, b', List.all_takeWhile, hb', ?_⟩
  rw [List.append_assoc, trim, ← hs, trimStart, List.takeWhile_append_dropWhile]

/-- **Blanks around a text make no difference.** -/
theorem trim_append_blank (s : List Char) (hb : isBlankText b = true)
    (hb' : isBlankText b' = true) : trim (b ++ s ++ b') = trim s := by
  have hstart : trimStart (b ++ s ++ b') = trimStart (s ++ b') := by
    rw [List.append_assoc, trimStart, List.dropWhile_append_of_pos (List.all_eq_true.1 hb)]
    rfl
  rw [trim, trim, hstart, trimStart, List.dropWhile_append]
  split
  · next hnil =>
    -- nothing is left of `s` itself, nor of the blanks after it
    rw [trimStart, List.isEmpty_iff.1 hnil, List.dropWhile_eq_nil_iff.2 (List.all_eq_true.1 hb')]
  · exact trimEnd_append_blank _ hb'

theorem trim_append_right (s : List Char) (hb : isBlankText b = true) : trim (s ++ b) = trim s := by
  have hnil : isBlankText [] = true := rfl
  exact trim_append_blank s hnil hb

theorem trim_append_left (s : List Char) (hb : isBlankText b = true) : trim (b ++ s) = trim s := by
  have hnil : isBlankText [] = true := rfl
  rw [← List.append_nil (b ++ s), trim_append_blank s hb hnil]

/-- Trimming twice is trimming once. -/
theorem trim_trim (s : List Char) : trim (trim s) = trim s := by
  obtain ⟨b, b', hb, hb', hs⟩ := exists_blank_append s
  calc trim (trim s) = trim (b ++ trim s ++ b') := (trim_append_blank _ hb hb').symm
    _ = trim s := by rw [← hs]

theorem trim_trim_append (s : List Char) (hb : isBlankText b = true) :
    trim (trim s ++ b) = trim s :=
  (trim_append_right (trim s) hb).trans (trim_trim s)

theorem trim_append_trim (s : List Char) (hb : isBlankText b = true) :
    trim (b ++ trim s) = trim s :=
  (trim_append_left (trim s) hb).trans (trim_trim s)

/-- What is left stands somewhere in the text. -/
theorem trim_isInfix (s : List Char) : trim s <:+: s := by
  obtain ⟨b, b', -, -, hs⟩ := exists_blank_append s
  exact ⟨b, b', hs.symm⟩

/-! ## Trimmed texts -/

/-- A text that is trimmed neither begins nor ends with a blank. -/
theorem ends_of_trim_eq (h : trim s = s) :
    (∀ c ∈ s.head?, isBlank c = false) ∧ ∀ c ∈ s.getLast?, isBlank c = false := by
  -- with a blank at an end there would be less left
  have hlen (r : List Char) (hr : trim s = trim r) : s.length ≤ r.length := by
    rw [← h, hr]
    exact (trim_isInfix r).length_le
  constructor
  · intro c hc
    obtain ⟨r, rfl⟩ := List.head?_eq_some_iff.1 hc
    refine eq_false_of_ne_true fun hblank => ?_
    have hr : trim (c :: r) = trim r := by
      have hone : isBlankText [c] = true := by rw [isBlankText_cons, hblank]; rfl
      exact trim_append_left r hone
    exact absurd (hlen r hr) (Nat.not_succ_le_self r.length)
  · intro c hc
    obtain ⟨r, rfl⟩ := List.getLast?_eq_some_iff.1 hc
    refine eq_false_of_ne_true fun hblank => ?_
    have hr : trim (r ++ [c]) = trim r := by
      have hone : isBlankText [c] = true := by rw [isBlankText_cons, hblank]; rfl
      exact trim_append_right r hone
    have := hlen r hr
    rw [List.length_append, List.length_singleton] at this
    exact absurd this (Nat.not_succ_le_self r.length)

/-- What is left neither begins nor ends with a blank. -/
theorem ends_trim (s : List Char) : (∀ c ∈ (trim s).head?, isBlank c = false) ∧
    ∀ c ∈ (trim s).getLast?, isBlank c = false :=
  ends_of_trim_eq (trim_trim s)

/-- A text that neither begins nor ends with a blank is trimmed. -/
theorem trim_eq_self (hhead : ∀ c ∈ s.head?, isBlank c = false)
    (hlast : ∀ c ∈ s.getLast?, isBlank c = false) : trim s = s := by
  have hstart : trimStart s = s := by
    cases s with
    | nil => rfl
    | cons c s =>
      exact List.dropWhile_cons_of_neg (ne_true_of_eq_false (hhead c rfl))
  rw [trim, hstart, trimEnd_eq_self hlast]

end TreeRules.Text
