import TreeRules.Proofs.Check.NumberText
import TreeRules.Proofs.Pattern.Bounded

/-!
# Proofs/Check/Scientific — a number is scientific if there is the letter of an exponent in it

Whether a number has an exponent is not asked of its reader.  A pattern of its own is searched for,

    scientific := sign mantissa ('e' | 'E') sign digit+
    sign       := '+' | '-' |
    mantissa   := digit+ '.'? digit* | '.' digit+

in which digits are those of every script, while the numbers that are read have ASCII digits only.
The pattern finds just these texts (`isScientific_iff`).  Each begins without the mark of a radix
(`ScientificText.not_prefixed`), and every decimal literal with a letter in it is one of them
(`scientificText_of_decimalText`), so on numbers the pattern answers by the letter alone
(`kindNoScientific_mem_check_iff`).
-/

namespace TreeRules.Check.Number

open Literal (Digits SignText CoefficientText ExponentText DecimalText)
open TreeRules.Pattern (CharSet Expr)

variable {s t u v w : List Char} {b a : Option Char} {c : Char}

/-! ## Digits of every script -/

/-- Any number of decimal digits, of any script. -/
def DigitsOfAnyScript (s : List Char) : Prop := ∀ c ∈ s, Text.Property.isDecimalDigit c = true

theorem isDecimalDigit_of_isDigit (h : c.isDigit = true) :
    Text.Property.isDecimalDigit c = true := by
  rw [Char.isDigit, Bool.and_eq_true, decide_eq_true_eq, decide_eq_true_eq] at h
  have hge : 48 ≤ c.toNat := UInt32.le_iff_toNat_le.1 h.1
  have hle : c.toNat ≤ 57 := UInt32.le_iff_toNat_le.1 h.2
  have hall : ∀ n ∈ List.range' 48 10,
      Text.Property.isDecimalDigit (Char.ofNat n) = true := by decide +kernel
  rw [← Char.ofNat_toNat c]
  exact hall _ (List.mem_range'_1.2 ⟨hge, by omega⟩)

theorem digitsOfAnyScript_of_digits (h : Digits s) : DigitsOfAnyScript s :=
  fun c hc => isDecimalDigit_of_isDigit (h c hc)

/-- No capital letter is a digit, so digits stay what they are in lower case. -/
theorem toLower_of_isDecimalDigit (h : Text.Property.isDecimalDigit c = true) :
    c.toLower = c := by
  refine dif_neg ?_
  rintro ⟨hge, hle⟩
  have hge : 65 ≤ c.toNat := UInt32.le_iff_toNat_le.1 hge
  have hle : c.toNat ≤ 90 := UInt32.le_iff_toNat_le.1 hle
  have hall : ∀ n ∈ List.range' 65 26,
      Text.Property.isDecimalDigit (Char.ofNat n) = false := by decide +kernel
  have hno := hall _ (List.mem_range'_1.2 ⟨hge, by omega⟩)
  rw [Char.ofNat_toNat, h] at hno
  exact absurd hno nofun

/-! ## The texts -/

/-- Digits with a point behind or among them or none at all, or digits behind a point. -/
inductive MantissaText : List Char → Prop where
  | digits {w p f : List Char} (hw : DigitsOfAnyScript w) (ne : w ≠ []) (hp : p = [] ∨ p = ['.'])
    (hf : DigitsOfAnyScript f) : MantissaText (w ++ (p ++ f))
  | fraction {f : List Char} (hf : DigitsOfAnyScript f) (ne : f ≠ []) : MantissaText ('.' :: f)

/-- A mantissa with a sign, the letter, and digits with a sign. -/
inductive ScientificText : List Char → Prop where
  | parts {s m r d : List Char} {c : Char} {negative negative' : Bool} (hs : SignText s negative)
    (hm : MantissaText m) (hc : c = 'e' ∨ c = 'E') (hr : SignText r negative')
    (hd : DigitsOfAnyScript d) (ne : d ≠ []) : ScientificText (s ++ (m ++ c :: (r ++ d)))

/-! ## What the pattern spans -/

namespace Scientific

/-- The parts of the pattern, each as it is read. -/
def signs : Expr := .times (.set (.unions [.only '+', .only '-'])) 0 (some 1)

def digits (least : Nat) : Expr := .times (.set (.categories [.nd])) least none

def point : Expr := .set (.only '.')

def mantissa : Expr :=
  .alt (.seq (digits 1) (.seq (.times point 0 (some 1)) (.seq (digits 0) .empty)))
    (.alt (.seq point (.seq (digits 1) .empty)) (.set .empty))

def letter : Expr := .set (.unions [.only 'e', .only 'E'])

/-- The pattern, which stands between both ends of the text. -/
def pattern : Expr :=
  .seq (.look .textStart) (.seq signs (.seq mantissa (.seq letter (.seq signs (.seq (digits 1)
    (.seq (.look .textEnd) .empty))))))

/-- The pattern can be read. -/
theorem scientific?_eq : scientific? = some pattern := by decide +kernel

theorem spans_digits_iff {least : Nat} :
    Expr.Spans (digits least) b w a ↔ DigitsOfAnyScript w ∧ least ≤ w.length := by
  rw [digits, Expr.spans_times_set_iff]
  exact and_congr_right fun _ => and_iff_left fun m hm => absurd hm nofun

theorem contains_pair_iff {d e : Char} :
    (CharSet.unions [.only d, .only e]).contains c = true ↔ c = d ∨ c = e := by
  rw [CharSet.contains_unions]
  simp only [List.any_cons, List.any_nil, CharSet.contains_only, Bool.or_false, Bool.or_eq_true,
    decide_eq_true_eq]
  exact or_congr eq_comm eq_comm

theorem spans_signs_iff : Expr.Spans signs b w a ↔ ∃ negative, SignText w negative := by
  rw [signs, Expr.spans_optional_set_iff]
  constructor
  · rintro (rfl | ⟨c, hc, rfl⟩)
    · exact ⟨_, .none⟩
    · rcases contains_pair_iff.1 hc with rfl | rfl
      · exact ⟨_, .plus⟩
      · exact ⟨_, .minus⟩
  · rintro ⟨_, _ | _ | _⟩
    · exact .inl rfl
    · exact .inr ⟨'+', contains_pair_iff.2 (.inl rfl), rfl⟩
    · exact .inr ⟨'-', contains_pair_iff.2 (.inr rfl), rfl⟩

theorem spans_point_iff : Expr.Spans point b w a ↔ w = ['.'] := by
  rw [point, Expr.spans_set_iff]
  simp [eq_comm]

theorem spans_letter_iff : Expr.Spans letter b w a ↔ ∃ c, w = [c] ∧ (c = 'e' ∨ c = 'E') := by
  simp only [letter, Expr.spans_set_iff, contains_pair_iff]

theorem spans_mantissa_iff : Expr.Spans mantissa b w a ↔ MantissaText w := by
  have hpoint {u : List Char} {b a : Option Char} :
      Expr.Spans (.times point 0 (some 1)) b u a ↔ u = [] ∨ u = ['.'] := by
    rw [point, Expr.spans_optional_set_iff]
    simp [eq_comm]
  have hnone {u : List Char} {b a : Option Char} : ¬ Expr.Spans (.set .empty) b u a := by
    rw [Expr.spans_set_iff]
    simp [CharSet.contains]
  rw [mantissa, Expr.spans_alt_iff, Expr.spans_alt_iff, or_iff_left hnone]
  constructor
  · rintro (h | h)
    · obtain ⟨w, _, rfl, hw, h⟩ := Expr.spans_seq_iff.1 h
      obtain ⟨p, f, rfl, hp, hf⟩ := Expr.spans_seq_iff.1 h
      obtain ⟨hw, hne⟩ := spans_digits_iff.1 hw
      obtain ⟨hf, -⟩ := spans_digits_iff.1 (Expr.spans_seq_empty_iff.1 hf)
      exact .digits hw (List.ne_nil_of_length_pos hne) (hpoint.1 hp) hf
    · obtain ⟨_, f, rfl, hp, hf⟩ := Expr.spans_seq_iff.1 h
      obtain rfl := spans_point_iff.1 hp
      obtain ⟨hf, hne⟩ := spans_digits_iff.1 (Expr.spans_seq_empty_iff.1 hf)
      exact .fraction hf (List.ne_nil_of_length_pos hne)
  · rintro (⟨hw, ne, hp, hf⟩ | ⟨hf, ne⟩)
    · refine .inl (.seq (spans_digits_iff.2 ⟨hw, List.length_pos_of_ne_nil ne⟩) ?_)
      refine .seq (hpoint.2 hp) (Expr.spans_seq_empty_iff.2 ?_)
      exact spans_digits_iff.2 ⟨hf, Nat.zero_le _⟩
    · refine .inr (.seq (u := ['.']) (spans_point_iff.2 rfl) (Expr.spans_seq_empty_iff.2 ?_))
      exact spans_digits_iff.2 ⟨hf, List.length_pos_of_ne_nil ne⟩

/-- Both ends of the text hold the pattern to the whole of it. -/
theorem occurs_pattern_iff : pattern.Occurs t ↔ ScientificText t := by
  constructor
  · rintro ⟨p, w, q, rfl, h⟩
    obtain ⟨_, w, rfl, hstart, h⟩ := Expr.spans_seq_iff.1 h
    obtain ⟨rfl, hp⟩ := Expr.spans_look_iff.1 hstart
    obtain ⟨s, _, rfl, hs, h⟩ := Expr.spans_seq_iff.1 h
    obtain ⟨m, _, rfl, hm, h⟩ := Expr.spans_seq_iff.1 h
    obtain ⟨l, _, rfl, hl, h⟩ := Expr.spans_seq_iff.1 h
    obtain ⟨r, _, rfl, hr, h⟩ := Expr.spans_seq_iff.1 h
    obtain ⟨d, _, rfl, hd, h⟩ := Expr.spans_seq_iff.1 h
    obtain ⟨rfl, hq⟩ := Expr.spans_look_iff.1 (Expr.spans_seq_empty_iff.1 h)
    obtain rfl : p = [] := List.getLast?_eq_none_iff.1 (Option.isNone_iff_eq_none.1 hp)
    obtain rfl : q = [] := List.head?_eq_none_iff.1 (Option.isNone_iff_eq_none.1 hq)
    obtain ⟨c, rfl, hc⟩ := spans_letter_iff.1 hl
    obtain ⟨_, hs⟩ := spans_signs_iff.1 hs
    obtain ⟨_, hr⟩ := spans_signs_iff.1 hr
    obtain ⟨hd, hne⟩ := spans_digits_iff.1 hd
    simpa using ScientificText.parts hs (spans_mantissa_iff.1 hm) hc hr hd
      (List.ne_nil_of_length_pos hne)
  · rintro ⟨hs, hm, hc, hr, hd, ne⟩
    refine ⟨[], _, [], (List.append_nil _).symm, .seq (u := []) (.look rfl) ?_⟩
    refine .seq (spans_signs_iff.2 ⟨_, hs⟩) (.seq (spans_mantissa_iff.2 hm) ?_)
    refine .seq (u := [_]) (spans_letter_iff.2 ⟨_, rfl, hc⟩) (.seq (spans_signs_iff.2 ⟨_, hr⟩) ?_)
    refine Expr.spans_seq_iff.2 ⟨_, [], (List.append_nil _).symm, ?_, ?_⟩
    · exact spans_digits_iff.2 ⟨hd, List.length_pos_of_ne_nil ne⟩
    · exact Expr.spans_seq_empty_iff.2 (.look rfl)

end Scientific

/-- **The pattern finds the texts of numbers with an exponent**, their digits being of any
script. -/
theorem isScientific_iff : isScientific t = true ↔ ScientificText t := by
  have hbounded : Scientific.pattern.Bounded :=
    Expr.bounded_of_compile (Expr.ofPattern?_eq_some_iff.1 Scientific.scientific?_eq)
  rw [isScientific, Scientific.scientific?_eq, Option.any_some, Expr.isFoundIn_iff hbounded,
    Scientific.occurs_pattern_iff]

/-- Beyond the numbers it finds some texts that are none. -/
example : isScientific ['٣', 'e', '٤'] = true ∧ ofToken? ['٣', 'e', '٤'] = none := by
  decide +kernel

/-! ## Numbers among them -/

theorem mem_of_mantissaText (h : MantissaText s) (hc : c ∈ s) :
    Text.Property.isDecimalDigit c = true ∨ c = '.' := by
  cases h with
  | digits hw _ hp hf =>
    rcases List.mem_append.1 hc with hc | hc
    · exact .inl (hw c hc)
    · rcases List.mem_append.1 hc with hc | hc
      · rcases hp with rfl | rfl
        · exact absurd hc List.not_mem_nil
        · exact .inr (List.mem_singleton.1 hc)
      · exact .inl (hf c hc)
  | fraction hf =>
    rcases List.mem_cons.1 hc with rfl | hc
    · exact .inr rfl
    · exact .inl (hf c hc)

theorem ScientificText.mem (h : ScientificText t) (hc : c ∈ t) :
    Text.Property.isDecimalDigit c = true ∨ c ∈ ['+', '-', '.', 'e', 'E'] := by
  have hsign {w : List Char} {negative : Bool} (hw : SignText w negative) (hc : c ∈ w) :
      c ∈ ['+', '-', '.', 'e', 'E'] := by
    rcases hw.mem hc with rfl | rfl <;> decide
  obtain ⟨hs, hm, hletter, hr, hd, -⟩ := h
  rcases List.mem_append.1 hc with hc | hc
  · exact .inr (hsign hs hc)
  · rcases List.mem_append.1 hc with hc | hc
    · refine (mem_of_mantissaText hm hc).imp_right ?_
      rintro rfl
      decide
    · rcases List.mem_cons.1 hc with rfl | hc
      · exact .inr (by rcases hletter with rfl | rfl <;> decide)
      · rcases List.mem_append.1 hc with hc | hc
        · exact .inr (hsign hr hc)
        · exact .inl (hd c hc)

/-- The letter of an exponent stands in the text. -/
theorem ScientificText.letter_mem (h : ScientificText t) : 'e' ∈ t ∨ 'E' ∈ t := by
  obtain ⟨-, -, hletter, -, -, -⟩ := h
  rcases hletter with rfl | rfl
  · exact .inl (List.mem_append_right _ (List.mem_append_right _ List.mem_cons_self))
  · exact .inr (List.mem_append_right _ (List.mem_append_right _ List.mem_cons_self))

/-- The letter of a mark is no digit of any script, so none of the texts begins with a mark. -/
theorem ScientificText.not_prefixed (h : ScientificText t) : ¬ Prefixed t := by
  intro hp
  obtain ⟨c, hc, hmark⟩ := hp.exists_letter
  rcases h.mem hc with hdigit | hother
  · have hnone : ['x', 'o', 'b'].all (!Text.Property.isDecimalDigit ·) = true := by
      decide +kernel
    rw [toLower_of_isDecimalDigit hdigit] at hmark
    have := List.all_eq_true.1 hnone c (List.contains_iff_mem.1 hmark)
    rw [hdigit] at this
    exact absurd this nofun
  · exact absurd (hmark.symm.trans (not_letter_of_mem hother)) nofun

theorem mantissaText_of_coefficientText (h : CoefficientText s u v) : MantissaText s := by
  cases h with
  | whole hw ne =>
    have hnone : DigitsOfAnyScript [] := fun c hc => absurd hc List.not_mem_nil
    have := MantissaText.digits (digitsOfAnyScript_of_digits hw) ne (.inl rfl) hnone
    rwa [List.append_nil, List.append_nil] at this
  | point hw hf ne =>
    cases u with
    | nil => exact .fraction (digitsOfAnyScript_of_digits hf) (ne.resolve_left fun h => h rfl)
    | cons c u =>
      exact .digits (digitsOfAnyScript_of_digits hw) (List.cons_ne_nil c u) (.inr rfl)
        (digitsOfAnyScript_of_digits hf)

/-- A decimal literal with the letter of an exponent has an exponent: the letter stands neither in
the sign nor in the coefficient. -/
theorem scientificText_of_decimalText {p : Literal.Parts} (h : DecimalText t p)
    (hletter : c = 'e' ∨ c = 'E') (hc : c ∈ t) : ScientificText t := by
  obtain ⟨hs, hm, he⟩ := h
  cases he with
  | none =>
    rw [List.append_nil] at hc
    rcases List.mem_append.1 hc with hc | hc
    · rcases hletter with rfl | rfl <;> exact absurd (hs.mem hc) (by decide)
    · rcases hletter with rfl | rfl <;> exact absurd (hm.mem hc) (by decide)
  | letter hc' hr hd ne =>
    rw [List.append_assoc]
    exact .parts hs (mantissaText_of_coefficientText hm) hc' hr (digitsOfAnyScript_of_digits hd) ne

/-! ## The check -/

/-- A number is scientific just if it has no mark of a radix and the letter of an exponent. -/
theorem isScientific_iff_letter {x : Binary64} (h : ofToken? t = some x) :
    isScientific t = true ↔ ¬ Prefixed t ∧ ('e' ∈ t ∨ 'E' ∈ t) := by
  rw [isScientific_iff]
  refine ⟨fun hs => ⟨hs.not_prefixed, hs.letter_mem⟩, fun ⟨hp, hletter⟩ => ?_⟩
  obtain ⟨c, hc, hmem⟩ : ∃ c, (c = 'e' ∨ c = 'E') ∧ c ∈ t := by
    rcases hletter with hmem | hmem
    exacts [⟨'e', .inl rfl, hmem⟩, ⟨'E', .inr rfl, hmem⟩]
  obtain ⟨-, ht⟩ := (ofToken?_cases h (List.ne_nil_of_mem hmem)).resolve_left fun hno => hp hno.1
  rcases ht with ht | ⟨p, ht⟩
  · have hnone : ∀ t ∈ infinities, 'e' ∉ t ∧ 'E' ∉ t := by decide
    rcases hc with rfl | rfl
    exacts [absurd hmem (hnone t ht).1, absurd hmem (hnone t ht).2]
  · exact scientificText_of_decimalText ht hc hmem

/-- **Which values are reported for their exponent**: where exponents are refused, those that are
numbers, begin with no mark of a radix, and have the letter of an exponent somewhere. -/
theorem kindNoScientific_mem_check_iff (value : String) (options : Options) :
    let t := Text.trim value.toList
    kindNoScientific ∈ check value options ↔
      options.flag "noScientific" = true ∧ (∃ x, ofText? value = some x) ∧ ¬ Prefixed t ∧
        ('e' ∈ t ∨ 'E' ∈ t) := by
  intro t
  have hkinds : kindNoScientific ≠ kindMin ∧ kindNoScientific ≠ kindMax ∧
      kindNoScientific ≠ kindStep ∧ kindNoScientific ≠ kindNumber := by decide
  rw [check]
  cases hx : ofText? value with
  | none => simp [hkinds]
  | some x =>
    simp only [List.mem_append, mem_failing_iff, hkinds, and_false, false_or, and_true,
      Bool.and_eq_true, isScientific_iff_letter hx, Option.some.injEq, exists_eq', true_and]
    exact Iff.rfl

end TreeRules.Check.Number
