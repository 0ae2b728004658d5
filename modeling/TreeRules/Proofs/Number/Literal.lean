import Mathlib.Data.List.Basic
import Mathlib.Data.List.Induction
import Mathlib.Data.List.TakeWhile
import TreeRules.Number.Literal

/-!
# Proofs/Number/Literal — how numerals are written

A decimal literal is a sign, a coefficient and an exponent, each with the ways to write it:

    sign        := '+' | '-' |
    coefficient := digit+ | digit* '.' digit*      with at least one digit
    exponent    := ('e' | 'E') sign digit+ |

What is read as a literal is one (`decimalText_of_parts?`), and every literal is read as what it
denotes (`DecimalText.parts?`).  So a literal never ends in the letter of an exponent.  A radix
integer may, since that letter is one of its digits; there is no minus among them, but a plus is let
through in front of them (`radixInteger?_eq_some_iff`).
-/

namespace TreeRules.Literal

variable {s t : List Char} {c : Char} {p : Parts} {x : Int}

/-! ## Texts and what they denote -/

/-- Any number of ASCII digits. -/
def Digits (s : List Char) : Prop := ∀ c ∈ s, c.isDigit = true

/-- A sign, and whether it is a minus. -/
inductive SignText : List Char → Bool → Prop where
  | none : SignText [] false
  | plus : SignText ['+'] false
  | minus : SignText ['-'] true

/-- Digits with at most one point, and the digits on its two sides. -/
inductive CoefficientText : List Char → List Char → List Char → Prop where
  | whole {w : List Char} (hw : Digits w) (ne : w ≠ []) : CoefficientText w w []
  | point {w f : List Char} (hw : Digits w) (hf : Digits f) (ne : w ≠ [] ∨ f ≠ []) :
    CoefficientText (w ++ '.' :: f) w f

/-- Nothing, or the letter with a sign and digits. -/
inductive ExponentText : List Char → Int → Prop where
  | none : ExponentText [] 0
  | letter {c : Char} {s d : List Char} {negative : Bool} (hc : c = 'e' ∨ c = 'E')
    (hs : SignText s negative) (hd : Digits d) (ne : d ≠ []) :
    ExponentText (c :: (s ++ d)) (if negative then -(natOfDigits d : Int) else natOfDigits d)

/-- A sign, a coefficient and an exponent. -/
inductive DecimalText : List Char → Parts → Prop where
  | parts {s m e w f : List Char} {negative : Bool} {x : Int} (hs : SignText s negative)
    (hm : CoefficientText m w f) (he : ExponentText e x) :
    DecimalText (s ++ m ++ e) ⟨negative, w, f, x⟩

/-! ## What is read is a literal -/

theorem signText_splitSign (s : List Char) :
    ∃ w, SignText w (splitSign s).1 ∧ s = w ++ (splitSign s).2 := by
  fun_cases splitSign s with
  | case1 s => exact ⟨['-'], .minus, rfl⟩
  | case2 s => exact ⟨['+'], .plus, rfl⟩
  | case3 => exact ⟨[], .none, rfl⟩

theorem digits_takeWhile (s : List Char) : Digits (s.takeWhile Char.isDigit) := fun _ hc =>
  List.mem_takeWhile_imp hc

theorem exponentText_of_exponent? (hc : c = 'e' ∨ c = 'E') (h : exponent? s = some x) :
    ExponentText (c :: s) x := by
  rw [exponent?] at h
  obtain ⟨w, hw, hs⟩ := signText_splitSign s
  generalize splitSign s = r at h hw hs
  obtain ⟨negative, d⟩ := r
  dsimp only at h hw hs
  split at h
  · exact absurd h nofun
  · next hd =>
    obtain rfl := Option.some.inj h
    rw [Bool.or_eq_true, not_or, Bool.not_eq_true, Bool.not_eq_true, Bool.not_eq_false'] at hd
    obtain ⟨hne, hall⟩ := hd
    rw [hs]
    exact .letter hc hw (List.all_eq_true.1 hall) (by simpa using hne)

/-- The digits before the point, those behind it and what comes after them. -/
def splitCoefficient (s : List Char) : List Char × List Char × List Char :=
  (s.takeWhile Char.isDigit,
    match s.dropWhile Char.isDigit with
    | '.' :: r => (r.takeWhile Char.isDigit, r.dropWhile Char.isDigit)
    | r => ([], r))

theorem coefficientText_splitCoefficient {w f r : List Char} (h : splitCoefficient s = (w, f, r))
    (hne : (w.isEmpty && f.isEmpty) = false) : ∃ m, CoefficientText m w f ∧ s = m ++ r := by
  have hparts : ¬ (w = [] ∧ f = []) := by simpa using hne
  rw [splitCoefficient] at h
  obtain ⟨rfl, hrest⟩ := Prod.mk.inj h
  have hw := digits_takeWhile s
  split at hrest
  · next u hu =>
    obtain ⟨rfl, rfl⟩ := Prod.mk.inj hrest
    refine ⟨_, .point hw (digits_takeWhile u) (not_and_or.1 hparts), ?_⟩
    rw [List.append_assoc, List.cons_append, List.takeWhile_append_dropWhile, ← hu,
      List.takeWhile_append_dropWhile]
  · obtain ⟨rfl, rfl⟩ := Prod.mk.inj hrest
    refine ⟨_, .whole hw fun hnil => hparts ⟨hnil, rfl⟩, ?_⟩
    rw [List.takeWhile_append_dropWhile]

/-- A literal is read as a sign, then a coefficient, then an exponent. -/
theorem parts?_eq (s : List Char) :
    parts? s =
      let negative := (splitSign s).1
      let (whole, fraction, rest) := splitCoefficient (splitSign s).2
      if whole.isEmpty && fraction.isEmpty then none
      else
        match rest with
        | [] => some ⟨negative, whole, fraction, 0⟩
        | c :: r =>
          if c = 'e' || c = 'E' then (exponent? r).map (⟨negative, whole, fraction, ·⟩) else none :=
  rfl

/-- **What is read as a decimal literal is one.** -/
theorem decimalText_of_parts? (h : parts? s = some p) : DecimalText s p := by
  rw [parts?_eq] at h
  obtain ⟨w, hw, hs⟩ := signText_splitSign s
  generalize splitSign s = r at h hw hs
  obtain ⟨negative, m⟩ := r
  dsimp only at h hw hs
  cases hcut : splitCoefficient m with
  | mk whole pair =>
    obtain ⟨fraction, rest⟩ := pair
    rw [hcut] at h
    dsimp only at h
    split at h
    · exact absurd h nofun
    · next hne =>
      obtain ⟨k, hk, rfl⟩ := coefficientText_splitCoefficient hcut (eq_false_of_ne_true hne)
      rw [hs, ← List.append_assoc]
      split at h
      · obtain rfl := Option.some.inj h
        exact .parts hw hk .none
      · split at h
        · next c r hc =>
          obtain ⟨x, hx, rfl⟩ := Option.map_eq_some_iff.1 h
          refine .parts hw hk (exponentText_of_exponent? ?_ hx)
          simpa using hc
        · exact absurd h nofun

/-! ## A literal is read -/

theorem CoefficientText.exists_cons {w f : List Char} (h : CoefficientText s w f) :
    ∃ c r, s = c :: r ∧ (c.isDigit = true ∨ c = '.') := by
  cases h with
  | whole hw ne =>
    obtain ⟨c, r, rfl⟩ := List.exists_cons_of_ne_nil ne
    exact ⟨c, r, rfl, .inl (hw c List.mem_cons_self)⟩
  | @point w f hw _ _ =>
    cases w with
    | nil => exact ⟨'.', f, rfl, .inr rfl⟩
    | cons c w => exact ⟨c, w ++ '.' :: f, rfl, .inl (hw c List.mem_cons_self)⟩

/-- A character that stands in a coefficient is no sign. -/
theorem ne_sign (h : c.isDigit = true ∨ c = '.') : c ≠ '+' ∧ c ≠ '-' := by
  rcases h with h | rfl
  · exact ⟨by rintro rfl; exact absurd h (by decide), by rintro rfl; exact absurd h (by decide)⟩
  · decide

theorem splitSign_append {w r : List Char} {negative : Bool} (hw : SignText w negative)
    (hr : ∀ c ∈ r.head?, c ≠ '+' ∧ c ≠ '-') : splitSign (w ++ r) = (negative, r) := by
  cases hw with
  | none =>
    cases r with
    | nil => rfl
    | cons c r =>
      obtain ⟨hplus, hminus⟩ := hr c rfl
      rw [List.nil_append, splitSign.eq_3]
      · exact fun u hu => hminus (List.cons.inj hu).1
      · exact fun u hu => hplus (List.cons.inj hu).1
  | plus => rfl
  | minus => rfl

/-- Digits are taken up to what is none. -/
theorem split_digits_append {w r : List Char} (hw : Digits w)
    (hr : ∀ c ∈ r.head?, c.isDigit = false) :
    (w ++ r).takeWhile Char.isDigit = w ∧ (w ++ r).dropWhile Char.isDigit = r := by
  have hstop : r.takeWhile Char.isDigit = [] ∧ r.dropWhile Char.isDigit = r := by
    cases r with
    | nil => exact ⟨rfl, rfl⟩
    | cons c r =>
      have hc := ne_true_of_eq_false (hr c rfl)
      exact ⟨List.takeWhile_cons_of_neg hc, List.dropWhile_cons_of_neg hc⟩
  rw [List.takeWhile_append_of_pos hw, List.dropWhile_append_of_pos hw, hstop.1, hstop.2,
    List.append_nil]
  exact ⟨rfl, rfl⟩

theorem CoefficientText.splitCoefficient {w f e : List Char} (h : CoefficientText s w f)
    (he : ∀ c ∈ e.head?, c.isDigit = false ∧ c ≠ '.') :
    Literal.splitCoefficient (s ++ e) = (w, f, e) ∧ (w.isEmpty && f.isEmpty) = false := by
  rw [Literal.splitCoefficient]
  cases h with
  | whole hw ne =>
    obtain ⟨htake, hdrop⟩ := split_digits_append hw fun c hc => (he c hc).1
    rw [htake, hdrop, List.isEmpty_eq_false_iff.2 ne]
    refine ⟨?_, rfl⟩
    split
    · next r => exact absurd rfl (he '.' rfl).2
    · rfl
  | @point w f hw hf ne =>
    have hpoint : ∀ c ∈ ('.' :: (f ++ e)).head?, c.isDigit = false := by
      rintro c hc
      obtain rfl := Option.some.inj hc
      decide
    obtain ⟨htake, hdrop⟩ := split_digits_append hw hpoint
    obtain ⟨htake', hdrop'⟩ := split_digits_append hf fun c hc => (he c hc).1
    rw [List.append_assoc, List.cons_append, htake, hdrop]
    refine ⟨congrArg (Prod.mk w) (congrArg₂ Prod.mk htake' hdrop'), ?_⟩
    rcases ne with ne | ne <;> rw [List.isEmpty_eq_false_iff.2 ne]
    · rfl
    · exact Bool.and_false _

theorem ExponentText.exponent? (h : ExponentText (c :: s) x) :
    (c = 'e' ∨ c = 'E') ∧ Literal.exponent? s = some x := by
  cases h with
  | @letter c w d negative hc hw hd ne =>
    refine ⟨hc, ?_⟩
    have hsplit : splitSign (w ++ d) = (negative, d) := splitSign_append hw fun c hc =>
      ne_sign (.inl (hd c (List.mem_of_mem_head? hc)))
    have hread : (d.isEmpty || !d.all Char.isDigit) = false := by
      rw [List.isEmpty_eq_false_iff.2 ne, List.all_eq_true.2 hd]
      rfl
    rw [Literal.exponent?, hsplit]
    exact if_neg (ne_true_of_eq_false hread)

/-- **A decimal literal is read as what it denotes.** -/
theorem DecimalText.parts? (h : DecimalText s p) : Literal.parts? s = some p := by
  cases h with
  | @parts w m e wh f negative x hw hm he =>
    have hhead : ∀ c ∈ (m ++ e).head?, c ≠ '+' ∧ c ≠ '-' := by
      obtain ⟨c, r, rfl, hc⟩ := hm.exists_cons
      rintro d hd
      obtain rfl := Option.some.inj hd
      exact ne_sign hc
    have hletter : ∀ c ∈ e.head?, c.isDigit = false ∧ c ≠ '.' := by
      intro c hc
      obtain ⟨r, rfl⟩ := List.head?_eq_some_iff.1 hc
      rcases he.exponent?.1 with rfl | rfl <;> decide
    obtain ⟨hsplit, hsome⟩ := hm.splitCoefficient hletter
    rw [List.append_assoc, parts?_eq, splitSign_append hw hhead]
    dsimp only
    rw [hsplit]
    dsimp only
    rw [if_neg (ne_true_of_eq_false hsome)]
    cases e with
    | nil =>
      cases he
      rfl
    | cons c r =>
      obtain ⟨hc, hx⟩ := he.exponent?
      have hletter : (decide (c = 'e') || decide (c = 'E')) = true := by simpa using hc
      dsimp only
      rw [if_pos hletter, hx]
      rfl

/-- What is left of a decimal literal without its minus is one. -/
theorem DecimalText.of_minus (h : DecimalText ('-' :: s) p) :
    DecimalText s { p with negative := false } := by
  generalize hs : '-' :: s = t at h
  cases h with
  | @parts w m e wh f negative x hw hm he =>
    cases hw with
    | minus =>
      rw [List.append_assoc, List.singleton_append] at hs
      obtain rfl := (List.cons.inj hs).2
      exact .parts .none hm he
    | plus =>
      rw [List.append_assoc, List.singleton_append] at hs
      exact absurd (List.cons.inj hs).1 (by decide)
    | none =>
      obtain ⟨c, r, rfl, hc⟩ := hm.exists_cons
      exact absurd (List.cons.inj hs).1.symm (ne_sign hc).2

/-! ## Characters -/

theorem SignText.mem {negative : Bool} (h : SignText s negative) (hc : c ∈ s) :
    c = '+' ∨ c = '-' := by
  cases h with
  | none => exact absurd hc List.not_mem_nil
  | plus => exact .inl (List.mem_singleton.1 hc)
  | minus => exact .inr (List.mem_singleton.1 hc)

theorem CoefficientText.mem {w f : List Char} (h : CoefficientText s w f) (hc : c ∈ s) :
    c.isDigit = true ∨ c = '.' := by
  cases h with
  | whole hw => exact .inl (hw c hc)
  | point hw hf =>
    rcases List.mem_append.1 hc with hc | hc
    · exact .inl (hw c hc)
    · rcases List.mem_cons.1 hc with rfl | hc
      · exact .inr rfl
      · exact .inl (hf c hc)

/-- A decimal literal has no other characters than digits, signs, a point and the letter of an
exponent. -/
theorem DecimalText.mem (h : DecimalText s p) (hc : c ∈ s) :
    c.isDigit = true ∨ c ∈ ['+', '-', '.', 'e', 'E'] := by
  have hsign {w : List Char} {negative : Bool} (hw : SignText w negative) (hc : c ∈ w) :
      c ∈ ['+', '-', '.', 'e', 'E'] := by
    rcases hw.mem hc with rfl | rfl <;> decide
  obtain ⟨hs, hm, he⟩ := h
  rcases List.mem_append.1 hc with hc | hc
  · rcases List.mem_append.1 hc with hc | hc
    · exact .inr (hsign hs hc)
    · refine (hm.mem hc).imp_right ?_
      rintro rfl
      decide
  · cases he with
    | none => exact absurd hc List.not_mem_nil
    | letter hletter hs' hd =>
      rcases List.mem_cons.1 hc with rfl | hc
      · exact .inr (by rcases hletter with rfl | rfl <;> decide)
      · rcases List.mem_append.1 hc with hc | hc
        · exact .inr (hsign hs' hc)
        · exact .inl (hd c hc)

theorem CoefficientText.exists_concat {w f : List Char} (h : CoefficientText s w f) :
    ∃ r c, s = r ++ [c] ∧ (c.isDigit = true ∨ c = '.') := by
  cases h with
  | whole hw ne =>
    obtain ⟨r, c, rfl⟩ := (List.eq_nil_or_concat' s).resolve_left ne
    exact ⟨r, c, rfl, .inl (hw c List.mem_concat_self)⟩
  | @point w f _ hf _ =>
    rcases List.eq_nil_or_concat' f with rfl | ⟨r, c, rfl⟩
    · exact ⟨w, '.', rfl, .inr rfl⟩
    · exact ⟨w ++ '.' :: r, c, by simp, .inl (hf c List.mem_concat_self)⟩

/-- A decimal literal ends in a digit or in its point. -/
theorem DecimalText.exists_concat (h : DecimalText s p) :
    ∃ r c, s = r ++ [c] ∧ (c.isDigit = true ∨ c = '.') := by
  cases h with
  | @parts s m e _ _ _ _ _ hm he =>
    cases he with
    | none =>
      obtain ⟨r, c, rfl, hc⟩ := hm.exists_concat
      exact ⟨s ++ r, c, by rw [List.append_nil, List.append_assoc], hc⟩
    | @letter c' s' d _ _ _ hd ne =>
      obtain ⟨r, c, rfl⟩ := (List.eq_nil_or_concat' d).resolve_left ne
      exact ⟨s ++ m ++ c' :: (s' ++ r), c, by simp, .inl (hd c List.mem_concat_self)⟩

/-! ## Radix integers -/

variable {radix n m : Nat}

theorem exists_digitValue?_of_ofDigits? (h : ofDigits? radix n s = some m) :
    ∀ c ∈ s, ∃ d, digitValue? c = some d ∧ d < radix := by
  fun_induction ofDigits? radix n s with
  | case1 => exact fun c hc => absurd hc List.not_mem_nil
  | case2 n c s d hd hlt ih =>
    intro c' hc'
    rcases List.mem_cons.1 hc' with rfl | hc'
    · exact ⟨d, hd, hlt⟩
    · exact ih h c' hc'
  | case3 => simp at h
  | case4 => simp at h

/-- Digits of a radix, most significant first, and the number they denote. -/
inductive RadixDigits (radix : Nat) : List Char → Nat → Prop where
  | one {c : Char} {d : Nat} (hd : digitValue? c = some d) (hlt : d < radix) :
    RadixDigits radix [c] d
  | more {s : List Char} {c : Char} {n d : Nat} (hs : RadixDigits radix s n)
    (hd : digitValue? c = some d) (hlt : d < radix) : RadixDigits radix (s ++ [c]) (n * radix + d)

theorem ofDigits?_append (radix n : Nat) (s t : List Char) :
    ofDigits? radix n (s ++ t) = (ofDigits? radix n s).bind fun m => ofDigits? radix m t := by
  fun_induction ofDigits? radix n s with
  | case1 n => rfl
  | case2 n c s d hd hlt ih => rw [List.cons_append, ofDigits?, hd, ← ih]; exact if_pos hlt
  | case3 n c s d hd hlt => rw [List.cons_append, ofDigits?, hd]; exact if_neg hlt
  | case4 n c s hd => rw [List.cons_append, ofDigits?, hd]; rfl

theorem ofDigits?_singleton_iff :
    ofDigits? radix n [c] = some m ↔
      ∃ d, digitValue? c = some d ∧ d < radix ∧ n * radix + d = m := by
  rw [ofDigits?]
  cases hd : digitValue? c with
  | none => simp
  | some d =>
    dsimp only
    split
    · next hlt => simp [ofDigits?, hlt]
    · next hlt => simp [hlt]

theorem radixDigits_iff : RadixDigits radix s n ↔ s ≠ [] ∧ ofDigits? radix 0 s = some n := by
  constructor
  · intro h
    induction h with
    | one hd hlt => exact ⟨List.cons_ne_nil _ _, ofDigits?_singleton_iff.2 ⟨_, hd, hlt, by simp⟩⟩
    | more _ hd hlt ih =>
      refine ⟨by simp, ?_⟩
      rw [ofDigits?_append, ih.2]
      exact ofDigits?_singleton_iff.2 ⟨_, hd, hlt, rfl⟩
  · rintro ⟨hne, h⟩
    induction s using List.reverseRecOn generalizing n with
    | nil => exact absurd rfl hne
    | append_singleton s c ih =>
      rw [ofDigits?_append] at h
      obtain ⟨m, hm, hc⟩ := Option.bind_eq_some_iff.1 h
      obtain ⟨d, hd, hlt, rfl⟩ := ofDigits?_singleton_iff.1 hc
      rcases List.eq_nil_or_concat' s with rfl | ⟨r, c', rfl⟩
      · obtain rfl : 0 = m := Option.some.inj hm
        rw [Nat.zero_mul, Nat.zero_add]
        exact .one hd hlt
      · exact .more (ih (by simp) hm) hd hlt

/-- There is no plus among digits. -/
theorem RadixDigits.not_mem (h : RadixDigits radix s n) : '+' ∉ s := fun hmem => by
  obtain ⟨d, hd, -⟩ := exists_digitValue?_of_ofDigits? (radixDigits_iff.1 h).2 '+' hmem
  exact absurd (hd.symm.trans (by decide)) (Option.some_ne_none d)

/-- **A radix integer is digits, perhaps with a plus in front, of a number below the bound.** -/
theorem radixInteger?_eq_some_iff : radixInteger? radix s = some n ↔
    ∃ d, (s = d ∨ s = '+' :: d) ∧ RadixDigits radix d n ∧ n < wordBound := by
  have hread (d : List Char) :
      (if d = [] then none else (ofDigits? radix 0 d).filter (· < wordBound)) = some n ↔
        RadixDigits radix d n ∧ n < wordBound := by
    rw [radixDigits_iff]
    split
    · next hnil => simp [hnil]
    · next hne => simp [hne, Option.filter_eq_some_iff]
  rw [radixInteger?.eq_def]
  dsimp only
  split
  · next r =>
    rw [hread]
    constructor
    · exact fun h => ⟨r, .inr rfl, h⟩
    · rintro ⟨d, rfl | hd, h⟩
      · exact absurd List.mem_cons_self h.1.not_mem
      · exact (List.cons.inj hd).2 ▸ h
  · next hplus =>
    rw [hread]
    constructor
    · exact fun h => ⟨s, .inl rfl, h⟩
    · rintro ⟨d, rfl | hd, h⟩
      · exact h
      · exact absurd hd (hplus d)

/-- Besides a plus there is nothing but digits of its radix in a radix integer. -/
theorem exists_digitValue?_of_radixInteger? (h : radixInteger? radix s = some n) (hc : c ∈ s)
    (hplus : c ≠ '+') : ∃ d, digitValue? c = some d ∧ d < radix := by
  obtain ⟨d, hs, hd, -⟩ := radixInteger?_eq_some_iff.1 h
  have hmem : c ∈ d := by
    rcases hs with rfl | rfl
    · exact hc
    · exact (List.mem_cons.1 hc).resolve_left hplus
  exact exists_digitValue?_of_ofDigits? (radixDigits_iff.1 hd).2 c hmem

end TreeRules.Literal
