import TreeRules.Proofs.Check.Number

/-!
# Proofs/Check/NumberText — which texts are numbers

A number between blanks is nothing at all, a radix integer, a spelling of infinity or a decimal
literal, and each is read as what it denotes (`ofToken?_eq_some_iff`).  The digits of a radix
integer should follow its mark.  They are read as a number on its own, though, and such a number may
begin with a plus; so what is read goes beyond the grammar by the radix integers with a plus behind
the mark, and by nothing else (`ofText?_eq_some_iff`).
-/

namespace TreeRules.Check.Number

open Literal (DecimalText RadixDigits)

variable {s t sign : List Char} {signs : List (List Char)} {x : Binary64} {n r : Nat}

/-! ## Texts and what they denote -/

/-- What a radix integer begins with, and the radix of its digits. -/
def radixes : List (List Char × Nat) := [(['0', 'x'], 16), (['0', 'o'], 8), (['0', 'b'], 2)]

/-- The mark of a radix, a sign and digits of a number below the bound, letters in either case. -/
def RadixText (sign t : List Char) (n : Nat) : Prop :=
  ∃ mark radix digits, (mark, radix) ∈ radixes ∧
    t.map Char.toLower = mark ++ (sign ++ digits) ∧ RadixDigits radix digits n ∧
    n < Literal.wordBound

/-- The texts of numbers, with any of the signs between the mark of a radix and its digits. -/
inductive NumberText (signs : List (List Char)) : List Char → Binary64 → Prop where
  | blank : NumberText signs [] .zero
  | radix {sign t : List Char} {n : Nat} (hsign : sign ∈ signs) (ht : RadixText sign t n) :
    NumberText signs t (.ofNat n)
  | infinity {t : List Char} (ht : t = "Infinity".toList ∨ t = "+Infinity".toList) :
    NumberText signs t (.infinite false)
  | minusInfinity : NumberText signs "-Infinity".toList (.infinite true)
  | decimal {t : List Char} {p : Literal.Parts} (ht : DecimalText t p) :
    NumberText signs t p.toBinary64

/-! ## Marks -/

theorem radix?_eq_some_iff : radix? s = some r ↔ (s, r) ∈ radixes := by
  rw [radix?.eq_def]
  split
  · simp [radixes, eq_comm]
  · simp [radixes, eq_comm]
  · simp [radixes, eq_comm]
  · next hx ho hb =>
    have hall : ∀ pair ∈ radixes,
        pair.1 = ['0', 'x'] ∨ pair.1 = ['0', 'o'] ∨ pair.1 = ['0', 'b'] := by decide
    refine iff_of_false (fun h => by cases h) fun h => ?_
    rcases hall _ h with h | h | h
    exacts [hx h, ho h, hb h]

theorem length_of_mem_radixes (h : (s, r) ∈ radixes) : s.length = 2 := by
  have hall : ∀ pair ∈ radixes, pair.1.length = 2 := by decide
  exact hall _ h

theorem RadixText.prefixed (h : RadixText sign t n) : Prefixed t := by
  obtain ⟨mark, radix, digits, hmark, ht, -, -⟩ := h
  have hall : ∀ pair ∈ radixes, pair.1 ∈ marks := by decide
  rw [Prefixed, ht, List.take_left' (length_of_mem_radixes hmark)]
  exact hall _ hmark

theorem toLower_of_isDigit {c : Char} (h : c.isDigit = true) : c.toLower = c := by
  rw [Char.isDigit, Bool.and_eq_true, decide_eq_true_eq, decide_eq_true_eq] at h
  refine dif_neg ?_
  rintro ⟨hge, -⟩
  exact absurd (UInt32.le_trans hge h.2) (by decide)

/-- The letter of the mark, in either case. -/
theorem Prefixed.exists_letter (h : Prefixed t) :
    ∃ c ∈ t, ['x', 'o', 'b'].contains c.toLower = true := by
  have hletter : ∀ mark ∈ marks, mark.any (['x', 'o', 'b'].contains ·) = true := by decide
  obtain ⟨c, hc, hmem⟩ := List.any_eq_true.1 (hletter _ h)
  obtain ⟨d, hd, rfl⟩ := List.mem_map.1 (List.mem_of_mem_take hc)
  exact ⟨d, hd, hmem⟩

/-- The letter of a mark is none of the characters of a literal besides its digits. -/
theorem not_letter_of_mem {c : Char} (h : c ∈ ['+', '-', '.', 'e', 'E']) :
    ['x', 'o', 'b'].contains c.toLower = false := by
  have hnone : ['+', '-', '.', 'e', 'E'].any (['x', 'o', 'b'].contains ·.toLower) = false := by
    decide
  exact eq_false_of_ne_true (List.any_eq_false.1 hnone c h)

/-- The letter of a mark does not stand in a decimal literal. -/
theorem not_prefixed_of_decimalText {p : Literal.Parts} (h : DecimalText t p) : ¬ Prefixed t := by
  intro hp
  obtain ⟨d, hd, hmem⟩ := hp.exists_letter
  rcases h.mem hd with hdigit | hsign
  · rw [toLower_of_isDigit hdigit] at hmem
    have hnone : ['x', 'o', 'b'].all (!·.isDigit) = true := by decide
    have := List.all_eq_true.1 hnone d (List.contains_iff_mem.1 hmem)
    rw [hdigit] at this
    exact absurd this nofun
  · exact absurd (hmem.symm.trans (not_letter_of_mem hsign)) nofun

/-! ## What is read -/

theorem numberText_of_ofToken? (h : ofToken? t = some x) : NumberText [[], ['+']] t x := by
  rw [ofToken?] at h
  dsimp only at h
  split at h
  · next hnil =>
    obtain rfl := Option.some.inj h
    subst hnil
    exact .blank
  · split at h
    · next radix hradix =>
      obtain ⟨n, hn, rfl⟩ := Option.map_eq_some_iff.1 h
      obtain ⟨digits, hdigits, hread, hlt⟩ := Literal.radixInteger?_eq_some_iff.1 hn
      have hmark := radix?_eq_some_iff.1 hradix
      have hsplit := (List.take_append_drop 2 (t.map Char.toLower)).symm
      rcases hdigits with hdigits | hdigits
      · rw [hdigits] at hsplit
        exact .radix List.mem_cons_self ⟨_, radix, digits, hmark, hsplit, hread, hlt⟩
      · rw [hdigits] at hsplit
        exact .radix (List.mem_cons_of_mem _ List.mem_cons_self)
          ⟨_, radix, digits, hmark, hsplit, hread, hlt⟩
    · split at h
      · next ht =>
        obtain rfl := Option.some.inj h
        rw [Bool.or_eq_true, decide_eq_true_eq, decide_eq_true_eq] at ht
        exact .infinity ht
      · split at h
        · next ht =>
          obtain rfl := Option.some.inj h
          subst ht
          exact .minusInfinity
        · obtain ⟨p, hp, rfl⟩ := Option.map_eq_some_iff.1 h
          exact .decimal (Literal.decimalText_of_parts? hp)

theorem ofToken?_of_radixText (hsign : sign ∈ [[], ['+']]) (h : RadixText sign t n) :
    ofToken? t = some (.ofNat n) := by
  obtain ⟨mark, radix, digits, hmark, ht, hread, hlt⟩ := h
  have hlength := length_of_mem_radixes hmark
  have hne : t ≠ [] := by
    rintro rfl
    rw [List.map_nil, eq_comm, List.append_eq_nil_iff] at ht
    exact absurd (ht.1 ▸ hlength) (by decide)
  have hinteger : Literal.radixInteger? radix (sign ++ digits) = some n := by
    refine Literal.radixInteger?_eq_some_iff.2 ⟨digits, ?_, hread, hlt⟩
    rcases List.mem_cons.1 hsign with rfl | hsign
    · exact .inl rfl
    · obtain rfl := List.mem_singleton.1 hsign
      exact .inr rfl
  rw [ofToken?, if_neg hne]
  dsimp only
  rw [ht, List.take_left' hlength, List.drop_left' hlength, radix?_eq_some_iff.2 hmark]
  dsimp only
  rw [hinteger]
  rfl

theorem ofToken?_of_decimalText {p : Literal.Parts} (h : DecimalText t p) :
    ofToken? t = some p.toBinary64 := by
  obtain ⟨r, c, hconcat, hlast⟩ := h.exists_concat
  have hne : t ≠ [] := hconcat ▸ List.concat_ne_nil c r
  have hinfinite : t ∉ infinities := by
    intro hmem
    have hall : ∀ t ∈ infinities, t.getLast? = some 'y' := by decide
    have hy := hall t hmem
    rw [hconcat, List.getLast?_concat, Option.some.injEq] at hy
    subst hy
    exact absurd hlast (by decide)
  rw [infinities, List.mem_cons, List.mem_cons, List.mem_singleton, not_or, not_or] at hinfinite
  rw [ofToken?, if_neg hne]
  dsimp only
  rw [radix?_eq_none_iff.2 (not_prefixed_of_decimalText h)]
  dsimp only
  rw [decide_eq_false hinfinite.1, decide_eq_false hinfinite.2.1, if_neg hinfinite.2.2,
    Literal.decimal?, h.parts?]
  rfl

/-- **What is read as a number is the text of one**, and it is read as what it denotes. -/
theorem ofToken?_eq_some_iff : ofToken? t = some x ↔ NumberText [[], ['+']] t x := by
  refine ⟨numberText_of_ofToken?, fun h => ?_⟩
  cases h with
  | blank => rfl
  | radix hsign ht => exact ofToken?_of_radixText hsign ht
  | infinity ht => rcases ht with rfl | rfl <;> rfl
  | minusInfinity => rfl
  | decimal ht => exact ofToken?_of_decimalText ht

/-- The plus is read behind the mark of a radix, but a minus is not. -/
example : ofToken? "0x+1F".toList = some (.ofNat 31) ∧ ofToken? "0x-1F".toList = none := by
  decide +kernel

/-- What is left of a number without its minus is one, and has no mark. -/
theorem exists_of_minus (h : ofToken? ('-' :: s) = some x) :
    ¬ Prefixed s ∧ ∃ y, ofToken? s = some y := by
  generalize ht : '-' :: s = t at h
  cases numberText_of_ofToken? h with
  | blank => exact absurd ht nofun
  | radix _ hr =>
    exact absurd (List.mem_cons_self (a := '-')) (ht ▸ not_mem_of_prefixed h hr.prefixed)
  | infinity hi => rcases hi with rfl | rfl <;> exact absurd (List.cons.inj ht).1 (by decide)
  | minusInfinity =>
    obtain rfl : s = "Infinity".toList := (List.cons.inj ht).2
    exact ⟨by decide, _, rfl⟩
  | decimal hd =>
    subst ht
    have hs := hd.of_minus
    exact ⟨not_prefixed_of_decimalText hs, _, ofToken?_of_decimalText hs⟩

/-! ## A plus behind the mark -/

theorem NumberText.mono {signs' : List (List Char)} (h : NumberText signs t x)
    (hsub : signs ⊆ signs') : NumberText signs' t x := by
  cases h with
  | blank => exact .blank
  | radix hsign ht => exact .radix (hsub hsign) ht
  | infinity ht => exact .infinity ht
  | minusInfinity => exact .minusInfinity
  | decimal ht => exact .decimal ht

/-- A radix integer with a plus is no number without one. -/
theorem RadixText.not_numberText (h : RadixText ['+'] t n) : ¬ NumberText [[]] t x := by
  intro hx
  cases hx with
  | blank => exact absurd h.prefixed (by decide)
  | @radix sign _ _ hsign h' =>
    obtain rfl := List.mem_singleton.1 hsign
    obtain ⟨mark, _, digits, hmark, ht, -, -⟩ := h
    obtain ⟨mark', _, digits', hmark', ht', hread, -⟩ := h'
    have hlength := (length_of_mem_radixes hmark').trans (length_of_mem_radixes hmark).symm
    obtain ⟨-, hdigits⟩ := List.append_inj (ht'.symm.trans ht) hlength
    refine hread.not_mem ?_
    rw [List.nil_append] at hdigits
    exact hdigits ▸ List.mem_cons_self
  | infinity ht => rcases ht with rfl | rfl <;> exact absurd h.prefixed (by decide)
  | minusInfinity => exact absurd h.prefixed (by decide)
  | decimal ht => exact not_prefixed_of_decimalText ht h.prefixed

/-- Where no plus stands behind a mark, it makes no difference that one may. -/
theorem numberText_plus_iff (h : ¬ ∃ n, RadixText ['+'] t n) :
    NumberText [[], ['+']] t x ↔ NumberText [[]] t x := by
  constructor
  · intro hx
    cases hx with
    | blank => exact .blank
    | @radix sign _ n hsign ht =>
      rcases List.mem_cons.1 hsign with rfl | hsign
      · exact .radix List.mem_cons_self ht
      · obtain rfl := List.mem_singleton.1 hsign
        exact absurd ⟨n, ht⟩ h
    | infinity ht => exact .infinity ht
    | minusInfinity => exact .minusInfinity
    | decimal ht => exact .decimal ht
  · exact fun hx => hx.mono (List.cons_subset_cons _ (List.nil_subset _))

/-- **Which values are numbers**, and which number each is.  The grammar without signs behind the
marks says it of every value but of radix integers that have a plus there: they are read as well. -/
theorem ofText?_eq_some_iff (value : String) :
    let t := Text.trim value.toList
    (∀ x, ofText? value = some x ↔ NumberText [[], ['+']] t x) ∧
      ((∀ x, ofText? value = some x ↔ NumberText [[]] t x) ↔ ¬ ∃ n, RadixText ['+'] t n) := by
  intro t
  have hread (x : Binary64) : ofText? value = some x ↔ NumberText [[], ['+']] t x :=
    ofToken?_eq_some_iff
  refine ⟨hread, fun hplain => ?_, fun hnone x => (hread x).trans (numberText_plus_iff hnone)⟩
  rintro ⟨n, hn⟩
  have hsigned : NumberText [[], ['+']] t (.ofNat n) :=
    .radix (List.mem_cons_of_mem _ List.mem_cons_self) hn
  exact hn.not_numberText ((hplain _).1 ((hread _).2 hsigned))

/-- The digits behind the mark `0x` are read as thirty-one with a plus in front of them, too. -/
theorem plus_behind_mark_shows :
    ofText? "0x+1F" = some (.ofNat 31) ∧ ¬ ∃ x, NumberText [[]] (Text.trim "0x+1F".toList) x := by
  have hdigits : RadixDigits 16 ['1', 'f'] 31 :=
    .more (s := ['1']) (n := 1) (d := 15) (.one (by decide) (by decide)) (by decide) (by decide)
  have hplus : RadixText ['+'] (Text.trim "0x+1F".toList) 31 :=
    ⟨['0', 'x'], 16, ['1', 'f'], by decide, by decide, hdigits, by decide⟩
  exact ⟨by decide +kernel, fun ⟨x, hx⟩ => hplus.not_numberText hx⟩

end TreeRules.Check.Number
