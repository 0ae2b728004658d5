import TreeRules.Check.Number
import TreeRules.Proofs.Number.Literal
import TreeRules.Proofs.Text.Blank
import TreeRules.Proofs.Text.Trim

/-!
# Proofs/Check/Number — what the texts of numbers look like

A text that is a number and not blank is a radix integer, a spelling of infinity or a decimal
literal (`ofToken?_cases`), and whether it is the first its first two characters tell.  There is no
minus in a radix integer, but it may end in the letter of an exponent; in the others there may be
two of the one, and none ends in the other.  A number is never refused as one, whatever the options
are.
-/

namespace TreeRules.Check.Number

variable {t : List Char} {value kind : String} {options : Options} {x : Binary64} {c : Char}

/-! ## Three kinds of numbers -/

/-- What a radix integer begins with. -/
def marks : List (List Char) := [['0', 'x'], ['0', 'o'], ['0', 'b']]

/-- The text begins with the mark of a radix, its letter in either case. -/
def Prefixed (t : List Char) : Prop := (t.map Char.toLower).take 2 ∈ marks

instance (t : List Char) : Decidable (Prefixed t) :=
  inferInstanceAs (Decidable ((t.map Char.toLower).take 2 ∈ marks))

theorem radix?_eq_none_iff {s : List Char} : radix? s = none ↔ s ∉ marks := by
  rw [radix?.eq_def]
  split
  · decide
  · decide
  · decide
  · next hx ho hb => simpa [marks] using ⟨hx, ho, hb⟩

/-- What stands behind the text does not change what it begins with. -/
theorem Prefixed.append (h : Prefixed t) (s : List Char) : Prefixed (t ++ s) := by
  have hlength : ∀ mark ∈ marks, mark.length = 2 := by decide
  have htwo : 2 ≤ (t.map Char.toLower).length := by
    have := hlength _ h
    rw [List.length_take] at this
    omega
  rw [Prefixed, List.map_append, List.take_append_of_le_length htwo]
  exact h

/-- The spellings of infinity. -/
def infinities : List (List Char) :=
  ["Infinity".toList, "+Infinity".toList, "-Infinity".toList]

/-- A radix integer, infinity or a decimal literal. -/
theorem ofToken?_cases (h : ofToken? t = some x) (hne : t ≠ []) :
    (Prefixed t ∧ ∃ radix n, radix? ((t.map Char.toLower).take 2) = some radix ∧
      Literal.radixInteger? radix ((t.map Char.toLower).drop 2) = some n) ∨
    ¬ Prefixed t ∧ (t ∈ infinities ∨ ∃ p, Literal.DecimalText t p) := by
  rw [ofToken?, if_neg hne] at h
  dsimp only at h
  split at h
  · next radix hradix =>
    obtain ⟨n, hn, -⟩ := Option.map_eq_some_iff.1 h
    refine .inl ⟨?_, radix, n, hradix, hn⟩
    by_contra hmark
    exact absurd (hradix.symm.trans (radix?_eq_none_iff.2 hmark)) nofun
  · next hradix =>
    refine .inr ⟨radix?_eq_none_iff.1 hradix, ?_⟩
    split at h
    · next ht =>
      rw [Bool.or_eq_true, decide_eq_true_eq, decide_eq_true_eq] at ht
      rcases ht with rfl | rfl
      · exact .inl (by decide)
      · exact .inl (by decide)
    · split at h
      · next ht => exact .inl (ht ▸ by decide)
      · obtain ⟨p, hp, -⟩ := Option.map_eq_some_iff.1 h
        exact .inr ⟨p, Literal.decimalText_of_parts? hp⟩

/-! ## Their characters -/

/-- There is no minus in a radix integer. -/
theorem not_mem_of_prefixed (h : ofToken? t = some x) (hp : Prefixed t) : '-' ∉ t := by
  intro hmem
  have hne : t ≠ [] := List.ne_nil_of_mem hmem
  obtain ⟨-, radix, n, -, hn⟩ := (ofToken?_cases h hne).resolve_right fun hno => hno.1 hp
  -- a minus stays one in lower case, and then it stands neither in the mark nor behind it
  have hlower : '-' ∈ t.map Char.toLower := List.mem_map.2 ⟨'-', hmem, by decide⟩
  rw [← List.take_append_drop 2 (t.map Char.toLower)] at hlower
  rcases List.mem_append.1 hlower with hmark | hdigits
  · have hnone : ∀ mark ∈ marks, '-' ∉ mark := by decide
    exact hnone _ hp hmark
  · obtain ⟨d, hd, -⟩ := Literal.exists_digitValue?_of_radixInteger? hn hdigits (by decide)
    exact absurd (hd.symm.trans (by decide)) (Option.some_ne_none d)

theorem isAlphanumeric_of_isDigit (h : c.isDigit = true) : Text.isAlphanumeric c = true :=
  Text.isAlphanumeric_of_isAlphanum (Bool.or_eq_true_iff.2 (.inr h))

theorem isBlank_of_isDigit (h : c.isDigit = true) : Text.isBlank c = false :=
  eq_false_of_ne_true fun hb => absurd
    ((isAlphanumeric_of_isDigit h).symm.trans (Text.isAlphanumeric_of_isBlank hb)) nofun

/-- A character that stands in some decimal literal or in a spelling of infinity. -/
def isLiteralChar (c : Char) : Bool :=
  Text.isAlphanumeric c || c == '+' || c == '-' || c == '.'

theorem isLiteralChar_of_mem (h : ofToken? t = some x) (hne : t ≠ []) (hp : ¬ Prefixed t)
    (hc : c ∈ t) : isLiteralChar c = true := by
  obtain ⟨-, ht⟩ := (ofToken?_cases h hne).resolve_left fun hno => hp hno.1
  rcases ht with ht | ⟨p, ht⟩
  · have hall : ∀ t ∈ infinities, t.all isLiteralChar = true := by decide
    exact List.all_eq_true.1 (hall t ht) c hc
  · rcases ht.mem hc with hd | hd
    · rw [isLiteralChar, isAlphanumeric_of_isDigit hd]
      rfl
    · have hall : ['+', '-', '.', 'e', 'E'].all isLiteralChar = true := by decide
      exact List.all_eq_true.1 hall c hd

/-- The last character is neither blank nor the letter of an exponent. -/
theorem exists_concat (h : ofToken? t = some x) (hne : t ≠ []) (hp : ¬ Prefixed t) :
    ∃ r c, t = r ++ [c] ∧ Text.isBlank c = false ∧ c ≠ 'e' ∧ c ≠ 'E' := by
  obtain ⟨-, ht⟩ := (ofToken?_cases h hne).resolve_left fun hno => hp hno.1
  rcases ht with ht | ⟨p, ht⟩
  · have hall : ∀ t ∈ infinities, t.getLast? = some 'y' := by decide
    obtain ⟨r, rfl⟩ := List.getLast?_eq_some_iff.1 (hall t ht)
    exact ⟨r, 'y', rfl, by decide⟩
  · obtain ⟨r, c, rfl, hc⟩ := ht.exists_concat
    refine ⟨r, c, rfl, ?_⟩
    rcases hc with hd | rfl
    · exact ⟨isBlank_of_isDigit hd, by rintro rfl; exact absurd hd (by decide),
        by rintro rfl; exact absurd hd (by decide)⟩
    · decide

/-- Only a hexadecimal integer ends in the letter of an exponent, which is a digit there. -/
theorem take_of_getLast? (h : ofToken? t = some x) (hlast : t.getLast? = some c)
    (hletter : c = 'e' ∨ c = 'E') : (t.map Char.toLower).take 2 = ['0', 'x'] := by
  have hne : t ≠ [] := by
    rintro rfl
    exact absurd hlast nofun
  rcases ofToken?_cases h hne with ⟨-, radix, n, hradix, hn⟩ | ⟨hp, -⟩
  · have hmem : 'e' ∈ (t.map Char.toLower).drop 2 := by
      have hlower : (t.map Char.toLower).getLast? = some 'e' := by
        rw [List.getLast?_map, hlast]
        rcases hletter with rfl | rfl <;> rfl
      refine List.mem_of_getLast? ?_
      rw [List.getLast?_drop, hlower, if_neg]
      -- behind the mark there is a digit
      intro hlength
      rw [List.drop_eq_nil_of_le hlength] at hn
      exact absurd hn nofun
    obtain ⟨d, hd, hlt⟩ := Literal.exists_digitValue?_of_radixInteger? hn hmem (by decide)
    obtain rfl : 14 = d := Option.some.inj (Eq.trans (by decide) hd)
    rw [radix?.eq_def] at hradix
    split at hradix
    · next hmark => exact hmark
    · exact absurd (Option.some.inj hradix ▸ hlt) (by decide)
    · exact absurd (Option.some.inj hradix ▸ hlt) (by decide)
    · exact absurd hradix nofun
  · obtain ⟨r, c', rfl, -, hlower, hupper⟩ := exists_concat h hne hp
    rw [List.getLast?_concat, Option.some.injEq] at hlast
    subst hlast
    exact absurd hletter (not_or.2 ⟨hlower, hupper⟩)

/-! ## The check -/

/-- Blanks around a value make no difference. -/
theorem check_trim (value : String) (options : Options) :
    check (String.ofList (Text.trim value.toList)) options = check value options := by
  rw [check, check, ofText?, ofText?, String.toList_ofList, Text.trim_trim]

example : check " 12\t" .empty = [] ∧ check "1 2" .empty = [kindNumber] := by decide +kernel

theorem mem_failing_iff {k : String} {fails : Bool} :
    kind ∈ failing k fails ↔ fails = true ∧ kind = k := by
  cases fails <;> simp [failing]

/-- What is wrong with a value is that it is no number, or it is reported in the order in which it
is looked for. -/
theorem check_cases (value : String) (options : Options) :
    check value options = [kindNumber] ∨
      (check value options).Sublist [kindMin, kindMax, kindStep, kindNoScientific] := by
  have hone (k : String) (fails : Bool) : List.Sublist (failing k fails) [k] := by
    cases fails
    · exact List.nil_sublist [k]
    · exact List.Sublist.refl [k]
  rw [check]
  cases ofText? value with
  | none => exact .inl rfl
  | some number =>
    exact .inr ((((hone _ _).append (hone _ _)).append (hone _ _)).append (hone _ _))

/-- Whatever is wrong with a number, it is a number. -/
theorem mem_of_mem_check (h : ofText? value = some x) (hk : kind ∈ check value options) :
    kind ∈ [kindMin, kindMax, kindStep, kindNoScientific] := by
  rw [check, h] at hk
  simp only [List.mem_append, mem_failing_iff] at hk
  simp only [List.mem_cons, List.not_mem_nil, or_false]
  rcases hk with ((hk | hk) | hk) | hk
  · exact .inl hk.2
  · exact .inr (.inl hk.2)
  · exact .inr (.inr (.inl hk.2))
  · exact .inr (.inr (.inr hk.2))

/-- Without options a number is all that is asked for. -/
theorem check_empty (value : String) :
    check value .empty = if (ofText? value).isSome then [] else [kindNumber] := by
  rw [check]
  cases ofText? value <;> rfl

/-! ## Given numbers -/

/-- The text is a number, and not blank. -/
structure Given (text : String) (x : Binary64) : Prop where
  number : ofText? text = some x
  written : isBlankString text = false

theorem Given.ne_nil (h : Given value x) : Text.trim value.toList ≠ [] := fun hnil =>
  absurd (h.written.symm.trans ((Text.trim_eq_nil_iff _).1 hnil)) nofun

theorem Given.check_empty (h : Given value x) : check value .empty = [] := by
  rw [Number.check_empty, h.number]
  rfl

end TreeRules.Check.Number
