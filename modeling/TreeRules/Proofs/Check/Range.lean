import TreeRules.Proofs.Check.Cutting

/-!
# Proofs/Check/Range — a range is judged by its two bounds

Once a range is cut behind its lower bound, its answer is what is wrong with the one bound, what is
wrong with the other, and whether they are in the wrong order (`check_of_given`).  Behind a decimal
literal it is always cut, unless the separator could be taken for a part of a number
(`check_of_decimal`).  It is behind a radix integer too, but for a hexadecimal one that ends in the
digit `e` and stands before a hyphen: the hyphen is taken for the sign of an exponent
(`check_of_numbers`).
-/

namespace TreeRules.Check.Range

open Number (Given Prefixed)

variable {l u value : String} {low high : Binary64} {options : Options}
  {b b' lower upper text : List Char}

/-! ## Blanks around the bounds -/

/-- Without the blanks at its ends, a range has blanks around its separator only. -/
theorem exists_trim_joined {b₀ b₁ b₂ b₃ s t : List Char} (separator : List Char)
    (hb₀ : Text.isBlankText b₀ = true) (hb₁ : Text.isBlankText b₁ = true)
    (hb₂ : Text.isBlankText b₂ = true) (hb₃ : Text.isBlankText b₃ = true)
    (hs : Text.trim s ≠ []) (ht : Text.trim t ≠ []) :
    ∃ b b', Text.isBlankText b = true ∧ Text.isBlankText b' = true ∧
      Text.trim (b₀ ++ s ++ b₁ ++ separator ++ b₂ ++ t ++ b₃) =
        Text.trim s ++ b ++ separator ++ (b' ++ Text.trim t) := by
  obtain ⟨a, a', ha, ha', hs'⟩ := Text.exists_blank_append s
  obtain ⟨c, c', hc, hc', ht'⟩ := Text.exists_blank_append t
  have hblank {x y : List Char} (hx : Text.isBlankText x = true) (hy : Text.isBlankText y = true) :
      Text.isBlankText (x ++ y) = true := by
    rw [Text.isBlankText_append, hx, hy]
    rfl
  refine ⟨a' ++ b₁, b₂ ++ c, hblank ha' hb₁, hblank hb₂ hc, ?_⟩
  have hself : Text.trim (Text.trim s ++ (a' ++ b₁) ++ separator ++ ((b₂ ++ c) ++ Text.trim t)) =
      Text.trim s ++ (a' ++ b₁) ++ separator ++ ((b₂ ++ c) ++ Text.trim t) := by
    refine Text.trim_eq_self (fun d hd => ?_) fun d hd => ?_
    · refine (Text.ends_trim s).1 d ?_
      rwa [List.append_assoc, List.append_assoc, List.head?_append_of_ne_nil _ hs] at hd
    · refine (Text.ends_trim t).2 d ?_
      rwa [← List.append_assoc, List.getLast?_append_of_ne_nil _ ht] at hd
  calc Text.trim (b₀ ++ s ++ b₁ ++ separator ++ b₂ ++ t ++ b₃)
      = Text.trim ((b₀ ++ a) ++ (Text.trim s ++ (a' ++ b₁) ++ separator ++
          ((b₂ ++ c) ++ Text.trim t)) ++ (c' ++ b₃)) := by
        conv_lhs => rw [hs', ht']
        simp only [List.append_assoc]
    _ = _ := by rw [Text.trim_append_blank _ (hblank hb₀ ha) (hblank hc' hb₃), hself]

/-! ## One bound -/

/-- A bound is judged as a number. -/
theorem checkBound_of_given (h : Given l low) (ht : Text.trim text = Text.trim l.toList)
    (openEnded : Bool) (options : Options) :
    checkBound text openEnded options = (Number.check l options, some low) := by
  have hno : (Number.check l options).contains Number.kindNumber = false := by
    refine eq_false_of_ne_true fun hmem => ?_
    have := Number.mem_of_mem_check h.number (List.contains_iff_mem.1 hmem)
    exact absurd this (by decide)
  have hread : Number.ofToken? (Text.trim l.toList) = some low := h.number
  rw [checkBound, ht]
  dsimp only
  rw [if_neg h.ne_nil, Number.check_trim, hno, hread]
  rfl

/-- Without options a bound is only asked to be a number. -/
theorem checkBound_empty (hne : Text.trim text ≠ []) (openEnded : Bool) :
    checkBound text openEnded .empty =
      (Number.failing Number.kindNumber (Number.ofToken? (Text.trim text)).isNone,
        Number.ofToken? (Text.trim text)) := by
  rw [checkBound]
  dsimp only
  rw [if_neg hne, Number.check_empty, Number.ofText?, String.toList_ofList, Text.trim_trim]
  cases Number.ofToken? (Text.trim text) <;> rfl

/-! ## The check -/

/-- The separator that the options name, or the hyphen. -/
def separator (options : Options) : String :=
  ((options.string? "separator").filter (· ≠ "")).getD "-"

theorem separator_ne_nil (options : Options) : (separator options).toList ≠ [] := by
  rw [separator, ne_eq, String.toList_eq_nil_iff]
  cases h : (options.string? "separator").filter (· ≠ "") with
  | none => decide
  | some s => simpa using (Option.filter_eq_some_iff.1 h).2

/-- Both bounds are there, and in the wrong order. -/
def reversed : Option Binary64 → Option Binary64 → Bool
  | some low, some high => high.lt low
  | _, _ => false

theorem bounds?_of_cut? {cut : List Char × List Char} {s : List Char}
    (h : cut? s [] text = some cut) (openEnded : Bool) : bounds? text s openEnded = some cut := by
  rw [bounds?, h]

/-- What is reported of blanks. -/
def spaces (value : String) (options : Options) : List String :=
  Number.failing kindNoSpaces (options.flag "noSpaces" && value.toList.any Text.isBlank)

theorem spaces_eq_nil (h : options.flag "noSpaces" = false) : spaces value options = [] := by
  rw [spaces, h]
  rfl

/-- What is not cut, or only into blanks, is no range. -/
theorem check_of_unwritten
    (h : ∀ cut ∈ bounds? (Text.trim value.toList) (separator options).toList
      (options.flag "openEnded"), (Text.isBlankText cut.1 && Text.isBlankText cut.2) = true) :
    check value options = spaces value options ++ [kindRange] := by
  rw [separator] at h
  rw [check]
  dsimp only
  split
  · rfl
  · next hcut => rw [if_pos (h _ hcut), spaces]

/-- What is cut is judged by its bounds. -/
theorem check_of_written
    (hcut : bounds? (Text.trim value.toList) (separator options).toList
      (options.flag "openEnded") = some (lower, upper))
    (hwritten : (Text.isBlankText lower && Text.isBlankText upper) = false) :
    check value options =
      distinct (spaces value options ++ (checkBound lower (options.flag "openEnded") options).1 ++
        (checkBound upper (options.flag "openEnded") options).1 ++
        Number.failing kindRange (reversed (checkBound lower (options.flag "openEnded") options).2
          (checkBound upper (options.flag "openEnded") options).2)) := by
  rw [separator] at hcut
  rw [check]
  dsimp only
  rw [hcut]
  dsimp only
  rw [hwritten]
  rfl

theorem check_of_none (hspaces : options.flag "noSpaces" = false)
    (hcut : bounds? (Text.trim value.toList) (separator options).toList
      (options.flag "openEnded") = none) : check value options = [kindRange] := by
  rw [check_of_unwritten (by rw [hcut]; exact fun _ h => nomatch h), spaces_eq_nil hspaces]
  rfl

theorem check_of_bounds? (hspaces : options.flag "noSpaces" = false)
    (hcut : bounds? (Text.trim value.toList) (separator options).toList
      (options.flag "openEnded") = some (lower, upper))
    (hwritten : (Text.isBlankText lower && Text.isBlankText upper) = false) :
    check value options =
      distinct ((checkBound lower (options.flag "openEnded") options).1 ++
        (checkBound upper (options.flag "openEnded") options).1 ++
        Number.failing kindRange (reversed (checkBound lower (options.flag "openEnded") options).2
          (checkBound upper (options.flag "openEnded") options).2)) := by
  rw [check_of_written hcut hwritten, spaces_eq_nil hspaces, List.nil_append]

/-- Two numbers are judged as such, and compared. -/
theorem check_of_given (hl : Given l low) (hu : Given u high)
    (hspaces : options.flag "noSpaces" = false)
    (hcut : bounds? (Text.trim value.toList) (separator options).toList
      (options.flag "openEnded") = some (lower, upper))
    (hlower : Text.trim lower = Text.trim l.toList)
    (hupper : Text.trim upper = Text.trim u.toList) :
    check value options = distinct (Number.check l options ++ Number.check u options ++
      Number.failing kindRange (high.lt low)) := by
  have hwritten : Text.isBlankText lower = false := eq_false_of_ne_true fun hblank =>
    hl.ne_nil (hlower.symm.trans ((Text.trim_eq_nil_iff lower).2 hblank))
  rw [check_of_bounds? hspaces hcut (by rw [hwritten]; rfl), checkBound_of_given hl hlower,
    checkBound_of_given hu hupper]
  rfl

example : check "3 - 5" .empty = [] ∧ check "5 - 3" .empty = [kindRange] := by decide +kernel

/-- A lower bound that is no number is all that is reported, whatever the upper one is. -/
theorem check_of_refused
    (hcut : bounds? (Text.trim value.toList) ['-'] false = some (lower, upper))
    (hlower : Text.trim lower ≠ []) (hrefused : Number.ofToken? (Text.trim lower) = none)
    (hupper : Text.trim upper ≠ []) : check value .empty = [Number.kindNumber] := by
  have hwritten : Text.isBlankText lower = false := eq_false_of_ne_true fun hblank =>
    hlower ((Text.trim_eq_nil_iff lower).2 hblank)
  rw [check_of_bounds? rfl hcut (by rw [hwritten]; rfl), checkBound_empty hlower,
    checkBound_empty hupper, hrefused]
  cases Number.ofToken? (Text.trim upper) <;> rfl

/-! ## Decimal bounds -/

/-- **Behind a decimal literal a range is always cut**, whatever the blanks and the separator are:
neither its sign nor that of its exponent, nor those of the other bound, mislead it. -/
theorem check_of_decimal (b₀ b₁ b₂ b₃ : String) (options : Options) (hl : Given l low)
    (hu : Given u high) (hlower : ¬ Prefixed (Text.trim l.toList))
    (hseparator : separator options = "-" ∨ Foreign (separator options).toList)
    (hspaces : options.flag "noSpaces" = false)
    (hb : ∀ b ∈ [b₀, b₁, b₂, b₃], isBlankString b = true) :
    check (b₀ ++ l ++ b₁ ++ separator options ++ b₂ ++ u ++ b₃) options =
        distinct (Number.check l options ++ Number.check u options ++
          Number.failing kindRange (high.lt low)) ∧
      (kindRange ∈ check (b₀ ++ l ++ b₁ ++ separator options ++ b₂ ++ u ++ b₃) options ↔
        high.lt low = true) := by
  simp only [List.forall_mem_cons] at hb
  obtain ⟨hb₀, hb₁, hb₂, hb₃, -⟩ := hb
  obtain ⟨b, b', hblank, hblank', hjoined⟩ := exists_trim_joined (separator options).toList
    hb₀ hb₁ hb₂ hb₃ hl.ne_nil hu.ne_nil
  have hcut := cut?_decimal hl.number hl.ne_nil hlower hblank (separator_ne_nil options)
    (hseparator.imp_left (congrArg String.toList)) (b' ++ Text.trim u.toList)
  have hcheck : check (b₀ ++ l ++ b₁ ++ separator options ++ b₂ ++ u ++ b₃) options =
      distinct (Number.check l options ++ Number.check u options ++
        Number.failing kindRange (high.lt low)) := by
    refine check_of_given hl hu hspaces ?_ (Text.trim_trim_append _ hblank)
      (Text.trim_append_trim _ hblank')
    simp only [String.toList_append]
    rw [hjoined]
    exact bounds?_of_cut? hcut _
  refine ⟨hcheck, ?_⟩
  rw [hcheck, distinct, List.mem_eraseDups, List.mem_append, List.mem_append,
    Number.mem_failing_iff]
  constructor
  · rintro ((hk | hk) | hk)
    · exact absurd (Number.mem_of_mem_check hl.number hk) (by decide)
    · exact absurd (Number.mem_of_mem_check hu.number hk) (by decide)
    · exact hk.1
  · exact fun hlt => .inr ⟨hlt, rfl⟩

/-- Minus a fifth is smaller than minus a thousandth, and both are below zero. -/
theorem check_of_decimal_of_minuses :
    (∃ low high, Given "-1e-3" low ∧ Given "-2E-1" high ∧ high.lt low = true) ∧
      check " -1e-3 -\t-2E-1" (Table.empty.insert "min" (.int 0)) =
        [Number.kindMin, kindRange] ∧
      check "+1.5e+3 :: Infinity" (Table.empty.insert "separator" (.string "::")) = [] :=
  ⟨⟨_, _, ⟨rfl, by decide⟩, ⟨rfl, by decide⟩, by decide +kernel⟩,
    (check_of_decimal (l := "-1e-3") (u := "-2E-1") " " " " "\t" ""
      (Table.empty.insert "min" (.int 0)) ⟨rfl, by decide⟩ ⟨rfl, by decide⟩ (by decide)
      (.inl rfl) rfl (by decide)).1.trans (by decide +kernel),
    (check_of_decimal (l := "+1.5e+3") (u := "Infinity") "" " " " " ""
      (Table.empty.insert "separator" (.string "::")) ⟨rfl, by decide⟩ ⟨rfl, by decide⟩ (by decide)
      (.inr (by decide)) rfl (by decide)).1.trans (by decide +kernel)⟩

/-! ## Numbers of any kind -/

/-- A number that ends in the letter of an exponent is a hexadecimal integer. -/
theorem take_of_endsInExponentLetter (h : Given l low)
    (hends : endsInExponentLetter (Text.trim l.toList) = true) :
    ((Text.trim l.toList).map Char.toLower).take 2 = ['0', 'x'] := by
  rw [endsInExponentLetter, Text.trimEnd_eq_self (Text.ends_trim l.toList).2] at hends
  cases hlast : (Text.trim l.toList).getLast? with
  | none =>
    rw [hlast] at hends
    exact absurd hends Bool.false_ne_true
  | some c =>
    rw [hlast, Bool.or_eq_true, beq_iff_eq, beq_iff_eq] at hends
    exact Number.take_of_getLast? h.number hlast hends

/-- With a hyphen behind it a radix integer is no number. -/
theorem ofToken?_append_hyphen (hp : Prefixed text)
    (hhead : ∀ c ∈ text.head?, Text.isBlank c = false)
    (hb' : Text.isBlankText b' = true) :
    Text.trim (text ++ b ++ '-' :: b') ≠ [] ∧
      Number.ofToken? (Text.trim (text ++ b ++ '-' :: b')) = none := by
  have hne : text ≠ [] := by
    rintro rfl
    exact absurd hp (by decide)
  have htrim : Text.trim (text ++ b ++ '-' :: b') = text ++ (b ++ ['-']) := by
    have hbehind := Text.trim_append_right (text ++ (b ++ ['-'])) hb'
    rw [List.append_assoc, List.append_assoc] at hbehind
    rw [List.append_assoc]
    refine hbehind.trans (Text.trim_eq_self (fun c hc => hhead c ?_) fun c hc => ?_)
    · rwa [List.head?_append_of_ne_nil _ hne] at hc
    · rw [← List.append_assoc, List.getLast?_concat, Option.mem_some] at hc
      subst hc
      decide
  rw [htrim]
  refine ⟨List.append_ne_nil_of_left_ne_nil hne _, ?_⟩
  refine Option.eq_none_iff_forall_ne_some.2 fun y hy => ?_
  exact Number.not_mem_of_prefixed hy (hp.append _) (by simp)

/-- What is left of a number without its minus is not blank. -/
theorem trim_ne_nil_of_hyphen (hu : Number.ofToken? ('-' :: text) = some high)
    (htrim : Text.trim ('-' :: text) = '-' :: text) : Text.trim text ≠ [] := by
  intro hnil
  have hblank := (Text.trim_eq_nil_iff text).1 hnil
  have hminus : '-' :: text = ['-'] := htrim.symm.trans (Text.trim_append_right ['-'] hblank)
  rw [hminus] at hu
  exact absurd hu nofun

/-- **A range of two numbers is cut between them**, unless the lower one is a hexadecimal integer
that ends in the digit `e`: the hyphen behind it is taken for the sign of an exponent.  Then there
is no cut, or one at the minus of the upper number. -/
theorem check_of_numbers (hl : Given l low) (hu : Given u high) :
    check (l ++ "-" ++ u) .empty =
        (if endsInExponentLetter (Text.trim l.toList) then
          if (Text.trim u.toList).head? = some '-' then [Number.kindNumber] else [kindRange]
        else Number.failing kindRange (high.lt low)) ∧
      (endsInExponentLetter (Text.trim l.toList) = true →
        ((Text.trim l.toList).map Char.toLower).take 2 = ['0', 'x']) := by
  have hnil : Text.isBlankText [] = true := rfl
  obtain ⟨b, b', hb, hb', hjoined⟩ := exists_trim_joined ['-'] hnil hnil hnil hnil hl.ne_nil
    hu.ne_nil
  have hvalue : Text.trim (l ++ "-" ++ u).toList =
      Text.trim l.toList ++ b ++ '-' :: (b' ++ Text.trim u.toList) := by
    simpa using hjoined
  refine ⟨?_, take_of_endsInExponentLetter hl⟩
  split
  · next hends =>
    -- what is cut off in front, if anything, ends in the hyphen and is refused as a number
    have hp : Prefixed (Text.trim l.toList) := by
      rw [Prefixed, take_of_endsInExponentLetter hl hends]
      decide
    obtain ⟨hnone, hsome⟩ := cut?_letter hl.number hl.ne_nil hends hb hb' hu.number hu.ne_nil
    split
    · next hminus =>
      obtain ⟨s, hs⟩ := List.head?_eq_some_iff.1 hminus
      have hcut : bounds? (Text.trim (l ++ "-" ++ u).toList) ['-'] false =
          some (Text.trim l.toList ++ b ++ '-' :: b', s) :=
        hvalue ▸ bounds?_of_cut? (hsome s hs) false
      obtain ⟨hlower, hrefused⟩ := ofToken?_append_hyphen (b := b) hp
        (Text.ends_trim l.toList).1 hb'
      have hread : Number.ofToken? ('-' :: s) = some high := hs ▸ hu.number
      exact check_of_refused hcut hlower hrefused
        (trim_ne_nil_of_hyphen hread (hs ▸ Text.trim_trim u.toList))
    · next hminus =>
      have hcut : bounds? (Text.trim (l ++ "-" ++ u).toList) ['-'] false = none := by
        rw [hvalue, bounds?, hnone hminus]
        rfl
      exact check_of_none rfl hcut
  · next hends =>
    have hcut := cut?_number hl.number hl.ne_nil (eq_false_of_ne_true hends) hb
      (b' ++ Text.trim u.toList)
    have hbounds : bounds? (Text.trim (l ++ "-" ++ u).toList) ['-'] false =
        some (Text.trim l.toList ++ b, b' ++ Text.trim u.toList) :=
      hvalue ▸ bounds?_of_cut? hcut false
    rw [check_of_given hl hu rfl hbounds (Text.trim_trim_append _ hb)
      (Text.trim_append_trim _ hb'), hl.check_empty, hu.check_empty]
    cases high.lt low <;> rfl

theorem check_of_numbers_of_radixes :
    Given "0xFF" (.ofNat 255) ∧ Given "-0.5e-1" (.ofDecimal true 5 (-2)) ∧
      check ("0xFF" ++ "-" ++ "-0.5e-1") .empty = [kindRange] := by
  have hl : Given "0xFF" (.ofNat 255) := ⟨by decide +kernel, by decide⟩
  have hu : Given "-0.5e-1" (.ofDecimal true 5 (-2)) := ⟨by decide +kernel, by decide⟩
  exact ⟨hl, hu, (check_of_numbers hl hu).1.trans (by decide +kernel)⟩

/-- Fourteen and fifteen are both below twenty, but only one of them makes a range with it. -/
theorem last_digit_shows :
    Given "0xe" (.ofNat 14) ∧ Given "0xf" (.ofNat 15) ∧ Given "20" (.ofNat 20) ∧
      (Binary64.ofNat 14).lt (.ofNat 20) = true ∧ (Binary64.ofNat 15).lt (.ofNat 20) = true ∧
      check ("0xe" ++ "-" ++ "20") .empty = [kindRange] ∧
      check ("0xf" ++ "-" ++ "20") .empty = [] :=
  ⟨⟨by decide +kernel, by decide⟩, ⟨by decide +kernel, by decide⟩, ⟨by decide +kernel, by decide⟩,
    by decide +kernel, by decide +kernel, by decide +kernel, by decide +kernel⟩

end TreeRules.Check.Range
