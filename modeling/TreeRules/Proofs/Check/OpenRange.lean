import TreeRules.Proofs.Check.NumberText
import TreeRules.Proofs.Check.Range

/-!
# Proofs/Check/OpenRange — a range with one bound is judged by that bound

Where a range may be open, a hyphen behind a decimal literal leaves the upper bound away, and a
hyphen in front of one leaves the lower bound away — but only if the literal has no minus.  In front
of a minus the hyphen is taken for a sign that begins the lower bound, and the minus cuts
(`check_of_open_decimal`).
-/

namespace TreeRules.Check

namespace Number

variable {t : List Char} {value : String} {options : Options} {x : Binary64}

/-! ## One bound -/

/-- Nothing is reported twice. -/
theorem nodup_check (value : String) (options : Options) : (check value options).Nodup := by
  have hkinds : [kindMin, kindMax, kindStep, kindNoScientific].Nodup := by decide
  rcases check_cases value options with h | h
  · rw [h]
    exact List.pairwise_singleton _ kindNumber
  · exact hkinds.sublist h

/-- A number without a mark has no blanks in it. -/
theorem trim_of_ofToken? (h : ofToken? t = some x) (hne : t ≠ []) (hp : ¬ Prefixed t) :
    Text.trim t = t := by
  have hplain : ∀ c ∈ t, Text.isBlank c = false := by
    intro c hc
    refine eq_false_of_ne_true fun hblank => ?_
    have hliteral := isLiteralChar_of_mem h hne hp hc
    rw [isLiteralChar, Text.isAlphanumeric_of_isBlank hblank, Bool.false_or, Bool.or_eq_true,
      Bool.or_eq_true, beq_iff_eq, beq_iff_eq, beq_iff_eq] at hliteral
    rcases hliteral with (rfl | rfl) | rfl <;> exact absurd hblank (by decide)
  exact Text.trim_eq_self (fun c hc => hplain c (List.mem_of_mem_head? hc)) fun c hc =>
    hplain c (List.mem_of_mem_getLast? hc)

end Number

namespace Range

open Number (Given Prefixed)

variable {l b value : String} {x : Binary64} {options : Options} {lower upper : List Char}

theorem distinct_of_nodup {kinds : List String} (h : kinds.Nodup) : distinct kinds = kinds := by
  rw [distinct]
  induction kinds with
  | nil => rfl
  | cons k kinds ih =>
    obtain ⟨hk, hkinds⟩ := List.nodup_cons.1 h
    have hfilter : kinds.filter (fun k' => !k' == k) = kinds :=
      List.filter_eq_self.2 fun k' hk' => by simpa using fun heq : k' = k => hk (heq ▸ hk')
    rw [List.eraseDups_cons, hfilter, ih hkinds]

/-- In an open range a bound may be left away. -/
theorem checkBound_of_blank {text : List Char} (h : Text.isBlankText text = true)
    (options : Options) : checkBound text true options = ([], none) := by
  rw [checkBound, (Text.trim_eq_nil_iff text).2 h]
  rfl

/-! ## The hyphen at an end -/

/-- A hyphen behind a text stays behind it when the blanks are taken away. -/
theorem exists_trim_behind {s : List Char} (hs : Text.trim s ≠ []) :
    ∃ b, Text.isBlankText b = true ∧ Text.trim (s ++ ['-']) = Text.trim s ++ b ++ ['-'] := by
  obtain ⟨a, a', ha, ha', hs'⟩ := Text.exists_blank_append s
  refine ⟨a', ha', ?_⟩
  have hself : Text.trim (Text.trim s ++ a' ++ ['-']) = Text.trim s ++ a' ++ ['-'] := by
    refine Text.trim_eq_self (fun c hc => (Text.ends_trim s).1 c ?_) fun c hc => ?_
    · rwa [List.append_assoc, List.head?_append_of_ne_nil _ hs] at hc
    · rw [List.getLast?_concat, Option.mem_some] at hc
      subst hc
      decide
  calc Text.trim (s ++ ['-']) = Text.trim (a ++ (Text.trim s ++ a' ++ ['-'])) := by
        conv_lhs => rw [hs']
        simp only [List.append_assoc]
    _ = _ := by rw [Text.trim_append_left _ ha, hself]

/-- A hyphen in front of a text stays in front of it. -/
theorem exists_trim_front {s : List Char} (hs : Text.trim s ≠ []) :
    ∃ b, Text.isBlankText b = true ∧ Text.trim ('-' :: s) = '-' :: (b ++ Text.trim s) := by
  obtain ⟨a, a', ha, ha', hs'⟩ := Text.exists_blank_append s
  refine ⟨a, ha, ?_⟩
  have hself : Text.trim ('-' :: (a ++ Text.trim s)) = '-' :: (a ++ Text.trim s) := by
    refine Text.trim_eq_self (fun c hc => ?_) fun c hc => (Text.ends_trim s).2 c ?_
    · obtain rfl := Option.some.inj hc
      decide
    · rwa [← List.cons_append, List.getLast?_append_of_ne_nil _ hs] at hc
  calc Text.trim ('-' :: s) = Text.trim ('-' :: (a ++ Text.trim s) ++ a') := by
        conv_lhs => rw [hs']
        simp only [List.cons_append]
    _ = _ := by rw [Text.trim_append_right _ ha', hself]

/-! ## Cutting at an end -/

/-- In front of a number without a minus the hyphen is a separator. -/
theorem bounds?_front {t : List Char} (h : Number.ofToken? t = some x) (hne : t ≠ [])
    (hhead : t.head? ≠ some '-') (hb : Text.isBlankText lower = true) :
    bounds? ('-' :: (lower ++ t)) ['-'] true = some ([], lower ++ t) := by
  obtain ⟨s, -, -, huncut, rfl | rfl⟩ := exists_uncut h hne
  · have hnone : cut? ['-'] [] ('-' :: (lower ++ t)) = none := by
      have hend := huncut ([] ++ ['-'] ++ lower) []
      rw [List.append_nil, cut?_nil] at hend
      rw [cut?_hyphen fun hno => hno.1 rfl, uncut_of_isBlankText hb, hend]
    rw [bounds?, hnone]
    rfl
  · exact absurd rfl hhead

/-- In front of a minus it begins the lower bound, and the minus cuts. -/
theorem bounds?_minus {s : List Char} (hb : Text.isBlankText lower = true) (openEnded : Bool) :
    bounds? ('-' :: (lower ++ '-' :: s)) ['-'] openEnded = some ('-' :: lower, s) := by
  have hcut : Cuttable ('-' :: lower) := by
    have hhyphen : Cuttable ['-'] := ⟨List.cons_ne_nil _ _, by decide⟩
    exact hhyphen.append_blank hb
  refine bounds?_of_cut? ?_ openEnded
  rw [cut?_hyphen fun hno => hno.1 rfl, uncut_of_isBlankText hb]
  exact cut?_here (List.cons_ne_nil _ _) hcut s

/-! ## The check -/

/-- What is cut into a number and nothing else is judged as the number. -/
theorem check_of_one (hb : Given b x) (hopen : options.flag "openEnded" = true)
    (hspaces : options.flag "noSpaces" = false)
    (hcut : bounds? (Text.trim value.toList) (separator options).toList
      (options.flag "openEnded") = some (lower, upper))
    (hone : Text.trim lower = Text.trim b.toList ∧ Text.isBlankText upper = true ∨
      Text.isBlankText lower = true ∧ Text.trim upper = Text.trim b.toList) :
    check value options = Number.check b options := by
  have hnodup := distinct_of_nodup (Number.nodup_check b options)
  have hwritten {text : List Char} (ht : Text.trim text = Text.trim b.toList) :
      Text.isBlankText text = false := eq_false_of_ne_true fun hblank =>
    hb.ne_nil (ht.symm.trans ((Text.trim_eq_nil_iff text).2 hblank))
  rcases hone with ⟨hlower, hupper⟩ | ⟨hlower, hupper⟩
  · rw [check_of_bounds? hspaces hcut (by rw [hwritten hlower]; rfl), hopen,
      checkBound_of_given hb hlower, checkBound_of_blank hupper]
    simpa [reversed, Number.failing] using hnodup
  · rw [check_of_bounds? hspaces hcut (by rw [hwritten hupper, Bool.and_false]), hopen,
      checkBound_of_blank hlower, checkBound_of_given hb hupper]
    simpa [reversed, Number.failing] using hnodup

/-- A lower bound of nothing but a hyphen is no number. -/
theorem check_of_hyphen {s : List Char} {y : Binary64} (hs : Given (String.ofList s) y)
    (hspaces : options.flag "noSpaces" = false) (hb : Text.isBlankText lower = true)
    (hcut : bounds? (Text.trim value.toList) (separator options).toList
      (options.flag "openEnded") = some ('-' :: lower, s)) :
    check value options = Number.kindNumber :: Number.check (String.ofList s) options := by
  have htrim : Text.trim ('-' :: lower) = ['-'] := Text.trim_append_right ['-'] hb
  have hlower : checkBound ('-' :: lower) (options.flag "openEnded") options =
      ([Number.kindNumber], none) := by
    have hrefused : Number.check (String.ofList ['-']) options = [Number.kindNumber] := by
      rw [Number.check, show Number.ofText? (String.ofList ['-']) = none by decide]
    rw [checkBound, htrim]
    dsimp only
    rw [if_neg (List.cons_ne_nil _ _), hrefused]
    rfl
  have hupper : checkBound s (options.flag "openEnded") options =
      (Number.check (String.ofList s) options, some y) :=
    checkBound_of_given hs (by rw [String.toList_ofList]) _ _
  have hnot : Number.kindNumber ∉ Number.check (String.ofList s) options := fun hmem =>
    absurd (Number.mem_of_mem_check hs.number hmem) (by decide)
  rw [check_of_bounds? hspaces hcut rfl, hlower, hupper]
  simpa [reversed, Number.failing] using
    distinct_of_nodup (List.nodup_cons.2 ⟨hnot, Number.nodup_check _ options⟩)

/-- **A range with one bound is judged by that bound**: by a decimal literal in front of the hyphen,
and by one behind it that has no minus.  In front of a minus the hyphen is refused as a lower bound,
and what follows the minus is judged as the upper one. -/
theorem check_of_open_decimal (hb : Given b x) (hdecimal : ¬ Prefixed (Text.trim b.toList))
    (hopen : options.flag "openEnded" = true) (hseparator : separator options = "-")
    (hspaces : options.flag "noSpaces" = false) :
    check (b ++ "-") options = Number.check b options ∧
      ((Text.trim b.toList).head? ≠ some '-' →
        check ("-" ++ b) options = Number.check b options) ∧
      ∀ s, Text.trim b.toList = '-' :: s →
        check ("-" ++ b) options = Number.kindNumber :: Number.check (String.ofList s) options := by
  have hone : "-".toList = ['-'] := rfl
  have hnil : Text.isBlankText [] = true := rfl
  constructor
  · obtain ⟨a, ha, htrim⟩ := exists_trim_behind hb.ne_nil
    have hcut := cut?_decimal hb.number hb.ne_nil hdecimal ha (List.cons_ne_nil _ _) (.inl rfl) []
    rw [List.append_nil] at hcut
    refine check_of_one hb hopen hspaces ?_ (.inl ⟨Text.trim_trim_append b.toList ha, hnil⟩)
    rw [String.toList_append, hseparator, hone, htrim]
    exact bounds?_of_cut? hcut _
  · obtain ⟨a, ha, htrim⟩ := exists_trim_front hb.ne_nil
    have hvalue : Text.trim ("-" ++ b).toList = '-' :: (a ++ Text.trim b.toList) := by
      rw [String.toList_append, hone, List.singleton_append, htrim]
    constructor
    · intro hhead
      refine check_of_one hb hopen hspaces ?_ (.inr ⟨hnil, Text.trim_append_trim b.toList ha⟩)
      rw [hvalue, hseparator, hone, hopen]
      exact bounds?_front hb.number hb.ne_nil hhead ha
    · intro s hs
      have hread : Number.ofToken? ('-' :: s) = some x := hs ▸ hb.number
      obtain ⟨hp, y, hy⟩ := Number.exists_of_minus hread
      have hne : s ≠ [] := by
        rintro rfl
        exact absurd hread nofun
      have htrim := Number.trim_of_ofToken? hy hne hp
      have hgiven : Given (String.ofList s) y := by
        refine ⟨?_, eq_false_of_ne_true fun hblank => ?_⟩
        · rw [Number.ofText?, String.toList_ofList, htrim, hy]
        · rw [isBlankString, String.toList_ofList, ← Text.trim_eq_nil_iff, htrim] at hblank
          exact hne hblank
      refine check_of_hyphen hgiven hspaces ha ?_
      rw [hvalue, hs, hseparator, hone]
      exact bounds?_minus ha _

/-- With the minus of an exponent, and with one of its own: an upper bound of minus five is below
the least number that is asked for, but it is five that is compared. -/
theorem check_of_open_decimal_of_minuses :
    let opened : Options := (Table.empty.insert "openEnded" (.bool true)).insert "min" (.int 0)
    check "-1e-5 -" opened = [Number.kindMin] ∧ check "- +1e-5" opened = [] ∧
      check "- -5" opened = [Number.kindNumber] := by
  intro opened
  have hflag : opened.flag "openEnded" = true := by decide
  have hspaces : opened.flag "noSpaces" = false := by decide
  have hseparator : separator opened = "-" := by decide
  obtain ⟨hbehind, -, -⟩ := check_of_open_decimal (b := "-1e-5 ") ⟨rfl, by decide⟩ (by decide)
    hflag hseparator hspaces
  obtain ⟨-, hfront, -⟩ := check_of_open_decimal (b := " +1e-5") ⟨rfl, by decide⟩ (by decide)
    hflag hseparator hspaces
  obtain ⟨-, -, hminus⟩ := check_of_open_decimal (b := " -5") ⟨rfl, by decide⟩ (by decide)
    hflag hseparator hspaces
  exact ⟨hbehind.trans (by decide +kernel), (hfront (by decide)).trans (by decide +kernel),
    (hminus ['5'] (by decide)).trans (by decide +kernel)⟩

/-- Minus five is a number and is not refused, but as an upper bound it is. -/
theorem minus_of_upper_bound_shows :
    let opened : Options := Table.empty.insert "openEnded" (.bool true)
    Given "-5" (.ofDecimal true 5 0) ∧ opened.flag "openEnded" = true ∧ separator opened = "-" ∧
      opened.flag "noSpaces" = false ∧ Number.check "-5" opened = [] ∧
      check ("-" ++ "-5") opened = [Number.kindNumber] :=
  ⟨⟨by decide +kernel, by decide⟩, by decide, by decide, by decide, by decide +kernel,
    by decide +kernel⟩

end Range

end TreeRules.Check
