import TreeRules.Check.Range
import TreeRules.Proofs.Check.Number

/-!
# Proofs/Check/Cutting — where the text of a range is cut

A separator cuts where it first stands behind something that does not end in the letter of an
exponent (`cut?_here`); where its characters do not occur it is looked for further on
(`cut?_append`).  With the hyphen for a separator this passes over every number, since the minuses
in a number stand where nothing is cut (`exists_uncut`), and then cuts behind it — unless the number
is a hexadecimal one that ends in the digit `e`.
-/

namespace TreeRules.Check.Range

variable {s t b before rest separator : List Char} {c : Char} {x : Binary64}

/-! ## Behind the letter of an exponent -/

theorem endsInExponentLetter_append_blank (s : List Char) (hb : Text.isBlankText b = true) :
    endsInExponentLetter (s ++ b) = endsInExponentLetter s := by
  rw [endsInExponentLetter, endsInExponentLetter, Text.trimEnd_append_blank s hb]

theorem endsInExponentLetter_concat (s : List Char) (hc : Text.isBlank c = false) :
    endsInExponentLetter (s ++ [c]) = (c == 'e' || c == 'E') := by
  rw [endsInExponentLetter, Text.trimEnd_concat, if_neg (ne_true_of_eq_false hc),
    List.getLast?_concat]

/-- What a separator may stand behind. -/
def Cuttable (before : List Char) : Prop := before ≠ [] ∧ endsInExponentLetter before = false

theorem cuttable_iff :
    Cuttable before ↔ (!before.isEmpty && !endsInExponentLetter before) = true := by
  simp [Cuttable]

theorem Cuttable.append_blank (h : Cuttable s) (hb : Text.isBlankText b = true) :
    Cuttable (s ++ b) :=
  ⟨List.append_ne_nil_of_left_ne_nil h.1 b, by rw [endsInExponentLetter_append_blank s hb, h.2]⟩

/-! ## Cutting -/

theorem cut?_nil (separator before : List Char) : cut? separator before [] = none := by
  rw [cut?]

theorem cut?_cons (separator before : List Char) (c : Char) (s : List Char) :
    cut? separator before (c :: s) =
      if separator.isPrefixOf (c :: s) && 0 < separator.length then
        if !before.isEmpty && !endsInExponentLetter before then
          some (before, (c :: s).drop separator.length)
        else
          cut? separator (before ++ separator) ((c :: s).drop separator.length)
      else cut? separator (before ++ [c]) s := by
  rw [cut?]

/-- The separator cuts at once. -/
theorem cut?_here (hne : separator ≠ []) (h : Cuttable before) (rest : List Char) :
    cut? separator before (separator ++ rest) = some (before, rest) := by
  obtain ⟨c, s, rfl⟩ := List.exists_cons_of_ne_nil hne
  have hprefix : (c :: s).isPrefixOf (c :: (s ++ rest)) = true :=
    List.isPrefixOf_iff_prefix.2 (List.prefix_append (c :: s) rest)
  rw [List.cons_append, cut?_cons, hprefix, if_pos (by simp), if_pos (cuttable_iff.1 h),
    ← List.cons_append, List.drop_left]

/-- Nothing cuts where the separator has none of the characters. -/
theorem cut?_append (h : ∀ c ∈ s, c ∉ separator) (before rest : List Char) :
    cut? separator before (s ++ rest) = cut? separator (before ++ s) rest := by
  induction s generalizing before with
  | nil => rw [List.nil_append, List.append_nil]
  | cons c s ih =>
    have hno : ¬ ((separator.isPrefixOf (c :: (s ++ rest)) && 0 < separator.length) = true) := by
      intro hyes
      cases separator with
      | nil => exact absurd hyes (by simp)
      | cons d separator =>
        rw [List.isPrefixOf_cons_cons, Bool.and_eq_true, Bool.and_eq_true] at hyes
        obtain rfl : d = c := eq_of_beq hyes.1.1
        exact h d List.mem_cons_self List.mem_cons_self
    rw [List.cons_append, cut?_cons, if_neg hno, ih fun d hd => h d (List.mem_cons_of_mem c hd),
      List.append_assoc, List.singleton_append]

/-- A hyphen does not cut where it may not. -/
theorem cut?_hyphen (h : ¬ Cuttable before) (rest : List Char) :
    cut? ['-'] before ('-' :: rest) = cut? ['-'] (before ++ ['-']) rest := by
  rw [cut?_cons, if_pos (by simp), if_neg (mt cuttable_iff.2 h)]
  rfl

/-! ## Hyphens in numbers -/

/-- Nothing in the text is cut at a hyphen, whatever comes before and behind. -/
def Uncut (s : List Char) : Prop :=
  ∀ before rest, cut? ['-'] before (s ++ rest) = cut? ['-'] (before ++ s) rest

theorem uncut_of_not_mem (h : '-' ∉ s) : Uncut s :=
  cut?_append fun _ hc hmem => h (List.mem_singleton.1 hmem ▸ hc)

theorem Uncut.append (hs : Uncut s) (ht : Uncut t) : Uncut (s ++ t) := by
  intro before rest
  rw [List.append_assoc, hs, ht, List.append_assoc]

theorem uncut_of_isBlankText (h : Text.isBlankText b = true) : Uncut b :=
  uncut_of_not_mem fun hmem => absurd (List.all_eq_true.1 h _ hmem) (by decide)

theorem uncut_of_digits (h : Literal.Digits s) : Uncut s :=
  uncut_of_not_mem fun hmem => absurd (h _ hmem) (by decide)

/-- Behind its letter the minus of an exponent does not cut. -/
theorem uncut_of_exponentText {n : Int} (h : Literal.ExponentText s n) : Uncut s := by
  cases h with
  | none => exact uncut_of_not_mem List.not_mem_nil
  | @letter c s d _ hc hs hd _ =>
    have hletter : c ≠ '-' := by rcases hc with rfl | rfl <;> decide
    have hsign : Uncut (c :: s) := by
      cases hs with
      | none => exact uncut_of_not_mem (by simp [hletter.symm])
      | plus => exact uncut_of_not_mem (by simp [hletter.symm])
      | minus =>
        intro before rest
        have hends : ¬ Cuttable (before ++ [c]) := by
          rintro ⟨-, hends⟩
          rcases hc with rfl | rfl
          · rw [endsInExponentLetter_concat _ (by decide)] at hends
            exact absurd hends (by decide)
          · rw [endsInExponentLetter_concat _ (by decide)] at hends
            exact absurd hends (by decide)
        have hfirst := uncut_of_not_mem (s := [c]) (by simp [hletter.symm])
        calc cut? ['-'] before ([c] ++ '-' :: rest) = cut? ['-'] (before ++ [c]) ('-' :: rest) :=
              hfirst before _
          _ = cut? ['-'] (before ++ [c] ++ ['-']) rest := cut?_hyphen hends rest
          _ = cut? ['-'] (before ++ [c, '-']) rest := by rw [List.append_assoc]; rfl
    exact hsign.append (uncut_of_digits hd)

/-- There is a character, and no minus. -/
theorem minus_of_coefficientText {w f : List Char} (h : Literal.CoefficientText s w f) :
    s ≠ [] ∧ '-' ∉ s := by
  have hdigits {d : List Char} (hd : Literal.Digits d) : '-' ∉ d := fun hmem =>
    absurd (hd _ hmem) (by decide)
  cases h with
  | whole hw ne => exact ⟨ne, hdigits hw⟩
  | point hw hf =>
    refine ⟨List.append_ne_nil_of_right_ne_nil _ (List.cons_ne_nil _ _), ?_⟩
    rw [List.mem_append, List.mem_cons, not_or, not_or]
    exact ⟨hdigits hw, by decide, hdigits hf⟩

/-- **A number has a minus at its beginning or none, and nothing else in it is cut.** -/
theorem exists_uncut (h : Number.ofToken? t = some x) (hne : t ≠ []) :
    ∃ s, s ≠ [] ∧ s.head? ≠ some '-' ∧ Uncut s ∧ (t = s ∨ t = '-' :: s) := by
  have hplain {s : List Char} (hne : s ≠ []) (hminus : '-' ∉ s) :
      s ≠ [] ∧ s.head? ≠ some '-' ∧ Uncut s :=
    ⟨hne, fun hhead => hminus (List.mem_of_mem_head? hhead), uncut_of_not_mem hminus⟩
  by_cases hp : Number.Prefixed t
  · obtain ⟨hne, hhead, huncut⟩ := hplain hne (Number.not_mem_of_prefixed h hp)
    exact ⟨t, hne, hhead, huncut, .inl rfl⟩
  · obtain ⟨-, ht | ⟨p, ht⟩⟩ := (Number.ofToken?_cases h hne).resolve_left fun hno => hp hno.1
    · have hall : ∀ t ∈ Number.infinities, ∃ s, s ≠ [] ∧ '-' ∉ s ∧ (t = s ∨ t = '-' :: s) := by
        intro t ht
        simp only [Number.infinities, List.mem_cons, List.not_mem_nil, or_false] at ht
        rcases ht with rfl | rfl | rfl
        · exact ⟨_, by decide, by decide, .inl rfl⟩
        · exact ⟨_, by decide, by decide, .inl rfl⟩
        · exact ⟨"Infinity".toList, by decide, by decide, .inr (by decide)⟩
      obtain ⟨s, hne, hminus, ht⟩ := hall t ht
      obtain ⟨hne, hhead, huncut⟩ := hplain hne hminus
      exact ⟨s, hne, hhead, huncut, ht⟩
    · cases ht with
      | @parts w m e _ _ _ _ hs hm he =>
        obtain ⟨hm', hminus⟩ := minus_of_coefficientText hm
        have hunsigned {w : List Char} (hw : '-' ∉ w) :
            w ++ m ++ e ≠ [] ∧ (w ++ m ++ e).head? ≠ some '-' ∧ Uncut (w ++ m ++ e) := by
          have hboth : '-' ∉ w ++ m := by
            rw [List.mem_append, not_or]
            exact ⟨hw, hminus⟩
          have hne : w ++ m ≠ [] := List.append_ne_nil_of_right_ne_nil w hm'
          refine ⟨List.append_ne_nil_of_left_ne_nil hne e, fun hhead => hboth ?_, ?_⟩
          · rw [List.head?_append_of_ne_nil _ hne] at hhead
            exact List.mem_of_mem_head? hhead
          · exact (uncut_of_not_mem hboth).append (uncut_of_exponentText he)
        cases hs with
        | none =>
          obtain ⟨hne, hhead, huncut⟩ := hunsigned List.not_mem_nil
          exact ⟨_, hne, hhead, huncut, .inl rfl⟩
        | plus =>
          obtain ⟨hne, hhead, huncut⟩ := hunsigned (w := ['+']) (by decide)
          exact ⟨_, hne, hhead, huncut, .inl rfl⟩
        | minus =>
          obtain ⟨hne, hhead, huncut⟩ := hunsigned List.not_mem_nil
          exact ⟨_, hne, hhead, huncut, .inr rfl⟩

/-- A number is passed over. -/
theorem cut?_past (h : Number.ofToken? t = some x) (hne : t ≠ []) (rest : List Char) :
    cut? ['-'] [] (t ++ rest) = cut? ['-'] t rest := by
  obtain ⟨s, -, -, huncut, rfl | rfl⟩ := exists_uncut h hne
  · exact huncut [] rest
  · have hfirst : ¬ Cuttable [] := fun hno => hno.1 rfl
    rw [List.cons_append, cut?_hyphen hfirst, huncut]
    rfl

/-- **Behind a number there is a cut**, unless it ends in the letter of an exponent. -/
theorem cut?_number (h : Number.ofToken? t = some x) (hne : t ≠ [])
    (hends : endsInExponentLetter t = false) (hb : Text.isBlankText b = true) (rest : List Char) :
    cut? ['-'] [] (t ++ b ++ '-' :: rest) = some (t ++ b, rest) := by
  rw [List.append_assoc, cut?_past h hne, uncut_of_isBlankText hb]
  exact cut?_here (List.cons_ne_nil _ _) (Cuttable.append_blank ⟨hne, hends⟩ hb) rest

/-- No character is blank or can stand in a decimal literal. -/
def Foreign (separator : List Char) : Prop :=
  ∀ c ∈ separator, Text.isBlank c = false ∧ Number.isLiteralChar c = false

instance (separator : List Char) : Decidable (Foreign separator) :=
  List.decidableBAll _ separator

/-- **Behind a decimal literal there is a cut**, at a hyphen as at anything foreign. -/
theorem cut?_decimal (h : Number.ofToken? t = some x) (hne : t ≠ []) (hp : ¬ Number.Prefixed t)
    (hb : Text.isBlankText b = true) (hsep : separator ≠ [])
    (hforeign : separator = ['-'] ∨ Foreign separator) (rest : List Char) :
    cut? separator [] (t ++ b ++ separator ++ rest) = some (t ++ b, rest) := by
  have hends : endsInExponentLetter t = false := by
    obtain ⟨r, c, rfl, hc, hlower, hupper⟩ := Number.exists_concat h hne hp
    rw [endsInExponentLetter_concat r hc, beq_false_of_ne hlower, beq_false_of_ne hupper]
    rfl
  rcases hforeign with rfl | hforeign
  · rw [List.append_assoc _ ['-'] rest]
    exact cut?_number h hne hends hb rest
  · have hno : ∀ c ∈ t ++ b, c ∉ separator := by
      intro c hc hmem
      obtain ⟨hblank, hliteral⟩ := hforeign c hmem
      rcases List.mem_append.1 hc with hc | hc
      · exact absurd ((Number.isLiteralChar_of_mem h hne hp hc).symm.trans hliteral) nofun
      · exact absurd ((List.all_eq_true.1 hb c hc).symm.trans hblank) nofun
    rw [List.append_assoc _ separator rest, cut?_append hno]
    exact cut?_here hsep (Cuttable.append_blank ⟨hne, hends⟩ hb) rest

/-- Behind a number that ends in that letter the hyphen is passed over as well, and only the
minus of another number behind it cuts. -/
theorem cut?_letter {u b' : List Char} {y : Binary64} (h : Number.ofToken? t = some x)
    (hne : t ≠ []) (hends : endsInExponentLetter t = true) (hb : Text.isBlankText b = true)
    (hb' : Text.isBlankText b' = true) (hu : Number.ofToken? u = some y) (hune : u ≠ []) :
    (u.head? ≠ some '-' → cut? ['-'] [] (t ++ b ++ '-' :: (b' ++ u)) = none) ∧
      ∀ s, u = '-' :: s →
        cut? ['-'] [] (t ++ b ++ '-' :: (b' ++ u)) = some (t ++ b ++ '-' :: b', s) := by
  have hbarred : ¬ Cuttable (t ++ b) := fun hcut => by
    rw [Cuttable, endsInExponentLetter_append_blank t hb, hends] at hcut
    exact absurd hcut.2 nofun
  have hpast : cut? ['-'] [] (t ++ b ++ '-' :: (b' ++ u)) =
      cut? ['-'] (t ++ b ++ '-' :: b') u := by
    rw [List.append_assoc, cut?_past h hne, uncut_of_isBlankText hb, cut?_hyphen hbarred,
      uncut_of_isBlankText hb', List.append_assoc _ ['-'] b']
    rfl
  constructor
  · intro hhead
    obtain ⟨s, -, -, huncut, rfl | rfl⟩ := exists_uncut hu hune
    · have hend := huncut (t ++ b ++ '-' :: b') []
      rwa [List.append_nil, cut?_nil, ← hpast] at hend
    · exact absurd rfl hhead
  · rintro s rfl
    have hcut : Cuttable (t ++ b ++ '-' :: b') := by
      have hhyphen : Cuttable (t ++ b ++ ['-']) :=
        ⟨by simp, by rw [endsInExponentLetter_concat _ (by decide)]; decide⟩
      have := hhyphen.append_blank hb'
      rwa [List.append_assoc _ ['-'] b'] at this
    rw [hpast]
    exact cut?_here (List.cons_ne_nil _ _) hcut s

end TreeRules.Check.Range
