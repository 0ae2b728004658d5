import TreeRules.Pattern.Escape
import TreeRules.Proofs.Pattern.Local

/-!
# Proofs/Pattern/Escape — escapes are read locally

What an escape stands for does not depend on what stands from a closing parenthesis on
(`Escape.localOn_read`).  One place does look further: after the escape of a word edge, a brace
that is the last mark of the text could begin a name, while before a closing parenthesis it cannot
(`Escape.Settled`).
-/

namespace TreeRules.Pattern

variable {ignoring : Bool} {c : Char} {s : List Char}

namespace Escape

/-! ## Characters by number -/

/-- So many digits are taken one by one, with blanks between them that are skipped. -/
theorem local_hexDigits (ignoring : Bool) (count : Nat) : Local [] (hexDigits ignoring count) := by
  induction count with
  | zero => exact .done []
  | succ count ih =>
    refine .of_cons_taking false (fun s => rfl) rfl (fun x s h => ?_) fun c _ => ?_
    · rw [hexDigits, if_neg (by decide)] at h
      cases h
    · by_cases hc : isHexDigit c = true
      · simp only [hexDigits, if_pos hc]
        exact (ih.skip ignoring).map fun _ => ⟨_, fun _ => rfl⟩
      · simp only [hexDigits, if_neg hc]
        exact .fail

/-- The number of digits that a letter asks for. -/
def hexCount (letter : Char) : Nat := if letter = 'x' then 2 else if letter = 'u' then 4 else 8

/-- No letter asks for no digits, so there has to be one. -/
theorem hexDigits_eq_none (letter : Char) (hs : s.head?.any isHexDigit = false) :
    hexDigits ignoring (hexCount letter) s = none := by
  have hcount : hexCount letter ≠ 0 := by
    unfold hexCount
    split
    · decide
    · split <;> decide
  obtain ⟨n, hn⟩ := Nat.exists_eq_succ_of_ne_zero hcount
  rw [hn]
  cases s with
  | nil => rfl
  | cons c s =>
    have hc : isHexDigit c = false := hs
    rw [hexDigits, hc]
    rfl

theorem hexadecimal_brace (letter : Char) (s : List Char) :
    hexadecimal ignoring letter ('\x7b' :: s) =
      Layout.collect ignoring isHexDigit '\x7d' s >>= fun (digits, rest) =>
        ofHex? digits >>= fun c => some (⟨c, false⟩, Layout.skip ignoring rest) := by
  rw [hexadecimal, Layout.skip_brace]
  rfl

theorem hexadecimal_of_ne (letter : Char) (hs : Layout.skip ignoring s = s)
    (hne : s.head? ≠ some '\x7b') :
    hexadecimal ignoring letter s =
      hexDigits ignoring (hexCount letter) s >>= fun (digits, rest) =>
        ofHex? digits >>= fun c => some (⟨c, letter = 'x'⟩, rest) := by
  rw [hexadecimal, hs]
  split
  · exact absurd rfl hne
  · rfl

/-- **A character by number is read locally**: its digits stand in braces, or there are as many as
its letter asks for. -/
theorem local_hexadecimal (ignoring : Bool) (letter : Char) :
    Local [] (hexadecimal ignoring letter) := by
  refine .of_cons_taking ignoring (fun s => ?_) ?_ (fun x s h => ?_) fun c hc => ?_
  · rw [hexadecimal, hexadecimal, Layout.skip_skip]
  · rw [hexadecimal_of_ne letter (Layout.skip_nil _) (by simp), hexDigits_eq_none letter rfl]
    rfl
  · rw [hexadecimal_of_ne letter (Layout.skip_closing _ s) (by simp),
      hexDigits_eq_none letter rfl] at h
    cases h
  · by_cases hb : c = '\x7b'
    · subst hb
      simp only [hexadecimal_brace]
      refine .bind ((Layout.local_collect _ _ _).weaken _) fun digits => ?_
      exact .given (ofHex? digits) fun c => .skip (.done (PlainChar.mk c false)) ignoring
    · have hne : ∀ s, (c :: s).head? ≠ some '\x7b' := fun s h => hb (Option.some.inj h)
      simp only [hexadecimal_of_ne letter (hc _) (hne _)]
      refine .bind ((local_hexDigits _ _).cons c) fun digits => ?_
      exact .given (ofHex? digits) fun c => .done (PlainChar.mk c (letter = 'x'))

/-! ## Classes by name -/

theorem propertyClass_brace (negated : Bool) (s : List Char) :
    propertyClass ignoring negated ('\x7b' :: s) =
      Layout.collect ignoring (fun _ => true) '\x7d' s >>= fun (text, rest) =>
        some (.property (negated != (bracedName text).1) (bracedName text).2, rest) := by
  rw [propertyClass, Layout.skip_brace]
  rfl

/-- Without a brace, a class has a name of one letter. -/
theorem propertyClass_of_ne (negated : Bool) (hs : Layout.skip ignoring (c :: s) = c :: s)
    (hbrace : c ≠ '\x7b') (hmark : c ≠ '\\') :
    propertyClass ignoring negated (c :: s) =
      some (.property negated (.plain [c]), Layout.skip ignoring s) := by
  rw [propertyClass, hs]
  split <;> simp_all

/-- **A class by name is read locally.** -/
theorem local_propertyClass (ignoring negated : Bool) :
    Local [] (propertyClass ignoring negated) := by
  refine .of_cons_taking ignoring (fun s => ?_) ?_ (fun x s h => ?_) fun c hc => ?_
  · rw [propertyClass, propertyClass, Layout.skip_skip]
  · rw [propertyClass, Layout.skip_nil]
  · rw [propertyClass_of_ne negated (Layout.skip_closing _ s) (by decide) (by decide)] at h
    have hlen := (Layout.skip_suffix ignoring s).length_le
    rw [(Prod.mk.inj (Option.some.inj h)).2, List.length_cons] at hlen
    omega
  · by_cases hbrace : c = '\x7b'
    · subst hbrace
      simp only [propertyClass_brace]
      refine .bind ((Layout.local_collect _ _ _).weaken _) fun text => ?_
      exact .done (Escape.property (negated != (bracedName text).1) (bracedName text).2)
    · by_cases hmark : c = '\\'
      · subst hmark
        have hnone : ∀ s, propertyClass ignoring negated ('\\' :: s) = none := fun s => by
          rw [propertyClass, hc]
          rfl
        simp only [hnone]
        exact .fail
      · simp only [propertyClass_of_ne negated (hc _) hbrace hmark]
        exact .skip (.done (Escape.property negated (.plain [c]))) ignoring

/-! ## Word edges -/

/-- The word edge that a name in braces narrows. -/
def edgeNamed? : String → Option Escape
  | "start" => some (.assertion .wordStart)
  | "end" => some (.assertion .wordEnd)
  | "start-half" => some (.assertion .wordStartHalf)
  | "end-half" => some (.assertion .wordEndHalf)
  | _ => none

/-- A word edge after the brace before its name. -/
def namedEdge (ignoring : Bool) (s : List Char) : Option (Escape × List Char) :=
  Layout.collect ignoring isEdgeNameChar '\x7d' s >>= fun (name, rest) =>
    edgeNamed? (String.ofList name) >>= fun e => some (e, rest)

theorem local_namedEdge (ignoring : Bool) : Local [] (namedEdge ignoring) :=
  .bind (Layout.local_collect _ _ _) fun name =>
    .given (edgeNamed? (String.ofList name)) fun e => .done e

/-- Without a brace it is any word edge. -/
theorem wordEdge_of_ne (hne : s.head? ≠ some '\x7b') :
    wordEdge ignoring s = some (.assertion .wordEdge, s) := by
  unfold wordEdge
  split
  · exact absurd rfl hne
  · rfl

theorem wordEdge_brace_nil (h : Layout.skip ignoring s = []) :
    wordEdge ignoring ('\x7b' :: s) = none := by
  simp only [wordEdge, h]

/-- A brace begins a name if the character behind it can, and is a mark of its own otherwise. -/
theorem wordEdge_brace_cons {t : List Char} (h : Layout.skip ignoring s = c :: t) :
    wordEdge ignoring ('\x7b' :: s) =
      if isEdgeNameChar c then namedEdge ignoring (c :: t)
      else some (.assertion .wordEdge, '\x7b' :: s) := by
  simp only [wordEdge, h]
  split
  · rw [namedEdge]
    refine Option.bind_congr fun ⟨name, rest⟩ _ => ?_
    dsimp only
    generalize String.ofList name = name
    unfold edgeNamed?
    split <;> simp_all
  · rfl

/-- A place in the text is read well if no brace follows it that is the last mark of the text: it
could begin a name. -/
def Settled (ignoring : Bool) (e : Escape) (k : List Char) : Prop :=
  ∀ a j, e = .assertion a → k = '\x7b' :: j → Layout.skip ignoring j ≠ []

/-- Behind a brace, the character that decides stands in front of the closing parenthesis, or the
edge is not settled. -/
theorem localOn_wordEdge_brace (ignoring : Bool) :
    LocalOn (Settled ignoring) ['\x7b'] fun s => wordEdge ignoring ('\x7b' :: s) where
  suffix {s k x} hs := by
    cases hc : Layout.skip ignoring s with
    | nil =>
      rw [wordEdge_brace_nil hc] at hs
      cases hs
    | cons c t =>
      rw [wordEdge_brace_cons hc] at hs
      split at hs
      · have hk : k <:+ Layout.skip ignoring s := hc ▸ (local_namedEdge ignoring).suffix hs
        exact (hk.trans (Layout.skip_suffix ignoring s)).trans (List.suffix_cons _ s)
      · exact (Prod.mk.inj (Option.some.inj hs)).2 ▸ List.suffix_rfl
  exchange {u v w k x} hv hw hk hr := by
    have hu : Layout.skip ignoring u ≠ [] := by
      cases hc : Layout.skip ignoring (u ++ v) with
      | nil =>
        rw [wordEdge_brace_nil hc] at hr
        cases hr
      | cons c t =>
        rw [wordEdge_brace_cons hc] at hr
        split at hr
        · next hname =>
          obtain ⟨m, hm⟩ := exists_eq_append_of_suffix ((local_namedEdge ignoring).suffix hr)
          rw [Layout.skip_of_append hv.stops (hc.trans hm)]
          rintro rfl
          obtain ⟨r, rfl⟩ := hv.exists_cons
          cases hm
          cases hname
        · obtain ⟨rfl, htext⟩ := Prod.mk.inj (Option.some.inj hr)
          exact hk _ u rfl (List.append_cancel_right htext).symm
    obtain ⟨c, t, hc⟩ := List.exists_cons_of_ne_nil hu
    have hskip : ∀ x, Layout.skip ignoring (u ++ x) = c :: (t ++ x) := fun x =>
      (Layout.skip_append hu x).trans (by rw [hc, List.cons_append])
    rw [wordEdge_brace_cons (hskip _)] at hr ⊢
    split
    · next hname =>
      rw [if_pos hname] at hr
      exact (local_namedEdge ignoring).exchange (u := c :: t) hv hw trivial hr
    · next hname =>
      rw [if_neg hname] at hr
      obtain ⟨rfl, htext⟩ := Prod.mk.inj (Option.some.inj hr)
      obtain rfl : '\x7b' :: u = k := List.append_cancel_right htext
      rfl
  extend {u v _ k x} hv hk hr := by
    cases hc : Layout.skip ignoring u with
    | nil =>
      rw [wordEdge_brace_nil hc] at hr
      cases hr
    | cons c t =>
      have hext : Layout.skip ignoring (u ++ v) = c :: (t ++ v) := by
        rw [Layout.skip_append (by rw [hc]; exact List.cons_ne_nil c t), hc, List.cons_append]
      rw [wordEdge_brace_cons hc] at hr
      rw [wordEdge_brace_cons hext]
      split
      · next hname =>
        rw [if_pos hname] at hr
        have hsuffix : c :: t <:+ ['\x7b'] ++ u :=
          (hc ▸ Layout.skip_suffix ignoring u : c :: t <:+ u).trans (List.suffix_append _ u)
        exact ((local_namedEdge ignoring).extend (u := c :: t) hv trivial hr).imp_right
          fun ⟨hnil, hhead, hr'⟩ => ⟨hnil, fun hc => hhead (hc.suffix hsuffix), hr'⟩
      · next hname =>
        rw [if_neg hname] at hr
        obtain ⟨rfl, rfl⟩ := Prod.mk.inj (Option.some.inj hr)
        exact .inl rfl

theorem localOn_wordEdge (ignoring : Bool) :
    LocalOn (Settled ignoring) [] (wordEdge ignoring) :=
  .of_head (by decide) (fun _ => rfl) (fun _ => wordEdge_of_ne)
    (localOn_wordEdge_brace ignoring) (.done (Escape.assertion .wordEdge))

/-! ## All escapes -/

/-- All other escapes end with their letter. -/
theorem read_letter (hc : c ∉ ['x', 'u', 'U', 'p', 'P', 'b']) (s : List Char) :
    read ignoring (c :: s) = (read ignoring [c]).map fun (e, _) => (e, s) := by
  simp only [read]
  split <;> first | rfl | simp at hc
  split <;> rfl

/-- Every escape but that of a word edge is read locally. -/
theorem local_read_cons (ignoring : Bool) (hc : c ≠ 'b') :
    Local [] fun s => read ignoring (c :: s) := by
  by_cases hspecial : c ∈ ['x', 'u', 'U', 'p', 'P']
  · have hhex : ∀ letter, Local [] fun s =>
        (hexadecimal ignoring letter s).map fun y => (Escape.literal y.1, y.2) := fun letter =>
      (local_hexadecimal ignoring letter).map fun l => ⟨.literal l, fun _ => rfl⟩
    simp only [List.mem_cons, List.not_mem_nil, or_false] at hspecial
    rcases hspecial with rfl | rfl | rfl | rfl | rfl
    · exact hhex 'x'
    · exact hhex 'u'
    · exact hhex 'U'
    · exact local_propertyClass ignoring false
    · exact local_propertyClass ignoring true
  · have hletter : c ∉ ['x', 'u', 'U', 'p', 'P', 'b'] := fun h =>
      (List.mem_append.1 (h : c ∈ ['x', 'u', 'U', 'p', 'P'] ++ ['b'])).elim hspecial
        fun h => hc (List.mem_singleton.1 h)
    rw [show (fun s => read ignoring (c :: s)) = _ from funext (read_letter hletter)]
    cases read ignoring [c] with
    | none => exact .fail
    | some y => exact .done y.1

/-- **Escapes are read locally**, word edges as far as they are settled. -/
theorem localOn_read (ignoring : Bool) : LocalOn (Settled ignoring) [] (read ignoring) := by
  refine .of_cons_taking false (fun _ => rfl) rfl (fun x s h => ?_) fun c _ => ?_
  · have hlen := congrArg List.length (Prod.mk.inj (Option.some.inj h)).2
    rw [List.length_cons] at hlen
    omega
  · by_cases hb : c = 'b'
    · subst hb
      exact (localOn_wordEdge ignoring).weaken _
    · exact .mono ((local_read_cons ignoring hb).weaken _)

end Escape

end TreeRules.Pattern
