import Mathlib.Data.List.Chain
import TreeRules.Path.Basic

/-!
# Proofs/Path/Pieces — where doubled braces cut a text

A text is cut at every doubled brace, from the left, so that no piece has one in it
(`whole_of_mem_pieces`).  Conversely what has none in it stays whole, up to the next doubled brace
that is put behind it: the cut comes there and not earlier if the text does not itself end in such a
brace (`pieces_append`).  These two facts are all that is known of `pieces` from here on.
-/

namespace TreeRules.TokenPath

variable {s t p : List Char} {ps : List (List Char)} {b c : Char}

/-! ## Braces -/

/-- One of the two braces. -/
def isBrace (c : Char) : Bool := c == '\x7b' || c == '\x7d'

/-- No brace stands next to another of its kind. -/
def Whole (s : List Char) : Prop := s.IsChain fun c d => c = d → isBrace c = false

theorem whole_nil : Whole [] := .nil

theorem whole_singleton (c : Char) : Whole [c] := .singleton c

theorem whole_cons_iff : Whole (c :: s) ↔ (c ∈ s.head? → isBrace c = false) ∧ Whole s := by
  rw [Whole, List.isChain_cons]
  refine and_congr_left fun _ => ⟨fun h hc => h c hc rfl, fun h d hd hcd => ?_⟩
  exact h (hcd ▸ hd)

/-- Two whole texts are whole together if one of them has no brace where they meet. -/
theorem Whole.append (hs : Whole s) (ht : Whole t)
    (h : (∀ c ∈ s.getLast?, isBrace c = false) ∨ ∀ c ∈ t.head?, isBrace c = false) :
    Whole (s ++ t) := by
  refine List.isChain_append.2 ⟨hs, ht, fun c hc d hd hcd => ?_⟩
  rcases h with h | h
  · exact h c hc
  · exact h c (hcd ▸ hd)

/-- A text without braces has none twice in a row. -/
theorem whole_of_all (h : ∀ c ∈ s, isBrace c = false) : Whole s := by
  induction s with
  | nil => exact whole_nil
  | cons c s ih =>
    refine whole_cons_iff.2 ⟨fun _ => h c List.mem_cons_self, ?_⟩
    exact ih fun d hd => h d (List.mem_cons_of_mem c hd)

theorem isBrace_of_isBlank (h : Text.isBlank c = true) : isBrace c = false := by
  have hopening : c ≠ '\x7b' := by
    rintro rfl
    exact absurd h (by decide)
  have hclosing : c ≠ '\x7d' := by
    rintro rfl
    exact absurd h (by decide)
  simp [isBrace, hopening, hclosing]

theorem whole_of_isBlankText (h : Text.isBlankText s = true) : Whole s :=
  whole_of_all fun c hc => isBrace_of_isBlank (List.all_eq_true.1 h c hc)

/-- Blanks stand between braces and what comes next. -/
theorem Whole.blank_append (ht : Whole t) (h : Text.isBlankText s = true) : Whole (s ++ t) :=
  (whole_of_isBlankText h).append ht (.inl fun c hc =>
    isBrace_of_isBlank (List.all_eq_true.1 h c (List.mem_of_getLast? hc)))

/-! ## Cutting -/

theorem pieces_ne_nil (s : List Char) : pieces s ≠ [] := by
  fun_cases pieces s <;> exact List.cons_ne_nil _ _

/-- A doubled brace ends a piece. -/
theorem pieces_doubled (hb : isBrace b = true) (s : List Char) :
    pieces (b :: b :: s) = [] :: pieces s := by
  rcases Bool.or_eq_true_iff.1 hb with h | h
  · obtain rfl := eq_of_beq h
    rw [pieces]
  · obtain rfl := eq_of_beq h
    rw [pieces]

/-- A character that does not begin a doubled brace belongs to the first piece. -/
theorem pieces_cons (h : c ∈ s.head? → isBrace c = false) (hs : pieces s = p :: ps) :
    pieces (c :: s) = (c :: p) :: ps := by
  rw [pieces.eq_def]
  split
  · next heq =>
    obtain ⟨rfl, rfl⟩ := List.cons.inj heq
    exact absurd (h rfl) (by decide)
  · next heq =>
    obtain ⟨rfl, rfl⟩ := List.cons.inj heq
    exact absurd (h rfl) (by decide)
  · next heq =>
    obtain ⟨rfl, rfl⟩ := List.cons.inj heq
    rw [hs]
  · next heq => exact absurd heq (List.cons_ne_nil c s)

/-- What is whole is one piece. -/
theorem pieces_of_whole (h : Whole s) : pieces s = [s] := by
  induction s with
  | nil => rfl
  | cons c s ih =>
    obtain ⟨hc, hs⟩ := whole_cons_iff.1 h
    exact pieces_cons hc (ih hs)

/-- **A whole text ends at the doubled brace behind it**, if it does not end in that brace. -/
theorem pieces_append (h : Whole (s ++ [b])) (hb : isBrace b = true) (rest : List Char) :
    pieces (s ++ b :: b :: rest) = s :: pieces rest := by
  induction s with
  | nil => exact pieces_doubled hb rest
  | cons c s ih =>
    obtain ⟨hc, hs⟩ := whole_cons_iff.1 h
    refine pieces_cons (fun hmem => hc ?_) (ih hs)
    cases s with
    | nil => exact hmem
    | cons d s => exact hmem

/-- The first piece stands at the beginning. -/
theorem prefix_of_pieces_eq (h : pieces s = p :: ps) : p <+: s := by
  fun_induction pieces s generalizing p ps with
  | case1 s ih => exact (List.cons.inj h).1 ▸ List.nil_prefix
  | case2 s ih => exact (List.cons.inj h).1 ▸ List.nil_prefix
  | case3 c s _ _ q qs hq ih =>
    obtain ⟨rfl, rfl⟩ := List.cons.inj h
    exact List.cons_prefix_cons.2 ⟨rfl, ih hq⟩
  | case4 c s _ _ hnil ih =>
    obtain ⟨rfl, rfl⟩ := List.cons.inj h
    exact List.cons_prefix_cons.2 ⟨rfl, List.nil_prefix⟩
  | case5 => exact (List.cons.inj h).1 ▸ List.nil_prefix

/-- What comes in one piece is that piece. -/
theorem eq_of_pieces_eq (h : pieces s = [p]) : s = p := by
  fun_induction pieces s generalizing p with
  | case1 s ih => exact absurd (List.cons.inj h).2 (pieces_ne_nil s)
  | case2 s ih => exact absurd (List.cons.inj h).2 (pieces_ne_nil s)
  | case3 c s _ _ p ps hps ih =>
    obtain ⟨rfl, rfl⟩ := List.cons.inj h
    rw [ih hps]
  | case4 c s _ _ hnil ih => exact absurd hnil (pieces_ne_nil s)
  | case5 => exact (List.cons.inj h).1

/-- **Every piece is whole.** -/
theorem whole_of_mem_pieces (h : p ∈ pieces s) : Whole p := by
  fun_induction pieces s generalizing p with
  | case1 s ih =>
    rcases List.mem_cons.1 h with rfl | h
    · exact whole_nil
    · exact ih h
  | case2 s ih =>
    rcases List.mem_cons.1 h with rfl | h
    · exact whole_nil
    · exact ih h
  | case3 c s hopening hclosing q qs hq ih =>
    rcases List.mem_cons.1 h with rfl | h
    · refine whole_cons_iff.2 ⟨fun hc => ?_, ih (hq ▸ List.mem_cons_self)⟩
      -- the next character of the piece is the next character of the text
      obtain ⟨r, rfl⟩ := List.head?_eq_some_iff.1 hc
      obtain ⟨u, rfl⟩ := prefix_of_pieces_eq hq
      refine eq_false_of_ne_true fun hbrace => ?_
      rcases Bool.or_eq_true_iff.1 hbrace with h | h
      · obtain rfl := eq_of_beq h
        exact hopening _ rfl rfl
      · obtain rfl := eq_of_beq h
        exact hclosing _ rfl rfl
    · exact ih (hq ▸ List.mem_cons_of_mem q h)
  | case4 c s _ _ hnil ih =>
    obtain rfl := List.mem_singleton.1 h
    exact whole_singleton c
  | case5 =>
    obtain rfl := List.mem_singleton.1 h
    exact whole_nil

end TreeRules.TokenPath
