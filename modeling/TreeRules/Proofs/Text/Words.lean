import TreeRules.Text.Blank

/-!
# Proofs/Text/Words — words that are joined come back

A blank ends a word and is in none (`words_append_cons`, `isWord_of_mem_words`).  So the words of a
text, joined by single blanks, are the words of what is joined: a second look at them changes
nothing (`wordsOf_intercalate_wordsOf`).
-/

namespace TreeRules.Text

variable {w s : List Char} {b : Char}

/-- At least one character, and no blanks. -/
def IsWord (w : List Char) : Prop := w ≠ [] ∧ ∀ c ∈ w, isBlank c = false

/-- A blank parts a text into what has words of its own. -/
theorem words_append_cons (hb : isBlank b = true) (s r : List Char) :
    words (s ++ b :: r) = words s ++ words r := by
  rw [words, List.splitOnP_append_cons s r hb, List.filter_append]
  rfl

theorem words_of_isWord (h : IsWord w) : words w = [w] := by
  rw [words, List.splitOnP_eq_singleton h.2]
  exact List.filter_eq_self.2 fun v hv => decide_eq_true (List.mem_singleton.1 hv ▸ h.1)

theorem isBlank_of_mem_splitOnP (h : w ∈ s.splitOnP isBlank) : ∀ c ∈ w, isBlank c = false := by
  induction s generalizing w with
  | nil =>
    rw [List.splitOnP_nil, List.mem_singleton] at h
    exact h ▸ List.forall_mem_nil _
  | cons c s ih =>
    rw [List.splitOnP_cons_eq_if_modifyHead] at h
    split at h
    · rcases List.mem_cons.1 h with rfl | h
      · exact List.forall_mem_nil _
      · exact ih h
    · next hc =>
      obtain ⟨first, rest, hsplit⟩ := List.exists_cons_of_ne_nil (List.splitOnP_ne_nil isBlank s)
      rw [hsplit] at h ih
      rcases List.mem_cons.1 h with rfl | h
      · intro d hd
        rcases List.mem_cons.1 hd with rfl | hd
        · exact Bool.eq_false_iff.2 hc
        · exact ih List.mem_cons_self d hd
      · exact ih (List.mem_cons_of_mem first h)

theorem isWord_of_mem_words (h : w ∈ words s) : IsWord w := by
  obtain ⟨hmem, hne⟩ := List.mem_filter.1 h
  exact ⟨of_decide_eq_true hne, isBlank_of_mem_splitOnP hmem⟩

/-- **Words joined by a blank are the words of the joined text.** -/
theorem words_intercalate (hb : isBlank b = true) :
    ∀ {ws : List (List Char)}, (∀ w ∈ ws, IsWord w) → words ([b].intercalate ws) = ws
  | [], _ => rfl
  | [w], h => by rw [List.intercalate_singleton, words_of_isWord (h w List.mem_cons_self)]
  | w :: w' :: ws, h => by
    rw [List.intercalate_cons_cons, List.append_assoc, List.singleton_append,
      words_append_cons hb, words_of_isWord (h w List.mem_cons_self),
      words_intercalate hb fun v hv => h v (List.mem_cons_of_mem w hv)]
    rfl

end TreeRules.Text

namespace TreeRules

/-- A text and its words joined by blanks have the same words. -/
theorem wordsOf_intercalate_wordsOf (text : String) :
    wordsOf (" ".intercalate (wordsOf text)) = wordsOf text := by
  have htext : (" ".intercalate (wordsOf text)).toList =
      [' '].intercalate (Text.words text.toList) := by
    rw [String.toList_intercalate, wordsOf, List.map_map]
    refine congrArg _ (List.map_id'' (fun w => ?_) _)
    exact String.toList_ofList
  rw [wordsOf, htext, Text.words_intercalate (by decide) fun w => Text.isWord_of_mem_words]
  rfl

end TreeRules
