import Mathlib.Data.List.Infix
import TreeRules.Pattern.Backend

/-!
# Proofs/Pattern/Backend — the rules that every backend keeps

What is proved of checks for patterns should not hang on the backend that happens to be run.  So the
rules of the syntax of patterns that it rests on are stated here for any backend
(`Backend.Lawful`), and that they hold of the one at hand is a theorem of its own
(`Expr.backend_lawful`).

The rules only speak of what a backend can be seen to do: which texts it compiles, and what the
compiled patterns match.  They are about groups, the two ends of the text, the search and, where
blanks are ignored, comments and line ends.  None says how a backend reads the rest of the syntax,
nor where its limits are.
-/

namespace TreeRules.Pattern

/-! ## Groups and ends of the text -/

/-- A group, with any number of assertions around it that the text begins or ends there. -/
inductive Frame where
  | group
  | textStart (f : Frame)
  | textEnd (f : Frame)

namespace Frame

/-- A frame as text, around the source of a pattern. -/
def text (source : List Char) : Frame → List Char
  | group => '(' :: '?' :: ':' :: source ++ [')']
  | textStart f => '\\' :: 'A' :: f.text source
  | textEnd f => f.text source ++ ['\\', 'z']

/-- What a frame matches around a pattern that matches `S`: what is matched has to stand at the
beginning, or at the end, where the frame says so. -/
def Spans (S : List Char → List Char → List Char → Prop) :
    Frame → List Char → List Char → List Char → Prop
  | group, p, u, s => S p u s
  | textStart f, p, u, s => p = [] ∧ f.Spans S p u s
  | textEnd f, p, u, s => s = [] ∧ f.Spans S p u s

end Frame

/-! ## Comments -/

/-- Behind every `#` stands a line end, so no comment is open where the text ends. -/
def CommentsEnd (source : List Char) : Prop := ∀ a b, source = a ++ '#' :: b → '\n' ∈ b

theorem commentsEnd_nil : CommentsEnd [] := fun _ _ h => by simp at h

theorem commentsEnd_append_line (source : List Char) : CommentsEnd (source ++ ['\n']) := by
  intro a b h
  rcases List.eq_nil_or_concat b with rfl | ⟨w, y, rfl⟩
  · exact absurd (List.append_inj_right' h rfl) (by decide)
  · rw [List.concat_eq_append] at h ⊢
    have hlast : source ++ ['\n'] = (a ++ '#' :: w) ++ [y] := by
      rw [h, List.append_assoc, List.cons_append]
    obtain rfl : '\n' = y := List.singleton_inj.1 (List.append_inj_right' hlast rfl)
    exact List.mem_append_right w List.mem_cons_self

theorem CommentsEnd.suffix {s t : List Char} (h : CommentsEnd t) (hs : s <:+ t) :
    CommentsEnd s := by
  obtain ⟨r, rfl⟩ := hs
  rintro a b rfl
  exact h (r ++ a) b (List.append_assoc r a _).symm

/-- Behind a `#` the rest has to end its line. -/
theorem CommentsEnd.mem_of_cons {s : List Char} (h : CommentsEnd ('#' :: s)) : '\n' ∈ s :=
  h [] s rfl

/-! ## The rules -/

/-- The rules of patterns that a backend keeps.  They are about the texts that it does compile, as
the limits of a backend are its own. -/
structure Backend.Lawful (B : Backend) : Prop where
  /-- A search tells whether some stretch of the text is matched. -/
  found_iff {m : Modes} {source : List Char} {c : B.Compiled} :
    B.compile m source = .ok c → ∀ text, B.isFoundIn c text = true ↔
      ∃ p u s, text = p ++ u ++ s ∧ B.Spans c p u s
  /-- A group matches what the pattern in it matches, `\A` is where the text begins, and `\z` where
  it ends. -/
  frame_spans_iff (f : Frame) {m : Modes} {source : List Char} {e c : B.Compiled} :
    B.compile m source = .ok e → B.compile m (f.text source) = .ok c →
      ∀ p u s, B.Spans c p u s ↔ f.Spans (B.Spans e) p u s
  /-- A pattern may stand in a group, unless a comment of its own takes the end of the group. -/
  frame_ne_invalid (f : Frame) {m : Modes} {source : List Char} {e : B.Compiled} :
    B.compile m source = .ok e → CommentsEnd source → B.compile m (f.text source) ≠ .error .invalid
  /-- What stands in a group up to the parenthesis that closes it is a pattern.  So if the source
  around which a group was put is none, one of its own parentheses closes the group. -/
  exists_closing (f : Frame) {m : Modes} {source : List Char} {c : B.Compiled} :
    B.compile m source = .error .invalid → B.compile m (f.text source) = .ok c →
      ∃ a b, source = a ++ ')' :: b ∧ B.compile m a ≠ .error .invalid
  /-- Where blanks are ignored, a line end behind a pattern changes nothing.  They still are at the
  end of a pattern without a hyphen, which can throw no switch off. -/
  line_spans_iff {m : Modes} {source : List Char} {e : B.Compiled} :
    m.ignoreBlanks = true → '-' ∉ source → B.compile m source = .ok e →
      ∃ e', B.compile m (source ++ ['\n']) = .ok e' ∧ ∀ p u s, B.Spans e' p u s ↔ B.Spans e p u s

end TreeRules.Pattern
