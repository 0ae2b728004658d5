import TreeRules.Proofs.Check.PatternMemory
import TreeRules.Proofs.Pattern.Lawful

/-!
# Proofs/Check/FullMatch — when asking for the whole value means it

For the whole value, the source of a pattern is put into a group between both ends of the text, as
text.  As long as the source stays inside this group, the check does what it is asked, for every
backend that keeps the rules (`check_of_fullMatch`): a value passes just if the source, compiled on
its own, matches all of it, and a source that is no pattern lets every value pass.

There are three ways out of the group.  A source that closes it by a parenthesis of its own may be
compiled although it is no pattern on its own.  A source that ends in a comment which it has asked
for itself takes the end of the group with it, and lets every value pass; where the letters ask for
comments, the line end behind the source keeps it from this.  And this line end counts if the source
has asked for blanks again, or escapes it (`Request.LineEndIsIdle`).
-/

namespace TreeRules.Check.Pattern

open TreeRules.Pattern

namespace Request

/-- The line end that is put behind the source where the letters ignore blanks. -/
def lineEnd (r : Request) : List Char := if r.letters.toList.contains 'x' then ['\n'] else []

section

variable (B : Backend) (r : Request)

/-- What the source is compiled to on its own, in the modes of the letters. -/
def alone : Except Refusal B.Compiled := B.compile r.modes r.source.toList

/-- What the source is compiled to with the line end behind it. -/
def withLineEnd : Except Refusal B.Compiled := B.compile r.modes (r.source.toList ++ r.lineEnd)

/-- The line end behind a source that is a pattern makes no difference. -/
def LineEndIsIdle : Prop :=
  ∀ e, r.alone B = .ok e → ∃ e', r.withLineEnd B = .ok e' ∧
    ∀ p u s, B.Spans e' p u s ↔ B.Spans e p u s

/-- A parenthesis of the source closes the group around it: in front of it stands a pattern. -/
def ClosesGroup : Prop :=
  ∃ a b, r.source.toList = a ++ ')' :: b ∧ B.compile r.modes a ≠ .error .invalid

end

variable {B : Backend} {r : Request}

theorem lineEnd_of_mem (h : 'x' ∈ r.letters.toList) : r.lineEnd = ['\n'] :=
  if_pos (List.contains_iff_mem.2 h)

theorem lineEnd_of_not_mem (h : 'x' ∉ r.letters.toList) : r.lineEnd = [] :=
  if_neg (mt List.contains_iff_mem.1 h)

/-- A switch that some step throws, and that none throws back, is thrown in the end. -/
theorem ignoreBlanks_foldl {step : Modes → Char → Modes}
    (hkeep : ∀ m c, m.ignoreBlanks = true → (step m c).ignoreBlanks = true)
    (hthrow : ∀ m, (step m 'x').ignoreBlanks = true) {letters : List Char} {m : Modes}
    (h : m.ignoreBlanks = true ∨ 'x' ∈ letters) : (letters.foldl step m).ignoreBlanks = true := by
  induction letters generalizing m with
  | nil => exact h.resolve_right List.not_mem_nil
  | cons c letters ih =>
    refine ih ?_
    rcases h with h | h
    · exact .inl (hkeep m c h)
    · rcases List.mem_cons.1 h with rfl | h
      · exact .inl (hthrow m)
      · exact .inr h

theorem ignoreBlanks_of_mem (h : 'x' ∈ r.letters.toList) : r.modes.ignoreBlanks = true := by
  refine ignoreBlanks_foldl (fun m c hm => ?_) (fun m => rfl) (.inr h)
  split
  · exact hm
  · exact hm
  · exact hm
  · rfl
  · exact hm

/-- **Only where the letters ask for comments can a line end make a difference**, and only if the
source has a hyphen. -/
theorem lineEndIsIdle (hB : B.Lawful)
    (h : 'x' ∈ r.letters.toList → '-' ∉ r.source.toList) : r.LineEndIsIdle B := by
  intro e he
  by_cases hx : 'x' ∈ r.letters.toList
  · rw [withLineEnd, lineEnd_of_mem hx]
    exact hB.line_spans_iff (ignoreBlanks_of_mem hx) (h hx) he
  · rw [withLineEnd, lineEnd_of_not_mem hx, List.append_nil]
    exact ⟨e, he, fun p u s => Iff.rfl⟩

/-- The frame around a source that has to match the whole value. -/
def wholeFrame : Frame := .textStart (.textEnd .group)

theorem compiled_of_whole (hwhole : r.whole = true) :
    r.compiled B = B.compile r.modes (wholeFrame.text (r.source.toList ++ r.lineEnd)) := by
  have htext : r.patternText = wholeFrame.text (r.source.toList ++ r.lineEnd) := by
    rw [patternText, if_pos hwhole, List.append_assoc "\\A(?:".toList]
    simp [wholeFrame, Frame.text, lineEnd]
  rw [compiled, htext]

/-- A closing parenthesis in front of the line end stands in the source. -/
theorem exists_closing_of_append {a b : List Char}
    (h : r.source.toList ++ r.lineEnd = a ++ ')' :: b) : ∃ b', r.source.toList = a ++ ')' :: b' := by
  have hline : ')' ∉ r.lineEnd := by
    rw [lineEnd]
    split <;> decide
  rcases List.append_eq_append_iff.1 h with ⟨m, -, hm⟩ | ⟨m, hm, hb⟩
  · exact absurd (hm ▸ List.mem_append_right m List.mem_cons_self) hline
  · cases m with
    | nil => exact absurd (hb ▸ List.mem_cons_self : ')' ∈ [] ++ r.lineEnd) hline
    | cons c m =>
      obtain ⟨rfl, rfl⟩ := List.cons.inj hb
      exact ⟨m, hm⟩

/-- With the line end behind it, no comment of a source is open at its end. -/
theorem commentsEnd_withLineEnd
    (h : 'x' ∈ r.letters.toList ∨ CommentsEnd r.source.toList) :
    CommentsEnd (r.source.toList ++ r.lineEnd) := by
  by_cases hx : 'x' ∈ r.letters.toList
  · rw [lineEnd_of_mem hx]
    exact commentsEnd_append_line _
  · rw [lineEnd_of_not_mem hx, List.append_nil]
    exact h.resolve_left hx

end Request

/-! ## What is answered -/

variable {B : Backend} {options : Options} {r : Request}

/-- From the empty memory, a check is answered by what its request is compiled to. -/
theorem answer_check_empty (hr : request? options = some r) (value : String) :
    answer (B.check value options) .empty = B.verdict (r.compiled B).toOption value :=
  Backend.answer_check hr value .empty

theorem answer_of_error (hr : request? options = some r) {refusal : Refusal}
    (h : r.compiled B = .error refusal) (value : String) :
    answer (B.check value options) .empty = [] := by
  rw [answer_check_empty hr, h]
  rfl

/-- Where a pattern is compiled, a value passes just if the pattern is found in it. -/
theorem answer_of_ok (hr : request? options = some r) {c : B.Compiled} (h : r.compiled B = .ok c)
    (value : String) :
    (answer (B.check value options) .empty = [] ↔ B.isFoundIn c value.toList = true) ∧
      (answer (B.check value options) .empty = [kindPattern] ↔
        ¬ B.isFoundIn c value.toList = true) := by
  rw [answer_check_empty hr, h, Except.toOption, Backend.verdict]
  split <;> simp_all

/-- Between both ends of the text, only the whole of it can be matched. -/
theorem isFoundIn_whole_iff (hB : B.Lawful) {m : Modes} {source : List Char} {e c : B.Compiled}
    (he : B.compile m source = .ok e) (hc : B.compile m (Request.wholeFrame.text source) = .ok c)
    (text : List Char) : B.isFoundIn c text = true ↔ B.Spans e [] text [] := by
  rw [hB.found_iff hc]
  constructor
  · rintro ⟨p, u, s, rfl, h⟩
    obtain ⟨rfl, rfl, h⟩ := (hB.frame_spans_iff Request.wholeFrame he hc p u s).1 h
    rwa [List.nil_append, List.append_nil]
  · intro h
    exact ⟨[], text, [], by rw [List.nil_append, List.append_nil],
      (hB.frame_spans_iff Request.wholeFrame he hc [] text []).2 ⟨rfl, rfl, h⟩⟩

/-- **A check for the whole value**, by any backend that keeps the rules, from the empty memory.

* If the source is compiled on its own and in the group around it, a value passes just if the source
  matches all of it, and is refused otherwise.
* A source that is compiled on its own can only fall out of the group by a comment at its end, which
  there is none of where the letters ask for comments, or by the limits of the backend.
* If the source is no pattern and does not close the group around it, every value passes.
* If the source is not compiled in the group, every value passes. -/
theorem check_of_fullMatch (hB : B.Lawful) (hr : request? options = some r)
    (hwhole : r.whole = true) :
    (∀ e c, r.alone B = .ok e → r.LineEndIsIdle B → r.compiled B = .ok c → ∀ value,
      (answer (B.check value options) .empty = [] ↔ B.Spans e [] value.toList []) ∧
      (answer (B.check value options) .empty = [kindPattern] ↔
        ¬ B.Spans e [] value.toList [])) ∧
    (∀ e, r.alone B = .ok e → r.LineEndIsIdle B →
      'x' ∈ r.letters.toList ∨ CommentsEnd r.source.toList → r.compiled B ≠ .error .invalid) ∧
    (r.withLineEnd B = .error .invalid → ¬ r.ClosesGroup B → ∀ value,
      answer (B.check value options) .empty = []) ∧
    (∀ refusal, r.compiled B = .error refusal → ∀ value,
      answer (B.check value options) .empty = []) := by
  have hframe := Request.compiled_of_whole (B := B) hwhole
  refine ⟨fun e c he hidle hc value => ?_, fun e he hidle hcomments => ?_, fun hsource hopen => ?_,
    fun refusal hc => answer_of_error hr hc⟩
  · obtain ⟨e', he', hspans⟩ := hidle e he
    rw [← hspans, ← isFoundIn_whole_iff hB he' (hframe.symm.trans hc)]
    exact answer_of_ok hr hc value
  · obtain ⟨e', he', -⟩ := hidle e he
    rw [hframe]
    exact hB.frame_ne_invalid _ he' (Request.commentsEnd_withLineEnd hcomments)
  · cases hc : r.compiled B with
    | error refusal => exact answer_of_error hr hc
    | ok c =>
      obtain ⟨a, b, htext, ha⟩ := hB.exists_closing _ hsource (hframe.symm.trans hc)
      obtain ⟨b', hb'⟩ := Request.exists_closing_of_append htext
      exact absurd ⟨a, b', hb', ha⟩ hopen

/-- A comment at the end of the source does not take the end of the group: `a+` has to match the
whole value.  A parenthesis that is never closed is no pattern, and lets it pass. -/
theorem check_of_fullMatch_of_comment :
    let whole : Options := Table.empty.insert "fullMatch" (.bool true)
    let commented := (whole.insert "pattern" (.string "a+ #b")).insert "flags" (.string "x")
    let broken := whole.insert "pattern" (.string "(b")
    let r : Request := ⟨"a+ #b", "x", true⟩
    let r' : Request := ⟨"(b", "", true⟩
    Expr.backend.Lawful ∧
      (request? commented = some r ∧ r.whole = true ∧ r.LineEndIsIdle Expr.backend ∧
        ∃ e c, r.alone Expr.backend = .ok e ∧ r.compiled Expr.backend = .ok c ∧
          answer (Expr.backend.check "aa" commented) .empty = [] ∧
          Expr.backend.Spans e [] "aa".toList [] ∧
          answer (Expr.backend.check "aab" commented) .empty = [kindPattern] ∧
          ¬ Expr.backend.Spans e [] "aab".toList []) ∧
      (request? broken = some r' ∧ r'.whole = true ∧
        r'.withLineEnd Expr.backend = .error .invalid ∧ ¬ r'.ClosesGroup Expr.backend ∧
        answer (Expr.backend.check "b" broken) .empty = []) := by
  intro whole commented broken r r'
  have hB := Expr.backend_lawful
  have hr : request? commented = some r := by decide +kernel
  have hr' : request? broken = some r' := by decide +kernel
  have hidle : r.LineEndIsIdle Expr.backend := Request.lineEndIsIdle hB fun _ => by decide +kernel
  obtain ⟨e, he⟩ : ∃ e, Request.alone Expr.backend ⟨"a+ #b", "x", true⟩ = .ok e :=
    ⟨_, by rfl⟩
  obtain ⟨c, hc⟩ : ∃ c, Request.compiled Expr.backend ⟨"a+ #b", "x", true⟩ = .ok c :=
    ⟨_, by rfl⟩
  have hall : answer (Expr.backend.check "aa" commented) .empty = [] := by decide +kernel
  have hpart : answer (Expr.backend.check "aab" commented) .empty = [kindPattern] := by
    decide +kernel
  have hinvalid : Request.withLineEnd Expr.backend ⟨"(b", "", true⟩ = .error .invalid := by rfl
  have hopen : ¬ r'.ClosesGroup Expr.backend := by
    rintro ⟨a, b, hsource, -⟩
    have hmem : ')' ∈ r'.source.toList := hsource ▸ List.mem_append_right a List.mem_cons_self
    exact absurd hmem (by decide +kernel)
  obtain ⟨hread, -, -, -⟩ := check_of_fullMatch hB hr rfl
  obtain ⟨-, -, hpass, -⟩ := check_of_fullMatch hB hr' rfl
  exact ⟨hB, ⟨hr, rfl, hidle, e, c, he, hc, hall, (hread e c he hidle hc "aa").1.1 hall, hpart,
    (hread e c he hidle hc "aab").2.1 hpart⟩, hr', rfl, hinvalid, hopen, hpass hinvalid hopen "b"⟩

/-- A source that is no pattern, but refuses a value. -/
theorem closed_group_shows :
    let options : Options := (Table.empty.insert "pattern" (.string "a)|(?:b")).insert "fullMatch"
      (.bool true)
    Expr.backend.Lawful ∧ request? options = some ⟨"a)|(?:b", "", true⟩ ∧
      Request.alone Expr.backend ⟨"a)|(?:b", "", true⟩ = .error .invalid ∧
      answer (Expr.backend.check "c" options) .empty = [kindPattern] :=
  ⟨Expr.backend_lawful, by decide +kernel, by rfl, by decide +kernel⟩

end TreeRules.Check.Pattern
