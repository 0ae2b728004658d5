import TreeRules.Pattern.Expr
import TreeRules.Proofs.Pattern.Matching
import TreeRules.Proofs.Pattern.Scan

/-!
# Proofs/Pattern/Framed — a pattern in a group between the ends of the text

A frame puts the source of a pattern, as text, into a group with `\A` in front of it and `\z` behind
it.  The tokens of the framed pattern are then those of the pattern, in a group
(`Token.scan_framed`), and its tree is the tree of the pattern in a group (`Phrase.build_framed`).

Two things may go wrong.  The source may end in a comment that takes the end of the group.  And the
source may close the group with a parenthesis of its own; but then a pattern stands in front of this
parenthesis, just as the whole source is one otherwise (`Token.exists_content_of_framed`).
-/

namespace TreeRules.Pattern

open Token

variable {ignoring : Bool} {source : List Char} {ts : List Token}

/-! ## Frames as text -/

namespace Frame

/-- What stands in front of the group. -/
def opening : Frame → List Char
  | group => []
  | textStart f => '\\' :: 'A' :: f.opening
  | textEnd f => f.opening

/-- What stands behind the group. -/
def closing : Frame → List Char
  | group => []
  | textStart f => f.closing
  | textEnd f => f.closing ++ ['\\', 'z']

/-- A frame puts a group around the source, and marks on both sides of it. -/
theorem text_eq (f : Frame) (source : List Char) :
    f.text source = f.opening ++ '(' :: '?' :: ':' :: (source ++ ')' :: f.closing) := by
  induction f with
  | group => rfl
  | textStart f ih => rw [text, ih, opening, closing]; rfl
  | textEnd f ih => rw [text, ih, opening, closing]; simp

theorem mem_closing {f : Frame} {c : Char} (h : c ∈ f.closing) : c = '\\' ∨ c = 'z' := by
  induction f with
  | group => exact absurd h List.not_mem_nil
  | textStart f ih => exact ih h
  | textEnd f ih =>
    rcases List.mem_append.1 h with h | h
    · exact ih h
    · simpa using h

/-- Behind the group nothing can close another one, or end a line. -/
theorem not_mem_closing (f : Frame) : ')' ∉ f.closing ∧ '\n' ∉ f.closing :=
  ⟨fun h => by simpa using mem_closing h, fun h => by simpa using mem_closing h⟩

/-- A closing parenthesis of a framed source is the last one or stands in the source. -/
theorem closing_of_suffix {f : Frame} {r : List Char} (h : ')' :: r <:+ source ++ ')' :: f.closing) :
    r = f.closing ∨ ∃ a b, source = a ++ ')' :: b ∧ r = b ++ ')' :: f.closing := by
  obtain ⟨a, ha⟩ := h
  rcases List.append_eq_append_iff.1 ha with ⟨m, rfl, hm⟩ | ⟨m, rfl, hm⟩
  · cases m with
    | nil => exact .inl (List.cons.inj hm).2
    | cons c b =>
      obtain ⟨rfl, rfl⟩ := List.cons.inj hm
      exact .inr ⟨a, b, rfl, rfl⟩
  · cases m with
    | nil => exact .inl (List.cons.inj hm).2.symm
    | cons c m =>
      have hmem : ')' ∈ f.closing := by
        rw [(List.cons.inj hm).2]
        exact List.mem_append_right m List.mem_cons_self
      exact absurd hmem f.not_mem_closing.1

/-! ## Frames as tokens -/

/-- The assertions in front of the group. -/
def front : Frame → List Atom
  | group => []
  | textStart f => .escape (.assertion .textStart) :: f.front
  | textEnd f => f.front

/-- The assertions behind the group. -/
def back : Frame → List Atom
  | group => []
  | textStart f => f.back
  | textEnd f => f.back ++ [.escape (.assertion .textEnd)]

/-- The tokens of a framed pattern. -/
def tokens (f : Frame) (ts : List Token) : List Token :=
  f.front.map atom ++ opened none [] :: (ts ++ closed :: f.back.map atom)

/-- The marks in front are read as the places they stand for. -/
theorem scans_opening (f : Frame) (ignoring : Bool) (outer : List Bool) (s : List Char) :
    Scans ⟨ignoring, outer, f.opening ++ s⟩ (f.front.map atom) ⟨ignoring, outer, s⟩ := by
  induction f with
  | group => exact .done _
  | textStart f ih =>
    refine .token (c := '\\') (r := 'A' :: (f.opening ++ s)) ?_ rfl rfl ih
    cases ignoring <;> rfl
  | textEnd f ih => exact ih

/-- And so are the marks behind. -/
theorem scans_closing (f : Frame) (ignoring : Bool) (outer : List Bool) (s : List Char) :
    Scans ⟨ignoring, outer, f.closing ++ s⟩ (f.back.map atom) ⟨ignoring, outer, s⟩ := by
  induction f generalizing s with
  | group => exact .done _
  | textStart f ih => exact ih s
  | textEnd f ih =>
    have hend : Scans ⟨ignoring, outer, '\\' :: 'z' :: s⟩
        [atom (.escape (.assertion .textEnd))] ⟨ignoring, outer, s⟩ := by
      refine .token (c := '\\') (r := 'z' :: s) ?_ rfl rfl (.done _)
      cases ignoring <;> rfl
    have happend := (ih ('\\' :: 'z' :: s)).append hend
    rw [closing, back, List.append_assoc, List.map_append]
    exact happend

/-- A scan comes to the source in the group. -/
theorem scans_text (f : Frame) (ignoring : Bool) (source : List Char) :
    Scans ⟨ignoring, [], f.text source⟩ (f.front.map atom ++ [opened none []])
      ⟨ignoring, [ignoring], source ++ ')' :: f.closing⟩ := by
  rw [text_eq]
  refine (f.scans_opening ignoring [] _).append ?_
  refine .token (c := '(') (r := '?' :: ':' :: (source ++ ')' :: f.closing)) ?_ ?_ rfl (.done _)
  · cases ignoring <;> rfl
  · cases ignoring <;> rfl

theorem filterMap_name?_atoms (as : List Atom) : (as.map atom).filterMap name? = [] := by
  induction as with
  | nil => rfl
  | cons a as ih => exact ih

/-- A frame has no names of its own. -/
theorem filterMap_name?_tokens (f : Frame) (ts : List Token) :
    (f.tokens ts).filterMap name? = ts.filterMap name? := by
  rw [tokens, List.filterMap_append, filterMap_name?_atoms, List.nil_append,
    List.filterMap_cons_none rfl, List.filterMap_append, List.filterMap_cons_none rfl,
    filterMap_name?_atoms, List.append_nil]

end Frame

namespace Token

/-- Where no group is open, none can be closed. -/
theorem scan_eq_none_of_closing {s r : List Char} {ignoring' : Bool} {s' : List Char}
    (h : Scans ⟨ignoring, [], s⟩ ts ⟨ignoring', [], s'⟩)
    (hs : Layout.skip ignoring' s' = ')' :: r) : scan ignoring s = none := by
  cases hscan : scan ignoring s with
  | none => rfl
  | some ts' =>
    obtain ⟨⟨ignoring₁, s₁, h', hend⟩, -⟩ := scan_eq_some_iff.1 hscan
    obtain ⟨ts'', -, htail⟩ := h.exists_append h' hend
    cases htail.eq_of_closing hs
    cases hs.symm.trans hend

/-- A scan to the end of a pattern decides how the pattern is read. -/
theorem scan_of_scans {s s' : List Char} {ignoring' : Bool}
    (h : Scans ⟨ignoring, [], s⟩ ts ⟨ignoring', [], s'⟩) (hend : Layout.skip ignoring' s' = []) :
    scan ignoring s = if (ts.filterMap name?).Nodup then some ts else none := by
  have hfrom : scanFrom (s.length + 1) ignoring [] s = some ts :=
    (scanFrom_eq_some_iff (Nat.lt_succ_self _)).2 ⟨ignoring', s', h, hend⟩
  rw [scan, hfrom]
  rfl

/-- **A line end behind a pattern makes no difference where blanks are ignored.** -/
theorem scan_line (h : EndsIgnoring ignoring source) :
    scan ignoring (source ++ ['\n']) = scan ignoring source := by
  obtain ⟨ts, s, hscan, hs⟩ := h
  obtain ⟨s', hscan', hs'⟩ := hscan.line hs stops_nil List.not_mem_nil
  rw [scan_of_scans hscan' hs', scan_of_scans hscan hs]

/-- What stands before the parenthesis that closes a group is a pattern, whatever follows. -/
theorem scan_of_closing {a j v : List Char} {ignoring' : Bool} (hv : Closing v)
    (h : Scans ⟨ignoring, [], a ++ v⟩ ts ⟨ignoring', [], j ++ v⟩)
    (hclose : Layout.skip ignoring' (j ++ v) = v) (hnodup : (ts.filterMap name?).Nodup) :
    scan ignoring a = some ts ∧ ∀ b, scan ignoring (a ++ ')' :: b) = none := by
  have hend : ∀ i, j = '\x7b' :: i → Layout.skip ignoring' i ≠ [] := by
    rintro i rfl
    rw [List.cons_append, Layout.skip_brace] at hclose
    cases hclose ▸ hv
  have hj : Layout.skip ignoring' j = [] := Layout.skip_of_append hv.stops hclose
  constructor
  · have hscan := h.exchange hv stops_nil rfl rfl hend
    rw [List.append_nil, List.append_nil] at hscan
    exact scan_eq_some_iff.2 ⟨⟨ignoring', j, hscan, hj⟩, hnodup⟩
  · intro b
    have hb : Stops (')' :: b) := Closing.stops rfl
    exact scan_eq_none_of_closing (h.exchange hv hb rfl rfl hend)
      (Layout.skip_exchange (k := []) hv hb hclose)

/-- **The group of a framed pattern holds a pattern**, which is the source or stands in it before a
closing parenthesis; if it is not the source, this is no pattern itself. -/
theorem exists_content_of_framed (f : Frame) (h : scan ignoring (f.text source) = some ts) :
    ∃ content ts₁ ts₂, scan ignoring content = some ts₁ ∧
      ts = f.front.map atom ++ opened none [] :: (ts₁ ++ closed :: ts₂) ∧
      (content = source ∧ ts₂ = f.back.map atom ∨
        scan ignoring source = none ∧ ∃ b, source = content ++ ')' :: b) := by
  obtain ⟨⟨ignoring', s', hscan, hend⟩, hnodup⟩ := scan_eq_some_iff.1 h
  obtain ⟨ts, rfl, htail⟩ := (f.scans_text ignoring source).exists_append hscan hend
  obtain ⟨ts₁, ts₂, ignoring₁, s₁, r, rfl, hgroup, hclose, hrest⟩ :=
    htail.exists_closed (List.nil_append [ignoring]).symm (Nat.le_refl 0)
  have hnodup₁ : (ts₁.filterMap name?).Nodup := by
    refine hnodup.sublist (List.Sublist.filterMap _ ?_)
    exact (List.sublist_append_left ts₁ _).trans (List.sublist_append_right _ _)
  obtain ⟨j, rfl⟩ : ')' :: r <:+ s₁ := hclose ▸ Layout.skip_suffix ignoring₁ s₁
  have hv : Closing (')' :: r) := rfl
  have hsuffix : ')' :: r <:+ source ++ ')' :: f.closing :=
    (List.suffix_append j _).trans hgroup.suffix
  have htokens : f.front.map atom ++ [opened none []] ++ (ts₁ ++ closed :: ts₂) =
      f.front.map atom ++ opened none [] :: (ts₁ ++ closed :: ts₂) := by
    rw [List.append_assoc, List.singleton_append]
  rcases Frame.closing_of_suffix hsuffix with rfl | ⟨a, b, rfl, rfl⟩
  · obtain ⟨hsource, -⟩ := scan_of_closing hv hgroup hclose hnodup₁
    refine ⟨source, ts₁, ts₂, hsource, htokens, .inl ⟨rfl, ?_⟩⟩
    have hback := f.scans_closing ignoring [] []
    rw [List.append_nil] at hback
    obtain ⟨ts₃, rfl, hlast⟩ := hback.exists_append hrest hend
    obtain ⟨rfl, -⟩ := hlast.of_end (Layout.skip_nil _)
    exact List.append_nil _
  · have htext : (a ++ ')' :: b) ++ ')' :: f.closing = a ++ ')' :: (b ++ ')' :: f.closing) := by
      rw [List.append_assoc, List.cons_append]
    rw [htext] at hgroup
    obtain ⟨ha, hnone⟩ := scan_of_closing hv hgroup hclose hnodup₁
    exact ⟨a, ts₁, ts₂, ha, htokens, .inr ⟨hnone b, b, rfl⟩⟩

/-- **A pattern can be read in a frame**, unless a comment of its own is open at its end. -/
theorem scan_framed (f : Frame) (hc : CommentsEnd source) (h : scan ignoring source = some ts) :
    scan ignoring (f.text source) = some (f.tokens ts) := by
  obtain ⟨⟨ignoring', s', hscan, hs'⟩, hnodup⟩ := scan_eq_some_iff.1 h
  have hv : Follows (')' :: f.closing) [] := .closing rfl fun hmem =>
    f.not_mem_closing.2 ((List.mem_cons.1 hmem).resolve_left (by decide))
  have hopen : ∀ {s}, CommentsEnd s → ¬(CommentsEnd s → (')' :: f.closing).head? = some '\n') :=
    fun hs h => absurd (Option.some.inj (h hs)) (by decide)
  have hinner : Scans ⟨ignoring, [], source ++ ')' :: f.closing⟩ ts
      ⟨ignoring', [], s' ++ ')' :: f.closing⟩ :=
    (hscan.extend hv hs').resolve_right fun h => hopen hc h.1
  have hskip : Layout.skip ignoring' (s' ++ ')' :: f.closing) = ')' :: f.closing := by
    rcases Layout.skip_extend hv with hskip | ⟨-, hline, -⟩
    · rw [hskip, hs', List.nil_append]
    · exact absurd hline (hopen (hc.suffix hscan.suffix))
  have hback := f.scans_closing ignoring [] []
  rw [List.append_nil] at hback
  have hgroup := (hinner.within [ignoring]).append (.token hskip rfl rfl hback)
  have hall := (f.scans_text ignoring source).append hgroup
  rw [List.append_assoc, List.singleton_append] at hall
  refine scan_eq_some_iff.2 ⟨⟨ignoring, [], hall, Layout.skip_nil _⟩, ?_⟩
  exact (f.filterMap_name?_tokens ts).symm ▸ hnodup

end Token

/-! ## Trees -/

/-- Every group that opens is closed, and so are `n` groups around. -/
def Token.Balanced : Nat → List Token → Prop
  | n, [] => n = 0
  | n, opened _ _ :: ts => Balanced (n + 1) ts
  | 0, closed :: _ => False
  | n + 1, closed :: ts => Balanced n ts
  | n, _ :: ts => Balanced n ts

/-- Text that is read up to a place where no group is open has closed as many groups as were open
before it. -/
theorem Token.Scans.balanced {p q : Place} (h : Scans p ts q) (hq : q.outer = []) :
    Balanced p.outer.length ts := by
  induction h with
  | done p => rw [hq]; rfl
  | @token p q c r rest token ignoring outer ts _ _ hsettle _ ih =>
    have ih := ih hq
    cases token with
    | closed =>
      cases houter : p.outer with
      | nil =>
        rw [houter] at hsettle
        cases hsettle
      | cons b o =>
        rw [houter] at hsettle
        cases hsettle
        exact ih
    | _ =>
      cases hsettle
      exact ih

theorem Token.balanced_of_scan (h : scan ignoring source = some ts) : Balanced 0 ts := by
  obtain ⟨⟨_, _, hscan, -⟩, -⟩ := scan_eq_some_iff.1 h
  exact hscan.balanced rfl

namespace Phrase

/-- The outermost of some groups under construction. -/
def outermost (d : Draft) (outer : List Draft) : Draft := outer.getLast?.getD d

theorem outermost_cons (d e : Draft) (outer : List Draft) :
    outermost d (e :: outer) = outermost e outer := by
  simp [outermost, List.getLast?_cons]

/-- What holds of the outermost group still does when the innermost one grows. -/
theorem outermost_imp {P : Draft → Prop} {d d' : Draft} {outer : List Draft} (h : P d → P d') :
    P (outermost d outer) → P (outermost d' outer) := by
  cases outer with
  | nil => exact h
  | cons e outer => rw [outermost_cons, outermost_cons]; exact id

/-- The switches of the outermost group are those it was opened with. -/
theorem changes_outermost_congr (d d' : Draft) (outer : List Draft)
    (h : d.changes = d'.changes) :
    (outermost d outer).changes = (outermost d' outer).changes := by
  cases outer with
  | nil => exact h
  | cons e outer => rw [outermost_cons, outermost_cons]

section

variable (d : Draft) (outer : List Draft)

theorem build_atom (a : Atom) (ts : List Token) :
    build d outer (.atom a :: ts) = build (d.push (atom a)) outer ts := by
  rw [build]

theorem build_bar (ts : List Token) : build d outer (.bar :: ts) = build d.split outer ts := by
  rw [build]

theorem build_switched (changes : FlagChanges) (ts : List Token) :
    build d outer (.switched changes :: ts) = build (d.push (switched changes)) outer ts := by
  rw [build]

theorem build_opened (name : Option (List Char)) (changes : FlagChanges) (ts : List Token) :
    build d outer (.opened name changes :: ts) =
      build (.ofChanges changes) (d :: outer) ts := by
  rw [build]

theorem build_repeated (least : Nat) (most : Option Nat) (ts : List Token) :
    build d outer (.repeated least most :: ts) =
      (d.repeatLast? least most).bind fun d => build d outer ts := by
  rw [build]
  rfl

/-- Atoms are put behind what there is, one by one. -/
theorem build_atoms (as : List Atom) (ts : List Token) :
    build d outer (as.map .atom ++ ts) =
      build { d with parts := (as.map atom).reverse ++ d.parts } outer ts := by
  induction as generalizing d with
  | nil => rfl
  | cons a as ih =>
    rw [List.map_cons, List.cons_append, build_atom, ih]
    simp [Draft.push]

end

theorem changes_of_repeatLast? {d d' : Draft} {least : Nat} {most : Option Nat}
    (h : d.repeatLast? least most = some d') : d'.changes = d.changes := by
  unfold Draft.repeatLast? at h
  split at h <;> cases h
  rfl

/-- **A group is built as a tree of its own is.** -/
theorem build_group {d e : Draft} {outer o : List Draft} {rest : List Token}
    (h : Balanced outer.length ts) :
    build d (outer ++ e :: o) (ts ++ closed :: rest) =
      (build d outer ts).bind fun body =>
        build (e.push (group (outermost d outer).changes body)) o rest := by
  induction ts generalizing d outer with
  | nil =>
    obtain rfl : outer = [] := List.length_eq_zero_iff.1 h
    rfl
  | cons token ts ih =>
    rw [List.cons_append]
    cases token with
    | atom a =>
      simp only [build_atom, changes_outermost_congr d (d.push (atom a)) outer rfl]
      exact ih h
    | bar =>
      simp only [build_bar, changes_outermost_congr d d.split outer rfl]
      exact ih h
    | switched changes =>
      simp only [build_switched,
        changes_outermost_congr d (d.push (switched changes)) outer rfl]
      exact ih h
    | opened name changes =>
      simp only [build_opened, ← outermost_cons (.ofChanges changes) d outer]
      rw [← List.cons_append]
      exact ih h
    | closed =>
      cases outer with
      | nil => cases h
      | cons parent outer =>
        rw [outermost_cons,
          changes_outermost_congr parent (parent.push (group d.changes d.body)) outer rfl]
        exact ih h
    | repeated least most =>
      rw [build_repeated, build_repeated]
      cases hlast : d.repeatLast? least most with
      | none => rfl
      | some d' =>
        rw [changes_outermost_congr d d' outer (changes_of_repeatLast? hlast).symm]
        exact ih h

/-- The group of a frame is built first, then what stands behind it. -/
theorem build_content (f : Frame) {rest : List Token} (h : Balanced 0 ts) :
    build (.ofChanges []) [] (f.front.map .atom ++ opened none [] :: (ts ++ closed :: rest)) =
      (build (.ofChanges []) [] ts).bind fun body =>
        build ⟨[], [], group [] body :: (f.front.map atom).reverse⟩ [] rest := by
  rw [build_atoms, build_opened, Draft.ofChanges, List.append_nil]
  exact @build_group ts _ _ [] _ _ h

/-- The parts of a framed tree. -/
def framed (f : Frame) (body : Phrase) : List Phrase :=
  f.front.map atom ++ group [] body :: f.back.map atom

/-- **A framed source is built as its body in the frame.** -/
theorem build_framed (f : Frame) (h : Balanced 0 ts) :
    build (.ofChanges []) [] (f.tokens ts) =
      (build (.ofChanges []) [] ts).map fun body => inSequence (framed f body) := by
  rw [Frame.tokens, build_content f h, Option.map_eq_bind]
  refine congrArg _ (funext fun body => ?_)
  have hback := build_atoms ⟨[], [], group [] body :: (f.front.map atom).reverse⟩ [] f.back []
  rw [List.append_nil] at hback
  rw [hback, build]
  simp [Draft.body, Draft.split, inAlternatives, framed]

end Phrase
end TreeRules.Pattern
