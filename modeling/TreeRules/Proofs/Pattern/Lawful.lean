import TreeRules.Proofs.Pattern.Backend
import TreeRules.Proofs.Pattern.Bounded

/-!
# Proofs/Pattern/Lawful — the backend at hand keeps the rules

That a search finds what is there is `Expr.isFoundIn_iff`, and that a line end changes nothing where
blanks are ignored is a matter of tokens alone.  For the rules about groups, two things are read off
the tree of a framed pattern.

**What it matches** (`Phrase.exists_sequence?_framed`).  The tree is the one of the pattern in a row
with assertions, so its expression is the one of the pattern in a row with looks at both sides.

**What is read first** (`Phrase.readsFirst_of_build`).  Nothing in front of the group throws a
switch.  So whatever follows the group, its content is read in the modes the whole pattern begins
in, as it would be on its own.
-/

namespace TreeRules.Pattern

open Token

variable {source : List Char} {ts : List Token}

namespace Phrase

variable {body p : Phrase} {ps : List Phrase} {d d' : Draft}

/-! ## Parts in a row -/

/-- The parts of a sequence have expressions, each with the switches that the one before it has
left. -/
theorem exists_of_sequence?_cons {m : Modes} {y : Expr × Modes}
    (h : sequence? m (p :: ps) = some y) :
    ∃ e m' y', p.expr? m = some (e, m') ∧ sequence? m' ps = some y' := by
  rw [sequence?] at h
  obtain ⟨⟨e, m'⟩, hp, h⟩ := Option.bind_eq_some_iff.1 h
  obtain ⟨y', hps, -⟩ := Option.bind_eq_some_iff.1 h
  exact ⟨e, m', y', hp, hps⟩

theorem sequence?_cons {m m' : Modes} {e : Expr} {y : Expr × Modes} (hp : p.expr? m = some (e, m'))
    (hps : sequence? m' ps = some y) : sequence? m (p :: ps) = some (.seq e y.1, y.2) := by
  rw [sequence?, hp]
  dsimp only [Option.bind_eq_bind, Option.bind_some]
  rw [hps]
  rfl

/-! ## What a frame matches -/

variable {m m' : Modes} {e w : Expr} {b a : Option Char} {u : List Char}

/-- What begins with the start of the text has nothing before it. -/
theorem spans_textStart_iff :
    Expr.Spans (.seq (.look .textStart) e) b u a ↔ b = none ∧ Expr.Spans e b u a := by
  rw [Expr.spans_seq_iff]
  constructor
  · rintro ⟨_, v, rfl, hstart, h⟩
    obtain ⟨rfl, hb⟩ := Expr.spans_look_iff.1 hstart
    exact ⟨Option.isNone_iff_eq_none.1 hb, h⟩
  · rintro ⟨rfl, h⟩
    exact ⟨[], u, rfl, Expr.spans_look_iff.2 ⟨rfl, rfl⟩, h⟩

/-- What ends with the end of the text has nothing after it. -/
theorem spans_textEnd_iff :
    Expr.Spans (.seq (.look .textEnd) .empty) b u a ↔ a = none ∧ Expr.Spans .empty b u a := by
  rw [Expr.spans_seq_iff, Expr.spans_empty_iff]
  constructor
  · rintro ⟨_, v, rfl, hend, h⟩
    obtain rfl := Expr.spans_empty_iff.1 h
    obtain ⟨rfl, ha⟩ := Expr.spans_look_iff.1 hend
    exact ⟨Option.isNone_iff_eq_none.1 ha, rfl⟩
  · rintro ⟨rfl, rfl⟩
    exact ⟨[], [], rfl, Expr.spans_look_iff.2 ⟨rfl, rfl⟩, .empty⟩

/-- The assertion that the text ends, behind parts in a row. -/
theorem exists_sequence?_textEnd (h : sequence? m ps = some (e, m')) :
    ∃ w, sequence? m (ps ++ [atom (.escape (.assertion .textEnd))]) = some (w, m') ∧
      ∀ b u a, Expr.Spans w b u a ↔ a = none ∧ Expr.Spans e b u a := by
  induction ps generalizing m e with
  | nil =>
    rw [sequence?] at h
    cases h
    have hatom : (atom (.escape (.assertion .textEnd))).expr? m' = some (.look .textEnd, m') := by
      rw [expr?]
      rfl
    rw [List.nil_append]
    exact ⟨_, sequence?_cons hatom (by rw [sequence?]), fun b u a => spans_textEnd_iff⟩
  | cons p ps ih =>
    rw [sequence?] at h
    obtain ⟨⟨e₁, m₁⟩, hp, h⟩ := Option.bind_eq_some_iff.1 h
    obtain ⟨⟨e₂, m₂⟩, hps, heq⟩ := Option.bind_eq_some_iff.1 h
    cases heq
    obtain ⟨w, hw, hspans⟩ := ih hps
    refine ⟨_, sequence?_cons hp hw, fun b u a => ?_⟩
    simp only [Expr.spans_seq_iff, hspans]
    constructor
    · rintro ⟨v, v', rfl, h, rfl, h'⟩
      exact ⟨rfl, v, v', rfl, h, h'⟩
    · rintro ⟨rfl, v, v', rfl, h, h'⟩
      exact ⟨v, v', rfl, h, rfl, h'⟩

/-- **A frame around a tree matches what the frame says** around what the tree matches. -/
theorem exists_sequence?_framed (f : Frame) (h : body.expr? m = some (e, m')) :
    ∃ w, sequence? m (framed f body) = some (w, m) ∧
      ∀ p u s, Expr.backend.Spans w p u s ↔ f.Spans (Expr.backend.Spans e) p u s := by
  induction f with
  | group =>
    have hgroup : (group [] body).expr? m = some (e, m) := by
      rw [expr?, Modes.change_nil, h]
      rfl
    have hparts : framed .group body = [group [] body] := rfl
    rw [hparts]
    exact ⟨_, sequence?_cons hgroup (by rw [sequence?]), fun p u s => Expr.spans_seq_empty_iff⟩
  | textStart f ih =>
    obtain ⟨w, hw, hspans⟩ := ih
    have hatom : (atom (.escape (.assertion .textStart))).expr? m =
        some (.look .textStart, m) := by
      rw [expr?]
      rfl
    exact ⟨_, sequence?_cons hatom hw, fun p u s =>
      spans_textStart_iff.trans (and_congr List.getLast?_eq_none_iff (hspans p u s))⟩
  | textEnd f ih =>
    obtain ⟨w, hw, hspans⟩ := ih
    obtain ⟨w', hw', hspans'⟩ := exists_sequence?_textEnd hw
    have hparts : framed (.textEnd f) body =
        framed f body ++ [atom (.escape (.assertion .textEnd))] := by
      simp [framed, Frame.front, Frame.back]
    refine ⟨w', hparts ▸ hw', fun p u s => ?_⟩
    exact (hspans' _ _ _).trans (and_congr List.head?_eq_none_iff (hspans p u s))

/-- Parts in a row match what the sequence of them does, also if there is only one. -/
theorem exists_inSequence (h : sequence? m ps = some (e, m')) :
    ∃ w, (inSequence ps).expr? m = some (w, m') ∧
      ∀ b u a, Expr.Spans w b u a ↔ Expr.Spans e b u a := by
  match ps with
  | [] =>
    rw [sequence?] at h
    cases h
    exact ⟨.empty, by rw [inSequence, expr?], fun b u a => Iff.rfl⟩
  | [p] =>
    rw [sequence?] at h
    obtain ⟨⟨e₁, m₁⟩, hp, h⟩ := Option.bind_eq_some_iff.1 h
    dsimp only at h
    rw [sequence?] at h
    cases h
    exact ⟨e₁, hp, fun b u a => Expr.spans_seq_empty_iff.symm⟩
  | p :: q :: ps =>
    refine ⟨e, ?_, fun b u a => Iff.rfl⟩
    rw [inSequence, expr?]
    · exact h
    all_goals simp

/-! ## What is read first -/

/-- To read `p` in some modes, `body` has to be read in the same modes. -/
def ReadsFirst (body p : Phrase) : Prop :=
  ∀ ⦃m y⦄, p.expr? m = some y → ∃ y', body.expr? m = some y'

/-- So it is for parts in a row. -/
def Leads (body : Phrase) (ps : List Phrase) : Prop :=
  ∀ ⦃m y⦄, sequence? m ps = some y → ∃ y', body.expr? m = some y'

/-- What can be read in a row can be read up to any part. -/
theorem exists_of_sequence?_append {qs : List Phrase} {m : Modes} {y : Expr × Modes}
    (h : sequence? m (ps ++ qs) = some y) : ∃ y', sequence? m ps = some y' := by
  induction ps generalizing m y with
  | nil => exact ⟨_, by rw [sequence?]⟩
  | cons p ps ih =>
    obtain ⟨e, m', y', hp, hps⟩ := exists_of_sequence?_cons h
    obtain ⟨y', hps⟩ := ih hps
    exact ⟨_, sequence?_cons hp hps⟩

/-- A repetition reads its body, at least once. -/
theorem exists_of_sequence?_repeated {least : Nat} {most : Option Nat} {m : Modes}
    {y : Expr × Modes} (h : sequence? m (ps ++ [repeated least most p]) = some y) :
    ∃ y', sequence? m (ps ++ [p]) = some y' := by
  induction ps generalizing m y with
  | nil =>
    obtain ⟨e, m', y', hp, hps⟩ := exists_of_sequence?_cons h
    rw [expr?] at hp
    obtain ⟨⟨e', m''⟩, hp, heq⟩ := Option.bind_eq_some_iff.1 hp
    cases heq
    exact ⟨_, sequence?_cons hp hps⟩
  | cons q ps ih =>
    obtain ⟨e, m', y', hq, hps⟩ := exists_of_sequence?_cons h
    obtain ⟨y', hps⟩ := ih hps
    exact ⟨_, sequence?_cons hq hps⟩

/-- A group with nothing behind it. -/
theorem leads_group (body : Phrase) : Leads body [group [] body] := fun m y h => by
  obtain ⟨e, m', y', hp, -⟩ := exists_of_sequence?_cons h
  rw [expr?] at hp
  obtain ⟨y, hy, -⟩ := Option.bind_eq_some_iff.1 hp
  exact ⟨y, hy⟩

/-- An atom in front throws no switch. -/
theorem Leads.atom (h : Leads body ps) (a : Atom) : Leads body (atom a :: ps) := fun m y hy => by
  obtain ⟨e, m', y', hp, hps⟩ := exists_of_sequence?_cons hy
  rw [expr?] at hp
  obtain ⟨e', -, heq⟩ := Option.map_eq_some_iff.1 hp
  cases heq
  exact h hps

/-- What is put behind makes no difference. -/
theorem Leads.append (h : Leads body ps) (qs : List Phrase) : Leads body (ps ++ qs) :=
  fun _ _ hy => by
    obtain ⟨y', hps⟩ := exists_of_sequence?_append hy
    exact h hps

/-- Nor does a repetition of the last part. -/
theorem Leads.repeated (h : Leads body (ps ++ [p])) (least : Nat) (most : Option Nat) :
    Leads body (ps ++ [repeated least most p]) := fun _ _ hy => by
  obtain ⟨y', hy'⟩ := exists_of_sequence?_repeated hy
  exact h hy'

theorem Leads.inSequence (h : Leads body ps) : ReadsFirst body (inSequence ps) := by
  intro m y hy
  match ps with
  | [] => exact h (by rw [sequence?])
  | [p] =>
    have hp : p.expr? m = some (y.1, y.2) := hy
    exact h (sequence?_cons hp (by rw [sequence?]))
  | p :: q :: ps =>
    rw [Phrase.inSequence, expr?] at hy
    · exact h hy
    all_goals simp

/-- The first branch is read first. -/
theorem ReadsFirst.inAlternatives (h : ReadsFirst body p) (ps : List Phrase) :
    ReadsFirst body (inAlternatives (p :: ps)) := by
  match ps with
  | [] => exact h
  | q :: ps =>
    intro m y hy
    rw [Phrase.inAlternatives, expr?, alternatives?] at hy
    · obtain ⟨y', hp, -⟩ := Option.bind_eq_some_iff.1 hy
      exact h hp
    all_goals simp

/-- `body` is what is read first in the group under construction. -/
def Draft.Leads (body : Phrase) (d : Draft) : Prop :=
  (d.branches = [] ∧ Phrase.Leads body d.parts.reverse) ∨
    ∃ bs p, d.branches = bs ++ [p] ∧ ReadsFirst body p

theorem Draft.Leads.push (h : d.Leads body) (p : Phrase) : (d.push p).Leads body := by
  refine h.imp (fun ⟨hbranches, hparts⟩ => ⟨hbranches, ?_⟩) id
  rw [Draft.push, List.reverse_cons]
  exact hparts.append [p]

/-- Behind a bar the first branch is still the first. -/
theorem Draft.Leads.split (h : d.Leads body) : d.split.Leads body := by
  rcases h with ⟨hbranches, hparts⟩ | ⟨bs, p, hbranches, hp⟩
  · exact .inr ⟨[], _, by rw [Draft.split, hbranches]; rfl, hparts.inSequence⟩
  · exact .inr ⟨_ :: bs, p, by rw [Draft.split, hbranches]; rfl, hp⟩

theorem Draft.Leads.repeatLast? (h : d.Leads body) {least : Nat} {most : Option Nat}
    (hd : d.repeatLast? least most = some d') : d'.Leads body := by
  unfold Draft.repeatLast? at hd
  split at hd
  · cases hd
  · cases hd
  · next p parts _ hparts =>
    cases hd
    refine h.imp (fun ⟨hbranches, hleads⟩ => ⟨hbranches, ?_⟩) id
    rw [hparts, List.reverse_cons] at hleads
    rw [List.reverse_cons]
    exact hleads.repeated least most

/-- When the outermost group is closed, the first branch of its body leads with the group. -/
theorem Draft.Leads.readsFirst (h : d.Leads body) : ReadsFirst body d.body := by
  rw [Draft.body]
  rcases h with ⟨hbranches, hparts⟩ | ⟨bs, p, hbranches, hp⟩
  · rw [Draft.split, hbranches]
    exact hparts.inSequence
  · rw [Draft.split, hbranches, ← List.cons_append, List.reverse_append]
    exact hp.inAlternatives _

/-- **What is read first in a group under construction is read first in the finished tree.** -/
theorem readsFirst_of_build {outer : List Draft} (hd : (outermost d outer).Leads body)
    (h : build d outer ts = some p) : ReadsFirst body p := by
  induction ts generalizing d outer with
  | nil =>
    cases outer with
    | nil =>
      cases h
      exact hd.readsFirst
    | cons parent outer => cases h
  | cons token ts ih =>
    cases token with
    | atom a =>
      exact ih (outermost_imp (fun h => h.push (.atom a)) hd) (build_atom d outer a ts ▸ h)
    | bar => exact ih (outermost_imp Draft.Leads.split hd) (build_bar d outer ts ▸ h)
    | switched changes =>
      exact ih (outermost_imp (fun h => h.push (.switched changes)) hd)
        (build_switched d outer changes ts ▸ h)
    | opened name changes =>
      refine ih ?_ (build_opened d outer name changes ts ▸ h)
      rwa [outermost_cons]
    | closed =>
      cases outer with
      | nil => cases h
      | cons parent outer =>
        rw [outermost_cons] at hd
        exact ih (outermost_imp (fun h => h.push (.group d.changes d.body)) hd) h
    | repeated least most =>
      rw [build_repeated] at h
      obtain ⟨d', hd', h⟩ := Option.bind_eq_some_iff.1 h
      exact ih (outermost_imp (fun h => h.repeatLast? hd') hd) h

/-- In front of the group of a frame there are atoms alone. -/
theorem leads_framed (f : Frame) (body : Phrase) :
    Leads body (f.front.map Phrase.atom ++ [group [] body]) := by
  induction f.front with
  | nil => exact leads_group body
  | cons a as ih => exact ih.atom a

/-- The tree in the group of a frame is read first. -/
theorem readsFirst_of_framed {f : Frame} (h : build ⟨[], [], group [] body ::
    (f.front.map Phrase.atom).reverse⟩ [] ts = some p) : ReadsFirst body p := by
  refine readsFirst_of_build (.inl ⟨rfl, ?_⟩) h
  rw [outermost, List.getLast?_nil, Option.getD_none, List.reverse_cons, List.reverse_reverse]
  exact leads_framed f body

end Phrase

/-! ## The rules -/

namespace Expr

variable {m : Modes} {e c : Expr}

/-- What has a tree with an expression is not refused as no pattern. -/
theorem compile_ne_invalid {phrase : Phrase} (hts : scan m.ignoreBlanks source = some ts)
    (hbuild : Phrase.build (.ofChanges []) [] ts = some phrase)
    (hexpr : ∃ y, phrase.expr? m = some y) : compile m source ≠ .error .invalid := by
  obtain ⟨⟨e, m'⟩, hexpr⟩ := hexpr
  have hparse : Phrase.parse m.ignoreBlanks source = some phrase :=
    Option.bind_eq_some_iff.2 ⟨ts, hts, hbuild⟩
  rw [compile, hparse]
  dsimp only
  rw [hexpr]
  dsimp only
  intro h
  split at h
  · split at h <;> cases h
  · cases h

/-- A framed pattern has a tree and an expression, which matches what the frame says. -/
theorem exists_framed (f : Frame) (hts : scan m.ignoreBlanks source = some ts) {phrase : Phrase}
    (hbuild : Phrase.build (.ofChanges []) [] ts = some phrase) {m' : Modes}
    (hexpr : phrase.expr? m = some (e, m')) :
    ∃ whole w, Phrase.build (.ofChanges []) [] (f.tokens ts) = some whole ∧
      whole.expr? m = some (w, m) ∧
      ∀ p u s, backend.Spans w p u s ↔ f.Spans (backend.Spans e) p u s := by
  obtain ⟨w, hw, hspans⟩ := Phrase.exists_sequence?_framed f hexpr
  obtain ⟨w', hw', hspans'⟩ := Phrase.exists_inSequence hw
  refine ⟨_, w', ?_, hw', fun p u s => (hspans' _ _ _).trans (hspans p u s)⟩
  rw [Phrase.build_framed f (balanced_of_scan hts), hbuild, Option.map_some]

/-- **Finding a pattern is having a part of the text that it spans.** -/
theorem backend_found_iff (h : compile m source = .ok c) (text : List Char) :
    c.isFoundIn text = true ↔ ∃ p u s, text = p ++ u ++ s ∧ backend.Spans c p u s :=
  isFoundIn_iff (bounded_of_compile h)

/-- **In a frame the source spans what it spans alone**, with the places that the frame adds. -/
theorem backend_frame_spans_iff (f : Frame) (he : compile m source = .ok e)
    (hc : compile m (f.text source) = .ok c) (p u s : List Char) :
    backend.Spans c p u s ↔ f.Spans (backend.Spans e) p u s := by
  obtain ⟨ts, phrase, m', hts, hbuild, -, hexpr, -⟩ := compile_eq_ok_iff.1 he
  obtain ⟨ts', phrase', m'', hts', hbuild', -, hexpr', -⟩ := compile_eq_ok_iff.1 hc
  obtain ⟨content, ts₁, ts₂, hcontent, rfl, hwhere⟩ := exists_content_of_framed f hts'
  rcases hwhere with ⟨rfl, rfl⟩ | ⟨hnone, -⟩
  · cases hts.symm.trans hcontent
    obtain ⟨whole, w, hwhole, hw, hspans⟩ := exists_framed f hts hbuild hexpr
    cases hwhole.symm.trans hbuild'
    cases hw.symm.trans hexpr'
    exact hspans p u s
  · cases hnone.symm.trans hts

/-- **A source that makes sense alone makes sense in a frame** if its last comment ends. -/
theorem backend_frame_ne_invalid (f : Frame) (he : compile m source = .ok e)
    (hcomments : CommentsEnd source) : compile m (f.text source) ≠ .error .invalid := by
  obtain ⟨ts, phrase, m', hts, hbuild, -, hexpr, -⟩ := compile_eq_ok_iff.1 he
  obtain ⟨whole, w, hwhole, hw, -⟩ := exists_framed f hts hbuild hexpr
  exact compile_ne_invalid (scan_framed f hcomments hts) hwhole ⟨_, hw⟩

/-- **A source that makes sense in a frame only closes the group of the frame**, and what stands
before that parenthesis makes sense alone. -/
theorem backend_exists_closing (f : Frame) (hsource : compile m source = .error .invalid)
    (hc : compile m (f.text source) = .ok c) :
    ∃ a b, source = a ++ ')' :: b ∧ compile m a ≠ .error .invalid := by
  obtain ⟨ts, phrase, m', hts, hbuild, -, hexpr, -⟩ := compile_eq_ok_iff.1 hc
  obtain ⟨content, ts₁, ts₂, hcontent, rfl, hwhere⟩ := exists_content_of_framed f hts
  rw [Phrase.build_content f (balanced_of_scan hcontent)] at hbuild
  obtain ⟨body, hbody, hbuild⟩ := Option.bind_eq_some_iff.1 hbuild
  have hread : compile m content ≠ .error .invalid :=
    compile_ne_invalid hcontent hbody (Phrase.readsFirst_of_framed hbuild hexpr)
  rcases hwhere with ⟨rfl, -⟩ | ⟨-, b, rfl⟩
  · exact absurd hsource hread
  · exact ⟨content, b, rfl, hread⟩

/-- **A line end behind a source spans nothing** where blanks are ignored up to it. -/
theorem backend_line_spans_iff (hm : m.ignoreBlanks = true) (hhyphen : '-' ∉ source)
    (he : compile m source = .ok e) :
    ∃ e', compile m (source ++ ['\n']) = .ok e' ∧
      ∀ p u s, backend.Spans e' p u s ↔ backend.Spans e p u s := by
  obtain ⟨ts, -, -, hts, -⟩ := compile_eq_ok_iff.1 he
  rw [hm] at hts
  have hline : scan m.ignoreBlanks (source ++ ['\n']) = scan m.ignoreBlanks source := by
    rw [hm]
    exact scan_line (endsIgnoring_of_not_mem hhyphen hts)
  refine ⟨e, ?_, fun p u s => Iff.rfl⟩
  rw [compile, Phrase.parse, hline, ← Phrase.parse, ← compile, he]

/-- **The backend at hand keeps the rules.** -/
theorem backend_lawful : backend.Lawful where
  found_iff := backend_found_iff
  frame_spans_iff f := backend_frame_spans_iff f
  frame_ne_invalid f := backend_frame_ne_invalid f
  exists_closing f := backend_exists_closing f
  line_spans_iff := backend_line_spans_iff

end Expr

end TreeRules.Pattern
