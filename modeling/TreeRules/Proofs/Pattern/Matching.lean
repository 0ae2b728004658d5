import TreeRules.Pattern.Matching

/-!
# Proofs/Pattern/Matching — the walk through a text finds what is spanned

An expression spans a text that begins with `c` just if, after its step past `c`, something that is
left spans the rest (`Expr.spans_cons_iff`).  So the search, which keeps the expressions still to be
matched and begins the whole one anew at every place, finds an expression just where it occurs
(`Expr.isFoundIn_iff`).

A step leaves out the rounds of a repetition that match nothing, which is right only where a
repetition may make all the rounds it must: expressions are `Bounded`.
-/

namespace TreeRules.Pattern.Expr

/-- No repetition has more rounds to make than it may make. -/
def Bounded : Expr → Prop
  | empty | set _ | look _ => True
  | seq e f | alt e f => e.Bounded ∧ f.Bounded
  | times e least most => e.Bounded ∧ ∀ m ∈ most, least ≤ m

variable {e f : Expr} {b a : Option Char} {c : Char} {u v w text : List Char}

/-! ## What an expression spans, by its form -/

theorem spans_empty_iff : Spans empty b w a ↔ w = [] :=
  ⟨fun h => by cases h; rfl, fun h => h ▸ .empty⟩

theorem spans_set_iff {s : CharSet} :
    Spans (set s) b w a ↔ ∃ c, w = [c] ∧ s.contains c = true :=
  ⟨fun h => by cases h with | set hc => exact ⟨_, rfl, hc⟩, fun ⟨_, hw, hc⟩ => hw ▸ .set hc⟩

theorem spans_look_iff {l : Look} : Spans (look l) b w a ↔ w = [] ∧ l.holds b a = true :=
  ⟨fun h => by cases h with | look hl => exact ⟨rfl, hl⟩, fun ⟨hw, hl⟩ => hw ▸ .look hl⟩

theorem spans_seq_iff :
    Spans (seq e f) b w a ↔
      ∃ u v, w = u ++ v ∧ Spans e b u (v.head?.or a) ∧ Spans f (u.getLast?.or b) v a :=
  ⟨fun h => by cases h with | seq he hf => exact ⟨_, _, rfl, he, hf⟩,
    fun ⟨_, _, hw, he, hf⟩ => hw ▸ .seq he hf⟩

/-- Nothing behind an expression changes nothing. -/
theorem spans_seq_empty_iff : Spans (seq e empty) b w a ↔ Spans e b w a := by
  rw [spans_seq_iff]
  constructor
  · rintro ⟨u, v, rfl, he, hv⟩
    obtain rfl := spans_empty_iff.1 hv
    rwa [List.append_nil]
  · exact fun he => ⟨w, [], (List.append_nil w).symm, he, .empty⟩

theorem spans_alt_iff : Spans (alt e f) b w a ↔ Spans e b w a ∨ Spans f b w a :=
  ⟨fun h => by cases h with
    | left he => exact .inl he
    | right hf => exact .inr hf,
  fun h => h.elim .left .right⟩

/-- What is put before another is matched before it, written as a sequence or not. -/
theorem spans_followedBy_iff : Spans (followedBy f e) b w a ↔ Spans (seq e f) b w a := by
  cases e with
  | empty =>
    rw [followedBy, spans_seq_iff]
    constructor
    · exact fun h => ⟨[], w, rfl, .empty, h⟩
    · rintro ⟨u, v, rfl, he, hf⟩
      rw [spans_empty_iff.1 he] at hf ⊢
      exact hf
  | _ => rfl

/-! ## Repetitions, by the number of rounds -/

/-- The text is spanned in `n` rounds. -/
inductive Rounds (e : Expr) : Nat → Option Char → List Char → Option Char → Prop
  | none {b a : Option Char} : Rounds e 0 b [] a
  | more {n : Nat} {b : Option Char} {u v : List Char} {a : Option Char} :
      Spans e b u (v.head?.or a) → Rounds e n (u.getLast?.or b) v a →
      Rounds e (n + 1) b (u ++ v) a

theorem Rounds.of_spans {least : Nat} {most : Option Nat}
    (h : Spans (times e least most) b w a) :
    ∃ n, Rounds e n b w a ∧ least ≤ n ∧ ∀ m ∈ most, n ≤ m := by
  generalize hx : times e least most = x at h
  induction h generalizing least most with
  | none =>
    cases hx
    exact ⟨0, .none, Nat.le_refl 0, fun m _ => Nat.zero_le m⟩
  | more hm hu _ _ ih =>
    cases hx
    obtain ⟨n, hn, hleast, hmost⟩ := ih rfl
    refine ⟨n + 1, .more hu hn, by omega, fun m hm' => ?_⟩
    have hpred : n ≤ m - 1 := hmost (m - 1) (Option.mem_map_of_mem _ hm')
    have hpos : m ≠ 0 := fun h0 => hm (h0 ▸ hm')
    omega
  | _ => cases hx

theorem Rounds.spans {n : Nat} (h : Rounds e n b w a) {least : Nat} {most : Option Nat}
    (hleast : least ≤ n) (hmost : ∀ m ∈ most, n ≤ m) : Spans (times e least most) b w a := by
  induction h generalizing least most with
  | none =>
    rw [Nat.le_zero.1 hleast]
    exact .none
  | more hu _ ih =>
    refine .more (fun h => ?_) hu (ih (by omega) fun m hm => ?_)
    · exact absurd (hmost 0 h) (by omega)
    · obtain ⟨m', hm', rfl⟩ := Option.map_eq_some_iff.1 hm
      have := hmost m' hm'
      omega

/-- A repetition spans what a number of rounds within its bounds spans. -/
theorem spans_times_iff {least : Nat} {most : Option Nat} :
    Spans (times e least most) b w a ↔
      ∃ n, Rounds e n b w a ∧ least ≤ n ∧ ∀ m ∈ most, n ≤ m :=
  ⟨Rounds.of_spans, fun ⟨_, h, hleast, hmost⟩ => h.spans hleast hmost⟩

/-- Where nothing is spanned as well, there may be more rounds. -/
theorem Rounds.pad {n : Nat} (he : Spans e b [] (w.head?.or a)) (h : Rounds e n b w a) :
    ∀ i, Rounds e (n + i) b w a
  | 0 => h
  | i + 1 => .more he (h.pad he i)

/-- Of rounds that span something, the first that does stands after rounds that span nothing. -/
theorem Rounds.exists_first {n : Nat} (h : Rounds e n b (c :: w) a) :
    ∃ u v j, w = u ++ v ∧ Spans e b (c :: u) (v.head?.or a) ∧
      Rounds e j ((c :: u).getLast?.or b) v a ∧
      (j + 1 = n ∨ j + 1 ≤ n ∧ Spans e b [] (some c)) := by
  generalize hx : c :: w = x at h
  induction h with
  | none => cases hx
  | @more n b u v a hu hv ih =>
    cases u with
    | nil =>
      subst hx
      obtain ⟨u', v', j, hw, hu', hv', hj⟩ := ih rfl
      refine ⟨u', v', j, hw, hu', hv', .inr ⟨?_, hu⟩⟩
      rcases hj with hj | ⟨hj, -⟩ <;> omega
    | cons d u =>
      cases hx
      exact ⟨u, v, n, rfl, hu, hv, .inl rfl⟩

/-- Rounds over no characters are none, or rounds that match nothing. -/
theorem rounds_nil_iff {n : Nat} : Rounds e n b [] a ↔ n = 0 ∨ Spans e b [] a := by
  constructor
  · intro h
    generalize hx : ([] : List Char) = x at h
    cases h with
    | none => exact .inl rfl
    | more hu =>
      obtain ⟨rfl, rfl⟩ := List.append_eq_nil_iff.1 hx.symm
      exact .inr hu
  · rintro (rfl | h)
    · exact .none
    · simpa using Rounds.none.pad h n

/-- A round of a set is a character of it. -/
theorem rounds_set_iff {s : CharSet} {n : Nat} :
    Rounds (set s) n b w a ↔ w.length = n ∧ ∀ c ∈ w, s.contains c = true := by
  constructor
  · intro h
    induction h with
    | none => exact ⟨rfl, fun c hc => absurd hc List.not_mem_nil⟩
    | more hu _ ih =>
      obtain ⟨c, rfl, hc⟩ := spans_set_iff.1 hu
      obtain ⟨hlength, hall⟩ := ih
      exact ⟨congrArg Nat.succ hlength, List.forall_mem_cons.2 ⟨hc, hall⟩⟩
  · rintro ⟨rfl, hall⟩
    induction w generalizing b with
    | nil => exact .none
    | cons c w ih =>
      obtain ⟨hc, hall⟩ := List.forall_mem_cons.1 hall
      exact .more (u := [c]) (.set hc) (ih hall)

/-- A repeated set spans as many of its characters as it may be repeated. -/
theorem spans_times_set_iff {s : CharSet} {least : Nat} {most : Option Nat} :
    Spans (times (set s) least most) b w a ↔
      (∀ c ∈ w, s.contains c = true) ∧ least ≤ w.length ∧ ∀ m ∈ most, w.length ≤ m := by
  rw [spans_times_iff]
  constructor
  · rintro ⟨n, hn, hbounds⟩
    obtain ⟨rfl, hall⟩ := rounds_set_iff.1 hn
    exact ⟨hall, hbounds⟩
  · exact fun ⟨hall, hbounds⟩ => ⟨w.length, rounds_set_iff.2 ⟨rfl, hall⟩, hbounds⟩

/-- A set that may be left out spans one of its characters or nothing. -/
theorem spans_optional_set_iff {s : CharSet} :
    Spans (times (set s) 0 (some 1)) b w a ↔ w = [] ∨ ∃ c, s.contains c = true ∧ w = [c] := by
  rw [spans_times_set_iff]
  constructor
  · rintro ⟨hall, -, hone⟩
    rcases Nat.le_one_iff_eq_zero_or_eq_one.1 (hone 1 rfl) with hzero | hlength
    · exact .inl (List.length_eq_zero_iff.1 hzero)
    · obtain ⟨c, rfl⟩ := List.length_eq_one_iff.1 hlength
      exact .inr ⟨c, hall c List.mem_cons_self, rfl⟩
  · rintro (rfl | ⟨c, hc, rfl⟩)
    · exact ⟨fun c hc => absurd hc List.not_mem_nil, Nat.le_refl 0, fun m _ => Nat.zero_le m⟩
    · refine ⟨fun d hd => List.mem_singleton.1 hd ▸ hc, Nat.zero_le 1, fun m hm => ?_⟩
      exact Nat.le_of_eq (Option.some.inj hm)

/-! ## One place at a time -/

/-- An expression accepts between two characters just if it spans nothing there. -/
theorem accepts_iff (h : e.Bounded) : e.accepts b a = true ↔ Spans e b [] a := by
  induction e generalizing b a with
  | empty => simp [accepts, spans_empty_iff]
  | set s => simp [accepts, spans_set_iff]
  | look l => simp [accepts, spans_look_iff]
  | seq e f ihe ihf =>
    rw [accepts, Bool.and_eq_true, ihe h.1, ihf h.2, spans_seq_iff]
    constructor
    · exact fun ⟨he, hf⟩ => ⟨[], [], rfl, he, hf⟩
    · rintro ⟨u, v, hw, he, hf⟩
      obtain ⟨rfl, rfl⟩ := List.append_eq_nil_iff.1 hw.symm
      exact ⟨he, hf⟩
  | alt e f ihe ihf => rw [accepts, Bool.or_eq_true, ihe h.1, ihf h.2, spans_alt_iff]
  | times e least most ih =>
    rw [accepts, Bool.or_eq_true, beq_iff_eq, ih h.1, spans_times_iff]
    constructor
    · rintro (rfl | he)
      · exact ⟨0, .none, Nat.le_refl 0, fun m _ => Nat.zero_le m⟩
      · exact ⟨least, rounds_nil_iff.2 (.inr he), Nat.le_refl least, h.2⟩
    · rintro ⟨n, hn, hleast, -⟩
      rcases rounds_nil_iff.1 hn with rfl | he
      · exact .inl (Nat.le_zero.1 hleast)
      · exact .inr he

theorem getLast?_cons_or (c : Char) (u : List Char) (b : Option Char) :
    (c :: u).getLast?.or b = u.getLast?.or (some c) := by
  rw [List.getLast?_cons]
  cases u.getLast? <;> rfl

/-- Of two expressions, it is the first that spans the first character, or the second if the first
spans nothing. -/
theorem spans_cons_seq_iff :
    Spans (seq e f) b (c :: w) a ↔
      (∃ u v, w = u ++ v ∧ Spans e b (c :: u) (v.head?.or a) ∧
        Spans f (u.getLast?.or (some c)) v a) ∨
      Spans e b [] (some c) ∧ Spans f b (c :: w) a := by
  rw [spans_seq_iff]
  constructor
  · rintro ⟨u, v, hw, he, hf⟩
    cases u with
    | nil =>
      obtain rfl : c :: w = v := hw
      exact .inr ⟨he, hf⟩
    | cons d u =>
      obtain ⟨rfl, rfl⟩ := List.cons.inj hw
      exact .inl ⟨u, v, rfl, he, getLast?_cons_or c u b ▸ hf⟩
  · rintro (⟨u, v, rfl, he, hf⟩ | ⟨he, hf⟩)
    · exact ⟨c :: u, v, rfl, he, (getLast?_cons_or c u b).symm ▸ hf⟩
    · exact ⟨[], c :: w, rfl, he, hf⟩

/-- A round spans the first character.  Rounds that are still to be made may be made in front of it
if they span nothing there. -/
theorem spans_cons_times_iff {least : Nat} {most : Option Nat} (h : (times e least most).Bounded) :
    Spans (times e least most) b (c :: w) a ↔
      most ≠ some 0 ∧ ∃ u v, w = u ++ v ∧ Spans e b (c :: u) (v.head?.or a) ∧
        Spans (times e (if e.accepts b (some c) then 0 else least - 1) (most.map (· - 1)))
          (u.getLast?.or (some c)) v a := by
  have hacc : e.accepts b (some c) = true ↔ Spans e b [] (some c) := accepts_iff h.1
  constructor
  · intro hspan
    obtain ⟨n, hn, hleast, hmost⟩ := spans_times_iff.1 hspan
    obtain ⟨u, v, j, rfl, hu, hv, hj⟩ := hn.exists_first
    rw [getLast?_cons_or] at hv
    have hj' : j + 1 ≤ n := by rcases hj with hj | ⟨hj, -⟩ <;> omega
    refine ⟨fun h0 => absurd (hmost 0 h0) (by omega), u, v, rfl, hu, hv.spans ?_ fun m hm => ?_⟩
    · split
      · exact Nat.zero_le j
      · next hno =>
        rcases hj with hj | ⟨-, he⟩
        · omega
        · exact absurd (hacc.2 he) hno
    · obtain ⟨m', hm', rfl⟩ := Option.map_eq_some_iff.1 hm
      have := hmost m' hm'
      omega
  · rintro ⟨hpos, u, v, rfl, he, hf⟩
    obtain ⟨j, hj, hleast, hmost⟩ := spans_times_iff.1 hf
    rw [← getLast?_cons_or c u b] at hj
    have hround : Rounds e (j + 1) b (c :: u ++ v) a := .more he hj
    have hbound : ∀ m ∈ most, j + 1 ≤ m := fun m hm => by
      have := hmost (m - 1) (Option.mem_map_of_mem _ hm)
      have : m ≠ 0 := fun h0 => hpos (h0 ▸ hm)
      omega
    split at hleast
    · next haccept =>
      refine (hround.pad (hacc.1 haccept) (least - (j + 1))).spans (by omega) fun m hm => ?_
      have := hbound m hm
      have := h.2 m hm
      omega
    · exact hround.spans (by omega) hbound

/-- Going on behind one of several expressions. -/
theorem exists_followedBy_iff {es : List Expr} :
    (∃ g ∈ es.map (followedBy f), Spans g b w a) ↔
      ∃ u v, w = u ++ v ∧ (∃ g ∈ es, Spans g b u (v.head?.or a)) ∧
        Spans f (u.getLast?.or b) v a := by
  constructor
  · rintro ⟨_, hg, hspan⟩
    obtain ⟨g, hmem, rfl⟩ := List.mem_map.1 hg
    obtain ⟨u, v, hw, he, hf⟩ := spans_seq_iff.1 (spans_followedBy_iff.1 hspan)
    exact ⟨u, v, hw, ⟨g, hmem, he⟩, hf⟩
  · rintro ⟨u, v, rfl, ⟨g, hg, he⟩, hf⟩
    exact ⟨_, List.mem_map_of_mem hg, spans_followedBy_iff.2 (.seq he hf)⟩

/-- **An expression spans a text that begins with `c` just if what is left after `c` spans the
rest.** -/
theorem spans_cons_iff (h : e.Bounded) :
    Spans e b (c :: w) a ↔ ∃ f ∈ e.step b c, Spans f (some c) w a := by
  induction e generalizing b w a with
  | empty => simp [step, spans_empty_iff]
  | set s =>
    rw [spans_set_iff, step]
    split
    · next hc =>
      simp only [List.mem_singleton, exists_eq_left, spans_empty_iff, List.cons.injEq]
      exact ⟨fun ⟨_, hw, _⟩ => hw.2, fun hw => ⟨c, ⟨rfl, hw⟩, hc⟩⟩
    · next hc =>
      refine iff_of_false ?_ (by simp)
      rintro ⟨d, hw, hd⟩
      exact hc ((List.cons.inj hw).1 ▸ hd)
  | look l => simp [step, spans_look_iff]
  | seq e f ihe ihf =>
    simp only [spans_cons_seq_iff, step, List.mem_append, or_and_right, exists_or,
      exists_followedBy_iff, ihe h.1, ihf h.2]
    refine or_congr_right ?_
    rw [← accepts_iff h.1]
    split <;> simp_all
  | alt e f ihe ihf =>
    simp only [step, List.mem_append, spans_alt_iff, ihe h.1, ihf h.2, or_and_right, exists_or]
  | times e least most ih =>
    rw [spans_cons_times_iff h, step]
    by_cases hpos : most = some 0
    · simp [hpos]
    · rw [if_neg hpos, exists_followedBy_iff, and_iff_right hpos]
      simp only [ih h.1]

theorem Bounded.followedBy (he : e.Bounded) (hf : f.Bounded) : (followedBy f e).Bounded := by
  cases e with
  | empty => exact hf
  | _ => exact ⟨he, hf⟩

/-- What is left of a bounded expression is bounded, so the search may go on with it. -/
theorem Bounded.step (h : e.Bounded) : ∀ f ∈ e.step b c, f.Bounded := by
  induction e with
  | empty | look => exact fun f hf => by cases hf
  | set s =>
    intro f hf
    rw [Expr.step] at hf
    split at hf
    · rw [List.mem_singleton.1 hf]
      trivial
    · cases hf
  | seq e f ihe ihf =>
    intro g hg
    rcases List.mem_append.1 hg with hg | hg
    · obtain ⟨g', hg', rfl⟩ := List.mem_map.1 hg
      exact (ihe h.1 g' hg').followedBy h.2
    · split at hg
      · exact ihf h.2 g hg
      · cases hg
  | alt e f ihe ihf => exact fun g hg => (List.mem_append.1 hg).elim (ihe h.1 g) (ihf h.2 g)
  | times e least most ih =>
    intro g hg
    rw [Expr.step] at hg
    split at hg
    · cases hg
    · obtain ⟨g', hg', rfl⟩ := List.mem_map.1 hg
      refine (ih h.1 g' hg').followedBy ⟨h.1, fun m hm => ?_⟩
      obtain ⟨m', hm', rfl⟩ := Option.map_eq_some_iff.1 hm
      have := h.2 m' hm'
      split <;> omega

/-! ## The walk -/

/-- The expression spans a front of the text. -/
def Begins (e : Expr) (b : Option Char) (text : List Char) : Prop :=
  ∃ u s, text = u ++ s ∧ Spans e b u s.head?

/-- The expression spans some stretch of the text, which stands after the character `b`. -/
def OccursAfter (e : Expr) (b : Option Char) (text : List Char) : Prop :=
  ∃ p s, text = p ++ s ∧ e.Begins (p.getLast?.or b) s

theorem begins_nil_iff (h : e.Bounded) : e.Begins b [] ↔ e.accepts b none = true := by
  rw [accepts_iff h]
  constructor
  · rintro ⟨u, s, hw, hspan⟩
    obtain ⟨rfl, rfl⟩ := List.append_eq_nil_iff.1 hw.symm
    exact hspan
  · exact fun hspan => ⟨[], [], rfl, hspan⟩

/-- A match begins with the empty text, or takes a character and goes on with one of what is left.
-/
theorem begins_cons_iff (h : e.Bounded) :
    e.Begins b (c :: text) ↔
      e.accepts b (some c) = true ∨ ∃ f ∈ e.step b c, f.Begins (some c) text := by
  rw [accepts_iff h]
  constructor
  · rintro ⟨u, s, hw, hspan⟩
    cases u with
    | nil =>
      obtain rfl : c :: text = s := hw
      exact .inl hspan
    | cons d u =>
      obtain ⟨rfl, rfl⟩ := List.cons.inj hw
      obtain ⟨f, hf, hspan⟩ := (spans_cons_iff h).1 hspan
      exact .inr ⟨f, hf, u, s, rfl, hspan⟩
  · rintro (hspan | ⟨f, hf, u, s, rfl, hspan⟩)
    · exact ⟨[], c :: text, rfl, hspan⟩
    · exact ⟨c :: u, s, rfl, (spans_cons_iff h).2 ⟨f, hf, hspan⟩⟩

theorem occursAfter_nil_iff : e.OccursAfter b [] ↔ e.Begins b [] := by
  constructor
  · rintro ⟨p, s, hw, hs⟩
    obtain ⟨rfl, rfl⟩ := List.append_eq_nil_iff.1 hw.symm
    exact hs
  · exact fun hs => ⟨[], [], rfl, hs⟩

/-- A match begins here, or after the next character. -/
theorem occursAfter_cons_iff :
    e.OccursAfter b (c :: text) ↔ e.Begins b (c :: text) ∨ e.OccursAfter (some c) text := by
  constructor
  · rintro ⟨p, s, hw, hs⟩
    cases p with
    | nil =>
      obtain rfl : c :: text = s := hw
      exact .inl hs
    | cons d p =>
      obtain ⟨rfl, rfl⟩ := List.cons.inj hw
      exact .inr ⟨p, s, rfl, getLast?_cons_or c p b ▸ hs⟩
  · rintro (hs | ⟨p, s, rfl, hs⟩)
    · exact ⟨[], c :: text, rfl, hs⟩
    · exact ⟨c :: p, s, rfl, (getLast?_cons_or c p b).symm ▸ hs⟩

/-- The walk ends well just if a match that has begun comes to an end or another occurs. -/
theorem searchFrom_iff (he : e.Bounded) {live : List Expr} (hlive : ∀ f ∈ live, f.Bounded) :
    searchFrom e b live text = true ↔
      (∃ f ∈ live, f.Begins b text) ∨ e.OccursAfter b text := by
  induction text generalizing b live with
  | nil =>
    rw [searchFrom, List.any_cons, Bool.or_eq_true, List.any_eq_true, occursAfter_nil_iff,
      begins_nil_iff he, or_comm]
    refine or_congr_left (exists_congr fun f => and_congr_right fun hf => ?_)
    rw [begins_nil_iff (hlive f hf)]
  | cons c text ih =>
    have hinsert : ∀ f ∈ live.insert e, f.Bounded := fun f hf =>
      (List.mem_insert_iff.1 hf).elim (fun h => h ▸ he) (hlive f)
    have hnext : ∀ f ∈ ((live.insert e).flatMap (·.step b c)).eraseDups, f.Bounded :=
      fun f hf => by
        obtain ⟨g, hg, hf⟩ := List.mem_flatMap.1 (List.mem_eraseDups.1 hf)
        exact (hinsert g hg).step f hf
    have hbegin : (∃ f ∈ live.insert e, f.Begins b (c :: text)) ↔
        (live.insert e).any (·.accepts b (some c)) = true ∨
          ∃ f ∈ ((live.insert e).flatMap (·.step b c)).eraseDups, f.Begins (some c) text := by
      rw [List.any_eq_true, ← exists_or]
      constructor
      · rintro ⟨f, hf, hbegin⟩
        rcases (begins_cons_iff (hinsert f hf)).1 hbegin with hacc | ⟨g, hg, hbegin⟩
        · exact ⟨f, .inl ⟨hf, hacc⟩⟩
        · exact ⟨g, .inr ⟨List.mem_eraseDups.2 (List.mem_flatMap.2 ⟨f, hf, hg⟩), hbegin⟩⟩
      · rintro ⟨f, ⟨hf, hacc⟩ | ⟨hg, hbegin⟩⟩
        · exact ⟨f, hf, (begins_cons_iff (hinsert f hf)).2 (.inl hacc)⟩
        · obtain ⟨g, hg, hstep⟩ := List.mem_flatMap.1 (List.mem_eraseDups.1 hg)
          exact ⟨g, hg, (begins_cons_iff (hinsert g hg)).2 (.inr ⟨f, hstep, hbegin⟩)⟩
    rw [searchFrom, Bool.or_eq_true, ih hnext, ← or_assoc, ← hbegin, occursAfter_cons_iff,
      ← or_assoc]
    refine or_congr_left ?_
    simp only [List.mem_insert_iff, or_and_right, exists_or, exists_eq_left]
    exact or_comm

theorem occurs_iff_occursAfter : e.Occurs text ↔ e.OccursAfter none text := by
  simp only [Occurs, OccursAfter, Begins, Option.or_none]
  constructor
  · rintro ⟨p, u, s, rfl, h⟩
    exact ⟨p, u ++ s, List.append_assoc p u s, u, s, rfl, h⟩
  · rintro ⟨p, _, rfl, u, s, rfl, h⟩
    exact ⟨p, u, s, (List.append_assoc p u s).symm, h⟩

/-- **The search finds an expression just where it occurs.** -/
theorem isFoundIn_iff (h : e.Bounded) : e.isFoundIn text = true ↔ e.Occurs text := by
  rw [isFoundIn, searchFrom_iff h (fun f hf => by cases hf), occurs_iff_occursAfter]
  simp

end TreeRules.Pattern.Expr
