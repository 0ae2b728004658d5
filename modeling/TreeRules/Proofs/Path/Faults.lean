import TreeRules.Proofs.Path.Cache
import TreeRules.Proofs.Path.Pieces
import TreeRules.Proofs.Path.Walking

/-!
# Proofs/Path/Faults — what can go wrong on a path

A path text is read before anything is looked up, so a text that cannot be read is at fault whatever
the document is.  From there on every node that is looked up has been found before, or is a start
node, so none is missing; and what stops a walk is the first selector on the path that cannot be
read (`Resolver.resolve_staysInside`).  Only a blank path has no segments
(`TokenPath.segments_eq_nil_iff`), so only a blank path can lead to the root.
-/

namespace TreeRules

/-! ## Paths without segments -/

namespace TokenPath

variable {s f : List Char} {path : String} {p : TokenPath}

theorem fragment_eq_nil_iff (f : List Char) : fragment f = [] ↔ Text.isBlankText f = true := by
  rw [← Text.trim_eq_nil_iff, fragment]
  split
  · next h => exact iff_of_true rfl h
  · next h => exact iff_of_false (List.cons_ne_nil _ _) h

/-- A step is a segment, and so is a fragment that is not blank. -/
theorem segmentsOf_eq_nil_iff (path : String) (s : List Char) :
    segmentsOf path (pieces s) = .ok [] ↔ Text.isBlankText s = true := by
  constructor
  · intro h
    cases hp : pieces s with
    | nil => exact absurd hp (pieces_ne_nil s)
    | cons f rest =>
      rw [hp] at h
      cases rest with
      | nil =>
        obtain rfl : s = f := eq_of_pieces_eq hp
        exact (fragment_eq_nil_iff s).1 (Except.ok.inj h)
      | cons g rest =>
        obtain ⟨segment, -, hsegment⟩ := exists_of_bind_eq_ok h
        obtain ⟨segments, -, hall⟩ := exists_of_bind_eq_ok hsegment
        exact absurd (List.append_eq_nil_iff.1 (Except.ok.inj hall)).2 (List.cons_ne_nil _ _)
  · intro h
    rw [pieces_of_whole (whole_of_isBlankText h)]
    exact congrArg Except.ok ((fragment_eq_nil_iff s).2 h)

theorem parse_of_isBlankString (h : isBlankString path = true) : parse path = .ok ⟨path, []⟩ := by
  rw [parse, (segmentsOf_eq_nil_iff path path.toList).2 h]
  rfl

/-- **Only a blank path has no segments.** -/
theorem segments_eq_nil_iff (h : parse path = .ok p) :
    p.segments = [] ↔ isBlankString path = true := by
  rw [parse] at h
  rw [isBlankString, ← segmentsOf_eq_nil_iff path]
  cases hs : segmentsOf path (pieces path.toList) with
  | error e => exact absurd (hs ▸ h) nofun
  | ok segments =>
    rw [hs] at h
    obtain rfl : ⟨path, segments⟩ = p := Except.ok.inj h
    exact ⟨congrArg Except.ok, Except.ok.inj⟩

end TokenPath

/-! ## The first selector at fault -/

/-- The first segment whose selector cannot be read, and what is wrong with that selector: the
selectors before it can all be read. -/
def FirstFault (segments : List Segment) (e : SelectorError) : Prop :=
  ∃ front s rest selector, segments = front ++ s :: rest ∧
    (∀ t ∈ front, ∀ text, t.selector? = some text → ∃ l, SelectorList.parse text = .ok l) ∧
    s.selector? = some selector ∧ SelectorList.parse selector = .error e

theorem firstFault_of_findSome? {segments : List Segment} {e : SelectorError}
    (h : segments.findSome? Segment.fault? = some e) : FirstFault segments e := by
  obtain ⟨front, s, rest, rfl, hs, hfront⟩ := List.findSome?_eq_some_iff.1 h
  obtain ⟨selector, hselector, hparse⟩ := Segment.fault?_eq_some_iff.1 hs
  exact ⟨front, s, rest, selector, rfl,
    fun t ht text htext => Segment.exists_ok_of_fault?_eq_none (hfront t ht) htext,
    hselector, hparse⟩

namespace Resolver

variable {d : Document} {start : List Nat} {path : String} {p : TokenPath} {r : Resolver}

/-! ## The answer of a resolver -/

/-- A resolver as it is made, with a cache of some capacity or without one, and then used. -/
def made (room : Option Nat) (uses : List PathCache.Use) : Resolver :=
  room.map fun capacity => (PathCache.ofCapacity capacity).used uses

theorem sound_made (room : Option Nat) (uses : List PathCache.Use) : (made room uses).Sound := by
  cases room with
  | none => exact sound_uncached
  | some capacity => exact sound_some.2 ((PathCache.sound_ofCapacity capacity).used uses)

theorem resolve_of_isBlankString (h : isBlankString path = true) :
    resolve d start (some path) = pure (.ok start) := by
  rw [resolve]
  exact if_pos h

/-- A text that cannot be read is read, and nothing else is done. -/
theorem resolve_of_error {e : PathError} (h : r.Sound) (hp : TokenPath.parse path = .error e) :
    resolve d start (some path) r =
      (do
        let _ ← parse path
        return Except.error (ResolveError.path e)) r := by
  have hblank : isBlankString path ≠ true := fun hblank =>
    absurd (hp.symm.trans (TokenPath.parse_of_isBlankString hblank)) nofun
  have hread : answer (parse path) r = .error e := (h.parse path).1.trans hp
  rw [resolve]
  refine (congrFun (if_neg hblank) r).trans (bind_congr_answer ?_)
  rw [hread]

/-- Reading comes first, and then the walk. -/
theorem answer_resolve (h : r.Sound) (d : Document) (start : List Nat) (path : String) :
    answer (resolve d start (some path)) r =
      (TokenPath.parse path).mapError ResolveError.path >>= fun p =>
        (d.resolve p.segments start).mapError ResolveError.tree := by
  by_cases hblank : isBlankString path = true
  · rw [resolve_of_isBlankString hblank, TokenPath.parse_of_isBlankString hblank, answer_pure]
    exact congrArg (Except.mapError ResolveError.tree) (d.resolve_nil start).symm
  · rw [resolve, if_neg hblank, answer_bind, (h.parse path).1]
    cases TokenPath.parse path with
    | error e => rfl
    | ok p =>
      have hvalue : (resolveParsed d start p).value = d.resolve p.segments start := rfl
      change answer (liftM (resolveParsed d start p) >>= _) _ = _
      rw [answer_bind, answer_lift, hvalue]
      change _ = (d.resolve p.segments start).mapError ResolveError.tree
      cases d.resolve p.segments start <;> rfl

/-! ## Faults -/

/-- What can go wrong when a path text is resolved, and that nothing else can. -/
structure StaysInside (d : Document) (start : List Nat) (path : String) (r : Resolver) : Prop where
  /-- No node that is looked up is missing. -/
  known : ∀ n, answer (resolve d start (some path)) r ≠ .error (.tree (.unknownNode n))
  /-- A path that is not blank leads to elements: not to the root, nor out of the document. -/
  elements : isBlankString path = false → ∀ ns, answer (resolve d start (some path)) r = .ok ns →
    ∀ n ∈ ns, n ≠ Document.root ∧ d.contains n = true
  /-- The text of the path is at fault if it cannot be read, and only then. -/
  unreadable : ∀ e,
    answer (resolve d start (some path)) r = .error (.path e) ↔ TokenPath.parse path = .error e
  /-- Then nothing else is done but to read it: neither the document nor the start nodes matter. -/
  untouched : ∀ e, TokenPath.parse path = .error e →
    resolve d start (some path) r =
      (do
        let _ ← parse path
        return Except.error (ResolveError.path e)) r
  /-- Whatever else goes wrong is the first selector on the path that cannot be read. -/
  unselectable : ∀ e, answer (resolve d start (some path)) r = .error (.tree e) →
    ∃ p fault, TokenPath.parse path = .ok p ∧ FirstFault p.segments fault ∧
      e = .invalidSelector fault

/-- The three ways in which it can end. -/
theorem answer_resolve_cases (hr : r.Sound) (h : ∀ n ∈ start, d.hasNode n = true) (path : String) :
    (∃ e, TokenPath.parse path = .error e ∧
      answer (resolve d start (some path)) r = .error (.path e)) ∨
    (∃ p ns, TokenPath.parse path = .ok p ∧ d.resolve p.segments start = .ok ns ∧
      answer (resolve d start (some path)) r = .ok ns) ∨
    ∃ p fault, TokenPath.parse path = .ok p ∧ FirstFault p.segments fault ∧
      answer (resolve d start (some path)) r = .error (.tree (.invalidSelector fault)) := by
  rw [answer_resolve hr]
  cases TokenPath.parse path with
  | error e => exact .inl ⟨e, rfl, rfl⟩
  | ok p =>
    refine .inr ?_
    change (∃ q ns, _ ∧ _ ∧ (d.resolve p.segments start).mapError ResolveError.tree = _) ∨
      ∃ q fault, _ ∧ _ ∧ (d.resolve p.segments start).mapError ResolveError.tree = _
    have hblames := Document.blames_follow h p.segments
    rw [Document.follow_eq_resolve h] at hblames
    cases hfault : p.segments.findSome? Segment.fault? with
    | none =>
      rw [hfault] at hblames
      obtain ⟨ns, hns⟩ := hblames
      exact .inl ⟨p, ns, rfl, hns, congrArg _ hns⟩
    | some fault =>
      rw [hfault] at hblames
      rcases hblames with hnil | herror
      · exact .inl ⟨p, [], rfl, hnil, congrArg _ hnil⟩
      · exact .inr ⟨p, fault, rfl, firstFault_of_findSome? hfault, congrArg _ herror⟩

/-- **Resolving a path stays inside the document** and fails only for what the path says. -/
theorem resolve_staysInside (h : ∀ n ∈ start, d.hasNode n = true) (path : String)
    (room : Option Nat) (uses : List PathCache.Use) : StaysInside d start path (made room uses) := by
  have hcases := answer_resolve_cases (sound_made room uses) h path
  constructor
  case known =>
    intro n
    rcases hcases with ⟨e, -, ha⟩ | ⟨p, ns, -, -, ha⟩ | ⟨p, fault, -, -, ha⟩ <;> rw [ha] <;> nofun
  case elements =>
    intro hblank ns hns n hn
    rcases hcases with ⟨e, -, ha⟩ | ⟨p, ms, hp, hms, ha⟩ | ⟨p, fault, -, -, ha⟩
    · exact absurd (ha.symm.trans hns) nofun
    · obtain rfl : ms = ns := Except.ok.inj (ha.symm.trans hns)
      have hne : p.segments ≠ [] := fun hnil =>
        absurd ((TokenPath.segments_eq_nil_iff hp).1 hnil) (ne_true_of_eq_false hblank)
      rw [← Document.follow_eq_resolve h] at hms
      have hin : d.contains n = true := Document.contains_of_follow h hne hms n hn
      exact ⟨Nat.ne_of_gt (Document.contains_eq_true_iff.1 hin).1, hin⟩
    · exact absurd (ha.symm.trans hns) nofun
  case unreadable =>
    intro e
    rcases hcases with ⟨e', hp, ha⟩ | ⟨p, ns, hp, -, ha⟩ | ⟨p, fault, hp, -, ha⟩ <;> rw [ha, hp]
    · simp
    · exact iff_of_false nofun nofun
    · exact iff_of_false nofun nofun
  case untouched => exact fun e hp => resolve_of_error (sound_made room uses) hp
  case unselectable =>
    intro e he
    rcases hcases with ⟨e', -, ha⟩ | ⟨p, ns, -, -, ha⟩ | ⟨p, fault, hp, hfault, ha⟩
    · exact absurd (ha.symm.trans he) nofun
    · exact absurd (ha.symm.trans he) nofun
    · have htree := Except.error.inj (ha.symm.trans he)
      exact ⟨p, fault, hp, hfault, (ResolveError.tree.inj htree).symm⟩

/-- Two selectors on the path cannot be read, and the root has no parent to test: nothing is found
from there, and from an input the first of the two is at fault. -/
theorem resolve_staysInside_of_inputs :
    let input := ElementSpec.ofTag "input"
    let d := Document.ofSpecs [(ElementSpec.ofTag "form").withChildren [input, input]]
    let path := "\x7b\x7bparent@[\x7d\x7d #"
    let r := made (some 1) [.read "#"]
    (∀ n ∈ [Document.root, 2], d.hasNode n = true) ∧ StaysInside d [Document.root, 2] path r ∧
      answer (resolve d [Document.root] (some path)) r = .ok [] ∧
      answer (resolve d [Document.root, 2] (some path)) r =
        .error (.tree (.invalidSelector ⟨"[", .expectedIdentifier, 1⟩)) := by
  intro input d path r
  have h : ∀ n ∈ [Document.root, 2], d.hasNode n = true := by decide +kernel
  exact ⟨h, resolve_staysInside h path (some 1) [.read "#"], by decide +kernel, by decide +kernel⟩

end Resolver

end TreeRules
