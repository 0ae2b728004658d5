import TreeRules.Proofs.Path.Faults
import TreeRules.Proofs.Selector.Ending
import TreeRules.Proofs.Text.Trim

/-!
# Proofs/Path/RoundTrip — a path reads again from the texts of its segments

What is stored of a fragment or an argument is a piece without the blanks around it, so it is not
empty, and whole (`stored_of_segmentsOf`).  Written out with blanks between them, the segments are
cut where the braces of the steps stand, and nowhere else: the blanks keep the braces of a step
apart from those that a fragment may begin or end with.  Nothing keeps them apart from an argument,
so an argument must not end in a closing brace; then the same segments are read again
(`TokenPath.segments_reread`).
-/

namespace TreeRules

/-! ## Segments -/

namespace Segment

def isFragment : Segment → Bool
  | descendant _ => true
  | relation _ _ => false

/-- What is stored of a fragment or of an argument. -/
structure Stored (text : List Char) : Prop where
  ne_nil : text ≠ []
  trimmed : Text.trim text = text
  whole : TokenPath.Whole text

theorem Stored.of_isInfix {s t : List Char} (hs : TokenPath.Whole s) (h : t <:+: s)
    (hne : Text.trim t ≠ []) : Stored (Text.trim t) :=
  ⟨hne, Text.trim_trim t, hs.infix ((Text.trim_isInfix t).trans h)⟩

/-- What stands between the braces of a step. -/
def inside (r : Relation) : Option String → List Char
  | none => r.name.toList
  | some argument => r.name.toList ++ '@' :: argument.toList

theorem toList_text_relation (r : Relation) (argument : Option String) :
    (relation r argument).text.toList =
      '\x7b' :: '\x7b' :: (inside r argument ++ ['\x7d', '\x7d']) := by
  cases argument <;> simp [text, inside]

end Segment

namespace TokenPath

open Segment (Stored inside)

variable {f s b x rest : List Char} {path : String} {p : TokenPath} {r : Relation}
  {segment : Segment} {segments : List Segment} {argument : Option String} {text : String}

/-! ## What is stored -/

theorem stored_of_fragment (hf : Whole f) (h : segment ∈ fragment f)
    (ht : segment.selector? = some text) : Stored text.toList := by
  rw [fragment] at h
  split at h
  · exact absurd h List.not_mem_nil
  · next hne =>
    obtain rfl := List.mem_singleton.1 h
    obtain rfl := Option.some.inj ht
    rw [String.toList_ofList]
    exact .of_isInfix hf (List.infix_refl f) hne

/-- What stands before the first at-sign of a step. -/
def operatorOf (s : List Char) : List Char := Text.trim ((Text.trim s).takeWhile (· != '@'))

/-- What stands behind it. -/
def argumentOf (s : List Char) : List Char :=
  Text.trim (((Text.trim s).dropWhile (· != '@')).drop 1)

theorem step_eq_ok_iff :
    step path s = .ok segment ↔ Text.trim s ≠ [] ∧
      ∃ r, Relation.ofName? (String.ofList (operatorOf s)) = some r ∧
        segment = .relation r
          (if argumentOf s = [] then none else some (String.ofList (argumentOf s))) := by
  rw [step, operatorOf, argumentOf]
  split
  · next hnil => exact iff_of_false nofun fun h => h.1 hnil
  · next hne =>
    dsimp only
    cases Relation.ofName? _ with
    | none => exact iff_of_false nofun fun ⟨_, r, hr, _⟩ => nomatch hr
    | some r =>
      constructor
      · intro h
        exact ⟨hne, r, rfl, (Except.ok.inj h).symm⟩
      · rintro ⟨-, r', hr, rfl⟩
        obtain rfl := Option.some.inj hr
        rfl

/-- A step is a relation, and its argument is cut out of it. -/
theorem stored_of_step (hs : Whole s) (h : step path s = .ok segment) :
    segment.isFragment = false ∧ ∀ text, segment.selector? = some text → Stored text.toList := by
  obtain ⟨-, r, -, rfl⟩ := step_eq_ok_iff.1 h
  refine ⟨rfl, fun text ht => ?_⟩
  change (if argumentOf s = [] then none else some (String.ofList (argumentOf s))) = some text at ht
  split at ht
  · exact absurd ht nofun
  · next hne =>
    obtain rfl := Option.some.inj ht
    rw [String.toList_ofList]
    -- the argument lies inside the token, and the token inside the piece
    refine .of_isInfix hs (List.IsInfix.trans ?_ (Text.trim_isInfix s)) hne
    exact ((List.drop_suffix 1 _).trans (List.dropWhile_suffix _)).isInfix

/-- Two segments of which one at least is a step. -/
def Apart (s t : Segment) : Prop := ¬ (s.isFragment = true ∧ t.isFragment = true)

theorem isChain_fragment (f : List Char) : (fragment f).IsChain Apart := by
  rw [fragment]
  split
  · exact .nil
  · exact .singleton _

/-- **What is read from pieces alternates, and is stored trimmed.** -/
theorem stored_of_segmentsOf {ps : List (List Char)} (hps : ∀ s ∈ ps, Whole s)
    (h : segmentsOf path ps = .ok segments) :
    segments.IsChain Apart ∧
      ∀ s ∈ segments, ∀ text, s.selector? = some text → Stored text.toList := by
  fun_induction segmentsOf path ps generalizing segments with
  | case1 =>
    obtain rfl := Except.ok.inj h
    exact ⟨.nil, fun s hs => absurd hs List.not_mem_nil⟩
  | case2 f =>
    obtain rfl := Except.ok.inj h
    exact ⟨isChain_fragment f, fun s hs text => stored_of_fragment (hps f List.mem_cons_self) hs⟩
  | case3 f s rest ih =>
    obtain ⟨segment, hsegment, hrest⟩ := exists_of_bind_eq_ok h
    obtain ⟨segments', hsegments, hall⟩ := exists_of_bind_eq_ok hrest
    obtain rfl : fragment f ++ segment :: segments' = segments := Except.ok.inj hall
    have hf : Whole f := hps f List.mem_cons_self
    have hs : Whole s := hps s (List.mem_cons_of_mem f List.mem_cons_self)
    obtain ⟨hchain, hstored⟩ :=
      ih (fun t ht => hps t (List.mem_cons_of_mem f (List.mem_cons_of_mem s ht))) hsegments
    obtain ⟨hstep, hargument⟩ := stored_of_step hs hsegment
    have hafter : (segment :: segments').IsChain Apart :=
      List.isChain_cons.2 ⟨fun t _ ht => absurd (hstep.symm.trans ht.1) nofun, hchain⟩
    refine ⟨List.isChain_append.2 ⟨isChain_fragment f, hafter, fun t _ u hu ht => ?_⟩,
      fun t ht text => ?_⟩
    · obtain rfl := Option.some.inj hu
      exact absurd (hstep.symm.trans ht.2) nofun
    · rcases List.mem_append.1 ht with ht | ht
      · exact stored_of_fragment hf ht
      · rcases List.mem_cons.1 ht with rfl | ht
        · exact hargument text
        · exact hstored t ht text

/-! ## One step written out -/

theorem name_plain (r : Relation) :
    r.name.toList ≠ [] ∧ ∀ c ∈ r.name.toList,
      (c != '@') = true ∧ isBrace c = false ∧ Text.isBlank c = false := by
  have hall : r.name.toList.all (fun c => c != '@' && !isBrace c && !Text.isBlank c) = true := by
    cases r <;> decide
  refine ⟨by cases r <;> decide, fun c hc => ?_⟩
  simpa [and_assoc] using List.all_eq_true.1 hall c hc

/-- A name, and behind it an argument that is trimmed, is trimmed. -/
theorem trim_inside (h : ∀ a, argument = some a → Stored a.toList) :
    Text.trim (inside r argument) = inside r argument := by
  obtain ⟨hne, hname⟩ := name_plain r
  refine Text.trim_eq_self (fun c hc => ?_) fun c hc => ?_
  · obtain ⟨d, ds, hd⟩ := List.exists_cons_of_ne_nil hne
    have hcd : c = d := by cases argument <;> simpa [inside, hd, eq_comm] using hc
    exact (hname c (by rw [hd, hcd]; exact List.mem_cons_self)).2.2
  · cases argument with
    | none => exact (hname c (List.mem_of_getLast? hc)).2.2
    | some a =>
      obtain ⟨hne', htrim, -⟩ := h a rfl
      refine (Text.ends_of_trim_eq htrim).2 c ?_
      have hlast : ('@' :: a.toList).getLast? = a.toList.getLast? := by
        obtain ⟨d, ds, hd⟩ := List.exists_cons_of_ne_nil hne'
        rw [hd, List.getLast?_cons_cons]
      rw [inside, List.getLast?_append_of_ne_nil _ (List.cons_ne_nil _ _), hlast] at hc
      exact hc

/-- What stands between the braces of a step is read as that step. -/
theorem step_inside (h : ∀ a, argument = some a → Stored a.toList) (path : String) :
    step path (inside r argument) = .ok (.relation r argument) := by
  obtain ⟨hne, hname⟩ := name_plain r
  have hat : ∀ c ∈ r.name.toList, (c != '@') = true := fun c hc => (hname c hc).1
  have htrim : Text.trim r.name.toList = r.name.toList := @trim_inside r none nofun
  have hread : Relation.ofName? (String.ofList r.name.toList) = some r := by
    rw [String.ofList_toList, Relation.ofName?_name]
  rw [step_eq_ok_iff, operatorOf, argumentOf, trim_inside h]
  cases argument with
  | none =>
    have hempty : r.name.toList.dropWhile (· != '@') = [] := List.dropWhile_eq_nil_iff.2 hat
    refine ⟨hne, r, ?_, ?_⟩
    · rw [inside, List.takeWhile_eq_self_iff.2 hat, htrim, hread]
    · rw [inside, hempty]
      rfl
  | some a =>
    obtain ⟨hne', htrim', -⟩ := h a rfl
    have hdrop : ((inside r (some a)).dropWhile (· != '@')).drop 1 = a.toList := by
      rw [inside, List.dropWhile_append_of_pos hat]
      rfl
    refine ⟨List.append_ne_nil_of_left_ne_nil hne _, r, ?_, ?_⟩
    · rw [inside, List.takeWhile_append_of_pos hat, List.takeWhile_cons_of_neg (by decide),
        List.append_nil, htrim, hread]
    · rw [hdrop, htrim', if_neg hne', String.ofList_toList]

/-- It is whole with the first of the closing braces, as long as no argument ends in one. -/
theorem whole_inside (h : ∀ a, argument = some a → Stored a.toList)
    (hlast : ∀ a, argument = some a → a.toList.getLast? ≠ some '\x7d') :
    Whole (inside r argument ++ ['\x7d']) := by
  obtain ⟨-, hname⟩ := name_plain r
  have hplain : Whole r.name.toList := whole_of_all fun c hc => (hname c hc).2.1
  cases argument with
  | none =>
    refine hplain.append (whole_singleton _) (.inl fun c hc => ?_)
    exact (hname c (List.mem_of_getLast? hc)).2.1
  | some a =>
    obtain ⟨hne, -, hwhole⟩ := h a rfl
    have hclosed : Whole (a.toList ++ ['\x7d']) := by
      refine List.isChain_append.2 ⟨hwhole, whole_singleton _, fun c hc d hd hcd => ?_⟩
      obtain rfl := Option.some.inj hd
      exact absurd (hcd ▸ hc) (hlast a rfl)
    have hbehind : Whole ('@' :: (a.toList ++ ['\x7d'])) :=
      whole_cons_iff.2 ⟨fun _ => by decide, hclosed⟩
    rw [inside, List.append_assoc, List.cons_append]
    refine hplain.append hbehind (.inr fun c hc => ?_)
    obtain rfl := Option.some.inj hc
    decide

/-! ## Segments written out -/

/-- The segments as they stand in a path, with a blank between each two. -/
def written (segments : List Segment) : String := " ".intercalate (segments.map Segment.text)

theorem exists_written_cons (s : Segment) (segments : List Segment) :
    ∃ b, Text.isBlankText b = true ∧ (segments ≠ [] → b = [' ']) ∧
      (written (s :: segments)).toList = s.text.toList ++ (b ++ (written segments).toList) := by
  cases segments with
  | nil => exact ⟨[], rfl, fun h => absurd rfl h, by simp [written]⟩
  | cons t rest =>
    refine ⟨[' '], by decide, fun _ => rfl, ?_⟩
    simp only [written, String.toList_intercalate, List.map_cons, List.intercalate_cons_cons,
      List.append_assoc]
    rfl

/-- A segment that reads again when blanks are put around it. -/
structure Legible (s : Segment) : Prop where
  stored : ∀ text, s.selector? = some text → Stored text.toList
  unclosed : ∀ r argument, s = .relation r (some argument) →
    argument.toList.getLast? ≠ some '\x7d'

theorem fragment_of_stored {b' : List Char} (h : Stored text.toList)
    (hb : Text.isBlankText b = true) (hb' : Text.isBlankText b' = true) :
    fragment (b ++ text.toList ++ b') = [.descendant text] := by
  rw [fragment, Text.trim_append_blank _ hb hb', h.trimmed, if_neg h.ne_nil, String.ofList_toList]

/-- A step is cut out where its braces stand, whatever comes before and behind. -/
theorem segmentsOf_relation (hx : Whole (x ++ ['\x7b'])) (h : Legible (.relation r argument))
    (hrest : segmentsOf path (pieces rest) = .ok segments) :
    segmentsOf path (pieces (x ++ ((Segment.relation r argument).text.toList ++ rest))) =
      .ok (fragment x ++ .relation r argument :: segments) := by
  have hstored : ∀ a, argument = some a → Stored a.toList := h.stored
  have hlast : ∀ a, argument = some a → a.toList.getLast? ≠ some '\x7d' := fun a ha =>
    h.unclosed r a (by rw [ha])
  have htext : x ++ ((Segment.relation r argument).text.toList ++ rest) =
      x ++ '\x7b' :: '\x7b' :: (inside r argument ++ '\x7d' :: '\x7d' :: rest) := by
    rw [Segment.toList_text_relation]
    simp
  rw [htext, pieces_append hx (by decide), pieces_append (whole_inside hstored hlast) (by decide),
    segmentsOf, step_inside hstored, hrest]
  rfl

/-- **Segments that alternate read again from their texts.** -/
theorem segmentsOf_written (path : String) : ∀ (segments : List Segment) (b : List Char),
    Text.isBlankText b = true → segments.IsChain Apart → (∀ s ∈ segments, Legible s) →
      segmentsOf path (pieces (b ++ (written segments).toList)) = .ok segments
  | [], b, hb, _, _ => by
    have hnil : b ++ (written []).toList = b := by simp [written]
    rw [hnil, pieces_of_whole (whole_of_isBlankText hb)]
    exact congrArg Except.ok ((fragment_eq_nil_iff b).2 hb)
  | [.descendant f], b, hb, _, hall => by
    have hf : Stored f.toList := (hall _ List.mem_cons_self).stored f rfl
    have hone : b ++ (written [.descendant f]).toList = b ++ f.toList ++ [] := by
      simp [written, Segment.text]
    have hwhole : Whole (b ++ f.toList ++ []) := by
      rw [List.append_nil]
      exact hf.whole.blank_append hb
    rw [hone, pieces_of_whole hwhole]
    exact congrArg Except.ok (fragment_of_stored hf hb rfl)
  | .relation r argument :: rest, b, hb, hchain, hall => by
    obtain ⟨b', hb', -, htext⟩ := exists_written_cons (.relation r argument) rest
    have ih := segmentsOf_written path rest b' hb' (List.isChain_cons.1 hchain).2
      fun s hs => hall s (List.mem_cons_of_mem _ hs)
    have hopen : Whole (b ++ ['\x7b']) := (whole_singleton _).blank_append hb
    rw [htext, segmentsOf_relation hopen (hall _ List.mem_cons_self) ih,
      (fragment_eq_nil_iff b).2 hb, List.nil_append]
  | .descendant f :: .relation r argument :: rest, b, hb, hchain, hall => by
    have hf : Stored f.toList := (hall _ List.mem_cons_self).stored f rfl
    obtain ⟨b', hb', -, htext⟩ := exists_written_cons (.relation r argument) rest
    obtain ⟨b'', -, hone, htext'⟩ :=
      exists_written_cons (.descendant f) (.relation r argument :: rest)
    obtain rfl : b'' = [' '] := hone (List.cons_ne_nil _ _)
    have hchain' := (List.isChain_cons.1 (List.isChain_cons.1 hchain).2).2
    have ih := segmentsOf_written path rest b' hb' hchain'
      fun s hs => hall s (List.mem_cons_of_mem _ (List.mem_cons_of_mem _ hs))
    -- the blank keeps the braces of the step apart from the fragment
    have hopen : Whole (b ++ f.toList ++ [' '] ++ ['\x7b']) := by
      rw [List.append_assoc]
      refine Whole.append ?_ (whole_cons_iff.2 ⟨fun _ => by decide, whole_singleton _⟩) (.inr ?_)
      · exact hf.whole.blank_append hb
      · intro c hc
        obtain rfl := Option.some.inj hc
        decide
    have hall' : Legible (.relation r argument) :=
      hall _ (List.mem_cons_of_mem _ List.mem_cons_self)
    have hassoc : b ++ (written (.descendant f :: .relation r argument :: rest)).toList =
        b ++ f.toList ++ [' '] ++
          ((Segment.relation r argument).text.toList ++ (b' ++ (written rest).toList)) := by
      rw [htext', htext]
      simp [Segment.text]
    rw [hassoc, segmentsOf_relation hopen hall' ih, fragment_of_stored hf hb (by decide)]
    rfl
  | .descendant f :: .descendant g :: rest, b, _, hchain, _ =>
    absurd ⟨rfl, rfl⟩ (List.isChain_cons_cons.1 hchain).1

/-! ## Paths -/

/-- What holds of the segments that are read from a path text. -/
structure RoundTrips (path : String) (p : TokenPath) : Prop where
  /-- The texts of the segments, with a blank between each two, are read as the same segments, if no
  argument ends in a closing brace. -/
  reread : (∀ r argument, .relation r (some argument) ∈ p.segments →
      argument.toList.getLast? ≠ some '\x7d') →
    parse (written p.segments) = .ok ⟨written p.segments, p.segments⟩
  /-- An argument that can be read as a selector does not. -/
  unclosed : ∀ selector l, SelectorList.parse selector = .ok l →
    selector.toList.getLast? ≠ some '\x7d'
  /-- Of two segments next to each other one is a step. -/
  alternate : p.segments.IsChain Apart
  /-- Fragments and arguments are not empty, and have no blanks at their ends. -/
  stored : ∀ s ∈ p.segments, ∀ text, s.selector? = some text → text ≠ "" ∧ trimmed text = text
  /-- Only a blank text has no segments. -/
  nil_iff : p.segments = [] ↔ isBlankString path = true

/-- **A path reads again from the texts of its segments.** -/
theorem segments_reread (h : parse path = .ok p) : RoundTrips path p := by
  have hsegments : segmentsOf path (pieces path.toList) = .ok p.segments := by
    obtain ⟨segments, hs, rfl⟩ := Selector.exists_of_map_eq_ok h
    exact hs
  obtain ⟨hchain, hstored⟩ := stored_of_segmentsOf (fun _ => whole_of_mem_pieces) hsegments
  constructor
  case reread =>
    intro hunclosed
    have hlegible : ∀ s ∈ p.segments, Legible s := fun s hs =>
      ⟨hstored s hs, fun r argument heq => hunclosed r argument (heq ▸ hs)⟩
    rw [parse, ← List.nil_append (written p.segments).toList,
      segmentsOf_written _ p.segments [] rfl hchain hlegible]
    rfl
  case unclosed => exact fun selector l => SelectorList.getLast?_of_parse
  case alternate => exact hchain
  case stored =>
    intro s hs text ht
    obtain ⟨hne, htrim, -⟩ := hstored s hs text ht
    refine ⟨?_, ?_⟩
    · rintro rfl
      exact hne rfl
    · rw [trimmed, htrim, String.ofList_toList]
  case nil_iff => exact segments_eq_nil_iff h

/-- Braces at the ends of fragments and at-signs in an argument. -/
theorem segments_reread_of_braces :
    let path := "x\x7d\x7b\x7b closest @ [a='@\x7b'] \x7d\x7d\x7b\x7bparent\x7d\x7d\x7d y"
    let p : TokenPath := ⟨path, [.descendant "x\x7d", .relation .closest (some "[a='@\x7b']"),
      .relation .parent none, .descendant "\x7d y"]⟩
    parse path = .ok p ∧ RoundTrips path p ∧
      written p.segments =
        "x\x7d \x7b\x7bclosest@[a='@\x7b']\x7d\x7d \x7b\x7bparent\x7d\x7d \x7d y" := by
  intro path p
  have h : parse path = .ok p := by decide +kernel
  exact ⟨h, segments_reread h, by decide +kernel⟩

/-- An argument that ends in a closing brace loses it to the braces behind it. -/
example :
    let segments := [Segment.relation .closest (some "x\x7d")]
    (parse "\x7b\x7bclosest@x\x7d \x7d\x7d").toOption.map (·.segments) = some segments ∧
      (parse (written segments)).toOption.map (·.segments) =
        some [.relation .closest (some "x"), .descendant "\x7d"] := by
  decide +kernel

end TokenPath

end TreeRules
