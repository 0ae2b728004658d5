import TreeRules.Proofs.Document.Forest
import TreeRules.Proofs.Selector.Matching
import TreeRules.Proofs.Selector.Union
import TreeRules.Proofs.Text.Words

/-!
# Proofs/Selector/Shorthand — a name behind a hash or a point, and the attribute it stands for

`#c` and `.c` ask an element for what it was given as its identifier and its classes; `[id=c]` and
`[class]` ask for the attributes of these names.  The attribute `id` is the identifier and nothing
else, so the two ways of asking are one (`Document.matches_hash_iff`).  The attribute `class` is
made of the classes, whose words are the classes again since they were cut out of a text
(`Document.Described`) — but an element without classes shows the free attribute of that name in
their place, which a point does not look at (`Document.point_sees_own_classes`).
-/

namespace TreeRules

variable {d : Document} {n : Nat} {c : String}

/-! ## Elements are described -/

theorem ElementSpec.exists_of_mem_placeAll {ss : List ElementSpec} {parent next : Nat} {e : Element}
    (h : e ∈ placeAll parent next ss) : ∃ (s : ElementSpec) (p : Nat), e = s.element p := by
  obtain ⟨s, -, p, he⟩ := exists_mem_of_forall₂ (forall₂_placeAll ss parent next) h
  exact ⟨s, p, he⟩

namespace Document

/-- Every element is what some description says. -/
def Described (d : Document) : Prop :=
  ∀ n e, d.element? n = some e → ∃ (s : ElementSpec) (p : Nat), e = s.element p

theorem Described.extend {ss : List ElementSpec} {parent next : Nat} (h : d.Described)
    (hf : d.Follows (ElementSpec.placeAll parent next ss)) : (d.extend _ hf).Described := by
  intro n e he
  rw [element?_extend] at he
  split at he
  · exact h n e he
  · exact ElementSpec.exists_of_mem_placeAll (List.mem_of_getElem? he)

/-- An element whose value is set is described with that value. -/
theorem Described.valueSet {d' : Document} {n : Nat} {value : String} (h : d.Described)
    (hset : ValueSet d d' n value) : d'.Described := by
  intro m e he
  rw [hset.element?] at he
  split at he
  · obtain ⟨e', he', rfl⟩ := Option.map_eq_some_iff.1 he
    obtain ⟨s, p, rfl⟩ := h m e' he'
    exact ⟨{ s with value }, p, rfl⟩
  · exact h m e he

/-- **No operation makes an element that is not described.** -/
theorem Described.next (h : d.Described) (op : Operation) : (d.next op).Described := by
  cases op with
  | append parent spec =>
    rw [Document.next, append?]
    split
    · next hparent =>
      have hf : d.Follows (ElementSpec.placeAll parent (d.size + 1) [spec]) := fun i hi => by
        have hlt := ElementSpec.parent_lt_of_placeAll [spec] parent (d.size + 1) (by omega) i hi
        omega
      have hplaced := h.extend hf
      simp only [ElementSpec.placeAll_singleton] at hplaced
      exact hplaced
    · exact h
  | setValue n value =>
    rw [Document.next]
    cases hset : d.setValue? n value with
    | none => exact h
    | some d' => exact h.valueSet (valueSet_of_setValue? hset)
  | _ => exact h

theorem described_afterAll (specs : List ElementSpec) (ops : List Operation) :
    ((ofSpecs specs).afterAll ops).Described := by
  have hstart : (ofSpecs specs).Described :=
    Described.extend (fun n e he => by cases n <;> cases he) _
  generalize ofSpecs specs = d at hstart
  induction ops generalizing d with
  | nil => exact hstart
  | cons op ops ih => exact ih _ (hstart.next op)

end Document

/-! ## Selectors of one test -/

namespace SelectorList

open Selector (SuffixText IdentifierText Suffix compoundOf isIdentifierChar)

/-- Characters of a name, at least one. -/
def IsName (c : String) : Prop := c ≠ "" ∧ c.toList.all isIdentifierChar = true

theorem IsName.identifierText (h : IsName c) : IdentifierText c.toList c := by
  have hrun := IdentifierText.run (fun hnil => h.1 (String.toList_eq_nil_iff.1 hnil))
    (List.all_eq_true.1 h.2)
  rwa [String.ofList_toList] at hrun

/-- The text of a test is a selector of this test alone. -/
theorem parse_of_suffixText {source : String} {w : List Char} {x : Suffix} (h : SuffixText w x)
    (hw : source.toList = w) : parse source = .ok ⟨source, [.single (compoundOf none [x])]⟩ := by
  have hblanks : Selector.Blanks [] := List.forall_mem_nil _
  have hne : [] ++ (w ++ []) ≠ [] := by cases h <;> exact List.cons_ne_nil _ _
  have htext := Selector.SelectorText.parts (t := .single (compoundOf none [x])) hblanks
    (.tests .none (.cons h .nil) hne) .nil hblanks rfl rfl
  simp only [List.nil_append, List.append_nil, ← hw] at htext
  exact parse_of_listText (.last htext)

theorem parse_point (h : IsName c) :
    parse ("." ++ c) = .ok ⟨"." ++ c, [.single ⟨none, [], [c], []⟩]⟩ :=
  parse_of_suffixText (.class h.identifierText) (String.toList_append ..)

theorem parse_hash (h : IsName c) :
    parse ("#" ++ c) = .ok ⟨"#" ++ c, [.single ⟨none, [c], [], []⟩]⟩ :=
  parse_of_suffixText (.id h.identifierText) (String.toList_append ..)

theorem parse_bracket (h : IsName c) :
    parse ("[id=" ++ c ++ "]") =
      .ok ⟨"[id=" ++ c ++ "]", [.single ⟨none, [], [], [⟨"id", some c⟩]⟩]⟩ := by
  have hblanks : Selector.Blanks [] := List.forall_mem_nil _
  have hid : IsName "id" := ⟨by decide, by decide⟩
  refine parse_of_suffixText (.attribute hblanks hid.identifierText hblanks
    (.equal hblanks (.bare h.identifierText) hblanks)) ?_
  simp [String.toList_append]

end SelectorList

namespace Document

/-! ## What an element shows -/

/-- The classes that an element was given. -/
def classes (d : Document) (n : Nat) : List String := ((d.element? n).map (·.classes)).getD []

/-- The free attribute of an element. -/
def freeAttribute? (d : Document) (n : Nat) (name : String) : Option String :=
  (d.element? n).bind (·.attributes.get? name)

/-- The attribute `class` is there, and the name is one of its words. -/
def ShowsClass (d : Document) (n : Nat) (c : String) : Prop :=
  ∃ text, d.attribute? n "class" = some text ∧ c ∈ wordsOf text

/-- The classes were cut out of a text, so they are its words again when they are joined. -/
theorem Described.wordsOf_classes (h : d.Described) (n : Nat) :
    wordsOf (" ".intercalate (d.classes n)) = d.classes n := by
  rw [classes]
  cases he : d.element? n with
  | none => decide
  | some e =>
    obtain ⟨s, p, rfl⟩ := h n e he
    exact wordsOf_intercalate_wordsOf _

/-- The attribute `class` is made of the classes if there are any, and else it is the free one. -/
theorem attribute?_class (d : Document) (n : Nat) :
    d.attribute? n "class" = if d.classes n = [] then d.freeAttribute? n "class"
      else some (" ".intercalate (d.classes n)) := by
  rw [attribute?, classes, freeAttribute?]
  cases d.element? n with
  | none => rfl
  | some e => by_cases hnil : e.classes = [] <;> simp [hnil]

theorem Described.showsClass_iff (h : d.Described) (hne : d.classes n ≠ []) :
    d.ShowsClass n c ↔ c ∈ d.classes n := by
  rw [ShowsClass, attribute?_class, if_neg hne]
  constructor
  · rintro ⟨text, htext, hc⟩
    rwa [← Option.some.inj htext, h.wordsOf_classes] at hc
  · exact fun hc => ⟨_, rfl, (h.wordsOf_classes n).symm ▸ hc⟩

/-! ## What a test asks -/

/-- A node matches a compound that is all of a selector. -/
theorem matches_single_iff {source : String} {compound : Compound}
    (h : SelectorList.parse source = .ok ⟨source, [.single compound]⟩) :
    d.matches n source = .ok true ↔ compound.matches d n = true := by
  have hlist : SelectorList.matches ⟨source, [.single compound]⟩ d n = compound.matches d n :=
    Bool.or_false _
  cases hn : d.hasNode n with
  | true =>
    rw [matches_of_ok hn h, hlist]
    exact ⟨Except.ok.inj, congrArg _⟩
  | false =>
    refine iff_of_false (fun hok => ?_) fun hmatch => ?_
    · rw [«matches», selectorFor_of_missing hn] at hok
      cases hok
    · have hthere := hasNode_of_contains (Selector.contains_of_compound_matches hmatch)
      exact Bool.false_ne_true (hn.symm.trans hthere)

/-- A point asks for the classes that the element was given. -/
theorem matches_point_iff (h : SelectorList.IsName c) :
    d.matches n ("." ++ c) = .ok true ↔ c ∈ d.classes n := by
  rw [matches_single_iff (SelectorList.parse_point h), Compound.matches, tag?, classes]
  cases he : d.element? n with
  | none => simp
  | some e => simp [hasClass, he]

/-- A hash asks for the attribute `id`. -/
theorem matches_hash_iff (h : SelectorList.IsName c) :
    d.matches n ("#" ++ c) = .ok true ↔ d.attribute? n "id" = some c := by
  rw [matches_single_iff (SelectorList.parse_hash h), Compound.matches, tag?]
  cases he : d.element? n with
  | none => simp [attribute?, he]
  | some e => simp

/-- So does a bracket. -/
theorem matches_bracket_iff (h : SelectorList.IsName c) :
    d.matches n ("[id=" ++ c ++ "]") = .ok true ↔ d.attribute? n "id" = some c := by
  rw [matches_single_iff (SelectorList.parse_bracket h), Compound.matches, tag?]
  cases he : d.element? n with
  | none => simp [attribute?, he]
  | some e =>
    cases hid : d.attribute? n "id" <;> simp [AttributeTest.matches, hid]

/-! ## Shorthand and attributes -/

/-- How the shorthands for a name and the attributes of a node see each other. -/
structure Shorthands (d : Document) (n : Nat) (c : String) : Prop where
  /-- A point sees what the attribute `class` shows, where the element has classes of its own. -/
  point : d.matches n ("." ++ c) = .ok true ↔ d.classes n ≠ [] ∧ d.ShowsClass n c
  /-- The two differ just if there are none and the free attribute has the name. -/
  differ : ¬ (d.matches n ("." ++ c) = .ok true ↔ d.ShowsClass n c) ↔
    d.classes n = [] ∧ ∃ text, d.freeAttribute? n "class" = some text ∧ c ∈ wordsOf text
  /-- A hash sees what the attribute `id` shows. -/
  hash : d.matches n ("#" ++ c) = .ok true ↔ d.attribute? n "id" = some c
  /-- So does a bracket. -/
  bracket : d.matches n ("#" ++ c) = .ok true ↔ d.matches n ("[id=" ++ c ++ "]") = .ok true

/-- **Shorthands see the attributes, but for a free `class`.**  Of every document that is built of
descriptions and changed afterwards, at every node, and for every name:

* a hash, the attribute `id` and a bracket that asks for it agree, however the element was given its
  identifier;
* a point and the words of the attribute `class` agree where the element has classes of its own, and
  where it has none unless the name is a word of its free attribute `class`. -/
theorem point_sees_own_classes (specs : List ElementSpec) (ops : List Operation) (n : Nat)
    (h : SelectorList.IsName c) : ((ofSpecs specs).afterAll ops).Shorthands n c := by
  have hdescribed := described_afterAll specs ops
  generalize (ofSpecs specs).afterAll ops = d at hdescribed
  have hpoint : d.matches n ("." ++ c) = .ok true ↔ d.classes n ≠ [] ∧ d.ShowsClass n c := by
    rw [matches_point_iff h]
    constructor
    · intro hc
      have hne := List.ne_nil_of_mem hc
      exact ⟨hne, (hdescribed.showsClass_iff hne).2 hc⟩
    · exact fun hshown => (hdescribed.showsClass_iff hshown.1).1 hshown.2
  constructor
  case point => exact hpoint
  case differ =>
    have hfree : d.classes n = [] → (d.ShowsClass n c ↔
        ∃ text, d.freeAttribute? n "class" = some text ∧ c ∈ wordsOf text) := fun hnil => by
      rw [ShowsClass, attribute?_class, if_pos hnil]
    rw [hpoint, and_iff_right_iff_imp, Classical.not_imp, not_not, and_comm]
    exact and_congr_right hfree
  case hash => exact matches_hash_iff h
  case bracket => rw [matches_hash_iff h, matches_bracket_iff h]

/-- Both shorthands of an element with classes of its own, and a free attribute that is hidden by
them. -/
theorem point_sees_own_classes_of_hidden :
    let spec := (((ElementSpec.ofTag "p").withId "a").withClass "b c").withAttribute "class" "a"
    SelectorList.IsName "a" ∧ Shorthands ((ofSpecs [spec]).afterAll []) 1 "a" := by
  have hname : SelectorList.IsName "a" := ⟨by decide, by decide⟩
  exact ⟨hname, point_sees_own_classes _ [] 1 hname⟩

/-- A paragraph is given its class as a free attribute: the attribute `class` has the word, also for
a selector, and the point does not see it. -/
theorem free_class_shows :
    let d := (ofSpecs [(ElementSpec.ofTag "p").withAttribute "class" "a"]).afterAll []
    d.ShowsClass 1 "a" ∧ d.matches 1 "[class=a]" = .ok true ∧ d.matches 1 ".a" = .ok false ∧
      ¬ (d.matches 1 ".a" = .ok true ↔ d.ShowsClass 1 "a") := by
  intro d
  have hshown : d.ShowsClass 1 "a" := ⟨"a", by decide +kernel, by decide +kernel⟩
  have hpoint : d.matches 1 ".a" = .ok false := by decide +kernel
  refine ⟨hshown, by decide +kernel, hpoint, fun h => ?_⟩
  exact Bool.false_ne_true (Except.ok.inj (hpoint.symm.trans (h.2 hshown)))

end Document

end TreeRules
