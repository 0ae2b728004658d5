import TreeRules.Proofs.Document.Placing
import TreeRules.Proofs.Document.Query
import TreeRules.Proofs.Selector.Seeing

/-!
# Proofs/Document/Growth — appending leaves what was there as it was

A document `Grows` under a node if its nodes stay as they are and that node has one more child, the
last.  All that is new hangs on this child, so what is below an old node is what was below it, with
the new nodes in between for the parent and for what the parent lies below
(`Document.Grows.filter_descendants`, `Document.Grows.atOrBelow`), and an old node matches what it
matched, since a selector looks upward only.  A description that is appended makes the document grow
(`Document.grows_append`).
-/

namespace TreeRules

namespace Document

variable {d d' : Document} {parent n m : Nat} {selector : String}

/-- Old nodes are as they were, but for one more child of the parent. -/
structure Grows (d d' : Document) (parent : Nat) : Prop where
  size : d.size ≤ d'.size
  rootValue : d'.rootValue = d.rootValue
  element? : ∀ n ≤ d.size, d'.element? n = d.element? n
  children : ∀ n ≤ d.size, d'.children n =
    if n = parent then d.children n ++ [d.size + 1] else d.children n

/-! ## Old nodes -/

namespace Grows

theorem parent? (h : Grows d d' parent) (hn : n ≤ d.size) : d'.parent? n = d.parent? n := by
  rw [Document.parent?, h.element? n hn, Document.parent?]

theorem hasNode (h : Grows d d' parent) (hn : n ≤ d.size) : d'.hasNode n = true :=
  decide_eq_true (hn.trans h.size)

theorem showsSame (h : Grows d d' parent) : ShowsSame d d' (· ≤ d.size) where
  up _ _ hn hp := (Nat.le_of_lt (parent?_lt hp)).trans hn
  parent? _ hn := h.parent? hn
  tag? n hn := by rw [tag?, h.element? n hn, tag?]
  attribute? n hn name := by rw [attribute?, h.element? n hn, attribute?]
  hasClass n hn name := by rw [hasClass, h.element? n hn, hasClass]

/-- An old node shows what it showed; the parent has one more child. -/
theorem linkedNode (h : Grows d d' parent) (hn : n ≤ d.size) : d'.linkedNode n =
    if n = parent then (d.linkedNode n).withChild (d.size + 1) else d.linkedNode n := by
  have hvalue : d'.value n = d.value n := value_congr h.rootValue (h.element? n hn)
  rw [Document.linkedNode, tag?, h.element? n hn, hvalue, h.parent? hn, h.children n hn]
  split <;> rfl

/-! ## What is below an old node -/

/-- Of what is below an old node, what is old was there before. -/
theorem filter_descendants (h : Grows d d' parent) (hn : n ≤ d.size) :
    (d'.descendants n).filter (· ≤ d.size) = d.descendants n := by
  induction n using descendants.induct d with
  | case1 n ih =>
    -- the old children with what was below them, and then the new child with what is new
    have hold : ((d.children n).flatMap fun c => c :: d'.descendants c).filter (· ≤ d.size) =
        d.descendants n := by
      rw [List.filter_flatMap, descendants_eq]
      refine List.flatMap_congr fun c hc => ?_
      have hc' : c ≤ d.size := (lt_of_mem_children hc).2
      rw [List.filter_cons, if_pos (decide_eq_true hc'), ih ⟨c, hc⟩ hc']
    have hnew : ((d.size + 1) :: d'.descendants (d.size + 1)).filter (· ≤ d.size) = [] := by
      rw [List.filter_eq_nil_iff]
      intro m hm
      rcases mem_cons_descendants.1 hm with rfl | hm
      · simp
      · have := hm.lt
        simp only [decide_eq_true_eq]
        omega
    rw [descendants_eq, h.children n hn]
    split
    · rw [List.flatMap_append, List.filter_append, hold, List.flatMap_singleton, hnew,
        List.append_nil]
    · exact hold

/-- A new node hangs on the parent or on a new node. -/
theorem parent_of_new (h : Grows d d' parent) {p : Nat} (hm : d.size < m)
    (hp : d'.parent? m = some p) : p = parent ∨ d.size < p := by
  by_contra hno
  obtain ⟨hparent, hp'⟩ := not_or.1 hno
  have hmem : m ∈ d'.children p := mem_children.2 hp
  rw [h.children p (Nat.le_of_not_lt hp'), if_neg hparent] at hmem
  exact absurd (lt_of_mem_children hmem).2 (Nat.not_le_of_lt hm)

/-- **What is new lies below the parent, and below what the parent lies below.** -/
theorem atOrBelow (h : Grows d d' parent) (hn : n ≤ d.size) (hparent : parent ≤ d.size)
    (hm : d.size < m) (hb : d'.Below m n) : d.AtOrBelow parent n := by
  induction m using Nat.strong_induction_on with
  | _ m ih =>
    obtain ⟨p, hp, hpn⟩ := below_iff.1 hb
    rcases h.parent_of_new hm hp with rfl | hnew
    · exact hpn.imp id (h.showsSame.below_iff hparent).1
    · rcases hpn with rfl | hpn
      · exact absurd hn (Nat.not_le_of_lt hnew)
      · exact ih p (parent?_lt hp) hnew hpn

/-! ## Questions about old nodes -/

theorem «matches» (h : Grows d d' parent) (hn : n ≤ d.size) (selector : String) :
    d'.matches n selector = d.matches n selector := by
  cases hp : SelectorList.parse selector with
  | error e =>
    rw [matches_of_error (h.hasNode hn) hp, matches_of_error (decide_eq_true hn) hp]
  | ok l =>
    rw [matches_of_ok (h.hasNode hn) hp, matches_of_ok (decide_eq_true hn) hp,
      h.showsSame.matches l hn]

/-- **A query finds what it found**, if what is new is left out. -/
theorem query (h : Grows d d' parent) (hn : n ≤ d.size) (selector : String) :
    (d'.query n selector).map (·.filter (· ≤ d.size)) = d.query n selector := by
  cases hp : SelectorList.parse selector with
  | error e =>
    rw [query_of_error (h.hasNode hn) hp, query_of_error (decide_eq_true hn) hp]
    rfl
  | ok l =>
    rw [query_of_ok (h.hasNode hn) hp, query_of_ok (decide_eq_true hn) hp]
    refine congrArg Except.ok ?_
    dsimp only
    rw [List.filter_comm, h.filter_descendants hn]
    refine List.filter_congr fun m hm => ?_
    have hm' : m ≤ d.size := (contains_eq_true_iff.1 (contains_of_mem_descendants n hm)).2
    rw [h.showsSame.matches l hm']

end Grows

/-- What is found is below the node. -/
theorem below_of_mem_query {found : List Nat} (h : d.query n selector = .ok found)
    (hm : m ∈ found) : d.Below m n := by
  rw [Document.query] at h
  cases hs : d.selectorFor n selector with
  | error e =>
    rw [hs] at h
    cases h
  | ok l =>
    rw [hs] at h
    obtain rfl := Except.ok.inj h
    exact mem_descendants_iff.1 (List.mem_filter.1 hm).1

/-! ## Appending -/

variable {spec : ElementSpec}

theorem append_of_missing (h : d.hasNode parent = false) (spec : ElementSpec) :
    d.append parent spec = .error (.unknownNode parent) := by
  rw [append, append?, dif_neg (of_decide_eq_false h)]

/-- **A description that is appended makes the document grow**, by as many nodes as it describes. -/
theorem grows_append (h : d.hasNode parent = true) (spec : ElementSpec) :
    ∃ d', d.append parent spec = .ok (d', d.size + 1) ∧
      d'.size = d.size + spec.preorder.length ∧ Grows d d' parent := by
  have hparent : parent ≤ d.size := of_decide_eq_true h
  have hf : d.Follows (spec.place parent (d.size + 1)) := fun i hi => by
    have hlt := spec.parent_lt_of_place parent (d.size + 1) (by omega) i hi
    omega
  have hsize : (d.extend _ hf).size = d.size + spec.preorder.length := by
    rw [size_extend, ElementSpec.length_place]
  refine ⟨d.extend _ hf, by rw [append, append?, dif_pos hparent], hsize, ?_⟩
  refine ⟨hsize ▸ Nat.le_add_right _ _, rfl, fun n hn => ?_, fun n hn => ?_⟩
  · rw [element?_extend, if_pos hn]
  · -- below the new child nothing names an old node, and there is nothing beside it
    have hbelow : Element.naming n (d.size + 2)
        (ElementSpec.placeAll (d.size + 1) (d.size + 2) spec.children) = [] :=
      ElementSpec.naming_placeAll_eq_nil (by omega) (.inl (by omega)) _
    rw [children_extend, ← ElementSpec.placeAll_singleton, ElementSpec.naming_placeAll_cons, hbelow,
      ElementSpec.placeAll, Element.naming, List.append_nil, List.append_nil]
    by_cases hn' : n = parent
    · rw [if_pos hn', if_pos hn'.symm]
    · rw [if_neg hn', if_neg (Ne.symm hn'), List.append_nil]

end Document

namespace Session

variable {s : Session} {parent : Nat} {spec : ElementSpec}

theorem step_append_error {error : TreeError} (h : s.document.append parent spec = .error error) :
    answer (step (.append parent spec)) s = .appended (.error error) ∧
      after (step (.append parent spec)) s = s := by
  have hv := value_revise_error (f := fun d => (d.append parent spec).map .swap) (s := s)
    (congrArg (·.map Prod.swap) h)
  exact ⟨congrArg Answer.appended (congrArg Prod.fst hv), congrArg Prod.snd hv⟩

theorem step_append_ok {d : Document} {n : Nat} (h : s.document.append parent spec = .ok (d, n)) :
    answer (step (.append parent spec)) s = .appended (.ok n) ∧
      after (step (.append parent spec)) s = { s with document := d } := by
  have hv := value_revise_ok (f := fun d => (d.append parent spec).map .swap) (s := s)
    (congrArg (·.map Prod.swap) h)
  exact ⟨congrArg Answer.appended (congrArg Prod.fst hv), congrArg Prod.snd hv⟩

/-- **Appending is conservative.**  Under a node that is missing nothing happens.  Otherwise the
description gets the next number, the document is larger by the elements that it describes, and of
every node that was there before:

* it shows what it showed, but for the new child of the parent, which is the last;
* it matches the same selectors;
* a query below it finds what it found, and what is new only if it is the parent or above it. -/
theorem append_is_conservative (s : Session) (parent : Nat) (spec : ElementSpec) :
    let reply := answer (step (.append parent spec)) s
    let s' := after (step (.append parent spec)) s
    let d := s.document
    let d' := s'.document
    (d.hasNode parent = false → reply = .appended (.error (.unknownNode parent)) ∧ s' = s) ∧
    (d.hasNode parent = true →
      reply = .appended (.ok d.arena.nodes.size) ∧ s'.engine = s.engine ∧
      d'.size = d.size + spec.preorder.length ∧
      ∀ n ≤ d.size,
        d'.linkedNode n =
          (if n = parent then (d.linkedNode n).withChild d.arena.nodes.size else d.linkedNode n) ∧
        ∀ selector, d'.matches n selector = d.matches n selector ∧
          (d'.query n selector).map (·.filter (· ≤ d.size)) = d.query n selector ∧
          ∀ found m, d'.query n selector = .ok found → m ∈ found → d.size < m →
            n ∈ parent :: d.ancestors parent) := by
  intro reply s' d d'
  refine ⟨fun h => step_append_error (Document.append_of_missing h spec), fun h => ?_⟩
  obtain ⟨grown, hgrown, hsize, hg⟩ := Document.grows_append h spec
  obtain ⟨hreply, hs'⟩ := step_append_ok hgrown
  have hd' : d' = grown := congrArg Session.document hs'
  rw [hd', Document.size_arena]
  refine ⟨hreply, (congrArg Session.engine hs').trans rfl, hsize, fun n hn => ?_⟩
  refine ⟨hg.linkedNode hn, fun selector => ⟨hg.matches hn selector, hg.query hn selector, ?_⟩⟩
  intro found m hq hm hnew
  rw [List.mem_cons, Document.mem_ancestors_iff]
  exact (hg.atOrBelow hn (of_decide_eq_true h) hnew (Document.below_of_mem_query hq hm)).imp
    Eq.symm id

end Session

end TreeRules
