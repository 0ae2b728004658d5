import TreeRules.Proofs.Document.Placing
import TreeRules.Proofs.Document.Query

/-!
# Proofs/Document/Forest — a document is its forest, numbered depth first

The elements of a document made of a forest are placed in the pre-order of the forest, so the `k`-th
description is node `k`.  What remains is who hangs on whom: of the elements placed, those name node
`k` as their parent which are the tops of what is below the `k`-th description
(`ElementSpec.naming_placeAll`).  So everything below a node is numbered on from it without a gap
(`Document.cons_descendants_ofSpecs`), and the numbers of a document count its forest
(`Document.ofSpecs_numbered`).
-/

namespace TreeRules

/-- Of two lists that correspond, the first has no member without a counterpart. -/
theorem exists_mem_of_forall₂ {α β : Type} {R : α → β → Prop} {as : List α} {bs : List β} {a : α}
    (h : List.Forall₂ R as bs) (ha : a ∈ as) : ∃ b ∈ bs, R a b := by
  induction h with
  | nil => exact absurd ha List.not_mem_nil
  | @cons c b as bs hcb _ ih =>
    rcases List.mem_cons.1 ha with rfl | ha
    · exact ⟨b, List.mem_cons_self, hcb⟩
    · obtain ⟨b', hb', hab⟩ := ih ha
      exact ⟨b', List.mem_cons_of_mem b hb', hab⟩

namespace ElementSpec

variable {s t : ElementSpec} {parent next i j k : Nat}

/-- The `k`-th description of a forest in pre-order, counted from one. -/
def nth? (specs : List ElementSpec) : Nat → Option ElementSpec
  | 0 => none
  | i + 1 => (preorderAll specs)[i]?

theorem nth?_eq_some_iff {specs : List ElementSpec} :
    nth? specs k = some s ↔ ∃ i, k = i + 1 ∧ (preorderAll specs)[i]? = some s := by
  cases k with
  | zero => simp [nth?]
  | succ i => simp [nth?]

/-! ## Numbers of tops -/

/-- The numbers of descriptions placed one after the other, the first of them at `next`. -/
def tops (next : Nat) : List ElementSpec → List Nat
  | [] => []
  | s :: rest => next :: tops (next + s.preorder.length) rest

/-- A top stands where its description does in the pre-order. -/
theorem forall₂_tops (next : Nat) (ss : List ElementSpec) :
    List.Forall₂ (fun m s => ∃ j, m = next + j ∧ (preorderAll ss)[j]? = some s)
      (tops next ss) ss := by
  induction ss generalizing next with
  | nil => exact .nil
  | cons s rest ih =>
    refine .cons ⟨0, rfl, by rw [preorderAll_cons, List.getElem?_cons_zero]⟩
      ((ih (next + s.preorder.length)).imp ?_)
    rintro m t ⟨j, rfl, hj⟩
    refine ⟨s.preorder.length + j, Nat.add_assoc _ _ _, ?_⟩
    rw [preorderAll, List.getElem?_append_right (Nat.le_add_right _ _), Nat.add_sub_cancel_left, hj]

/-- Tops with what follows each of them without a gap follow each other without a gap. -/
theorem flatMap_tops {f : Nat → List Nat} {ss : List ElementSpec}
    (h : List.Forall₂ (fun m s => m :: f m = List.range' m s.preorder.length) (tops next ss) ss) :
    (tops next ss).flatMap (fun m => m :: f m) = List.range' next (preorderAll ss).length := by
  induction ss generalizing next with
  | nil => rfl
  | cons s rest ih =>
    obtain ⟨hs, hrest⟩ := List.forall₂_cons.1 h
    rw [tops, List.flatMap_cons, hs, ih hrest, preorderAll, List.length_append,
      List.range'_append_1]

/-- What is below a description follows it in the pre-order. -/
theorem getElem?_preorderAll_below {ss : List ElementSpec} (hs : (preorderAll ss)[i]? = some s)
    (ht : (preorderAll s.children)[j]? = some t) : (preorderAll ss)[i + 1 + j]? = some t := by
  induction ss using forest_induction generalizing i with
  | nil => exact absurd hs (Option.some_ne_none s).symm
  | cons u rest below beside =>
    rw [preorderAll_cons] at hs ⊢
    have hj : j < (preorderAll s.children).length := (List.getElem?_eq_some_iff.1 ht).1
    rw [Nat.add_right_comm, List.getElem?_cons_succ]
    cases i with
    | zero =>
      obtain rfl : u = s := Option.some.inj hs
      rw [Nat.zero_add, List.getElem?_append_left hj, ht]
    | succ i =>
      rw [List.getElem?_cons_succ] at hs
      rcases Nat.lt_or_ge i (preorderAll u.children).length with hi | hi
      · rw [List.getElem?_append_left hi] at hs
        have hbelow := below hs
        rw [List.getElem?_append_left (List.getElem?_eq_some_iff.1 hbelow).1, hbelow]
      · rw [List.getElem?_append_right hi] at hs
        rw [List.getElem?_append_right (by omega), ← beside hs]
        congr 1
        omega

/-! ## Elements that name a parent -/

/-- The node that a forest is placed under is named at its tops. -/
theorem naming_parent (h : parent < next) (ss : List ElementSpec) :
    Element.naming parent next (placeAll parent next ss) = tops next ss := by
  induction ss generalizing next with
  | nil => rfl
  | cons s rest ih =>
    rw [naming_placeAll_cons, if_pos rfl, naming_placeAll_eq_nil (by omega) (.inl (by omega)),
      ih (by omega)]
    rfl

/-- **A placed description is named at the tops of what is below it.** -/
theorem naming_placeAll (h : parent < next) {ss : List ElementSpec} (hk : k = next + i)
    (hs : (preorderAll ss)[i]? = some s) :
    Element.naming k next (placeAll parent next ss) = tops (k + 1) s.children := by
  induction ss using forest_induction generalizing parent next i with
  | nil => exact absurd hs (Option.some_ne_none s).symm
  | cons t rest below beside =>
    have ht : t.preorder.length = (preorderAll t.children).length + 1 := length_preorder t
    rw [naming_placeAll_cons, if_neg (by omega), List.nil_append]
    rw [preorderAll_cons] at hs
    cases i with
    | zero =>
      obtain rfl : t = s := Option.some.inj hs
      obtain rfl : k = next := hk
      rw [naming_parent (Nat.lt_succ_self k), naming_placeAll_eq_nil (by omega) (.inl (by omega)),
        List.append_nil]
    | succ i =>
      rw [List.getElem?_cons_succ] at hs
      rcases Nat.lt_or_ge i (preorderAll t.children).length with hi | hi
      · rw [List.getElem?_append_left hi] at hs
        rw [below (Nat.lt_succ_self next) (by omega) hs,
          naming_placeAll_eq_nil (by omega) (.inl (by omega)), List.append_nil]
      · rw [List.getElem?_append_right hi] at hs
        rw [naming_placeAll_eq_nil (by omega) (.inr (by omega)), List.nil_append]
        exact beside (by omega) (by omega) hs

end ElementSpec

namespace Document

/-! ## Children and what is below -/

open ElementSpec (nth? preorderAll tops)

variable {specs : List ElementSpec} {s : ElementSpec} {i k : Nat}

theorem size_ofSpecs (specs : List ElementSpec) :
    (ofSpecs specs).size = (preorderAll specs).length :=
  (size_extend _).trans ((Nat.zero_add _).trans (ElementSpec.length_placeAll root 1 specs))

/-- Every element is that of a description. -/
theorem exists_element?_ofSpecs (hpos : 0 < k) (hk : k ≤ (ofSpecs specs).size) :
    ∃ s parent, nth? specs k = some s ∧ (ofSpecs specs).element? k = some (s.element parent) := by
  obtain ⟨i, rfl⟩ := Nat.exists_eq_succ_of_ne_zero hpos.ne'
  have hi : i < (preorderAll specs).length := size_ofSpecs specs ▸ hk
  have hplaced : i < (ElementSpec.placeAll root 1 specs).length := by
    rwa [ElementSpec.length_placeAll]
  obtain ⟨parent, hparent⟩ := (ElementSpec.forall₂_placeAll specs root 1).get hplaced hi
  refine ⟨(preorderAll specs)[i], parent, List.getElem?_eq_getElem hi, ?_⟩
  have hnew : (ofSpecs specs).element? (i + 1) = (ElementSpec.placeAll root 1 specs)[i]? :=
    (element?_extend (d := empty) _ (i + 1)).trans (if_neg (Nat.not_succ_le_zero i))
  exact hnew.trans (List.getElem?_eq_some_iff.2 ⟨hplaced, hparent⟩)

theorem children_ofSpecs_eq_naming (specs : List ElementSpec) (k : Nat) :
    (ofSpecs specs).children k =
      Element.naming k 1 (ElementSpec.placeAll root 1 specs) := children_extend _ k

theorem children_ofSpecs_root (specs : List ElementSpec) :
    (ofSpecs specs).children root = tops 1 specs :=
  (children_ofSpecs_eq_naming specs root).trans (ElementSpec.naming_parent Nat.one_pos specs)

theorem children_ofSpecs (hs : (preorderAll specs)[i]? = some s) :
    (ofSpecs specs).children (i + 1) = tops (i + 2) s.children :=
  (children_ofSpecs_eq_naming specs (i + 1)).trans
    (ElementSpec.naming_placeAll Nat.one_pos (Nat.add_comm i 1) hs)

/-- A child stands for a description below, in order. -/
theorem forall₂_children_ofSpecs (hs : (preorderAll specs)[i]? = some s) :
    List.Forall₂ (fun m t => m ∈ (ofSpecs specs).children (i + 1) ∧ nth? specs m = some t)
      ((ofSpecs specs).children (i + 1)) s.children := by
  refine (List.forall₂_and_left _ _).2 ⟨fun m hm => hm, ?_⟩
  rw [children_ofSpecs hs]
  refine (ElementSpec.forall₂_tops (i + 2) s.children).imp ?_
  rintro m t ⟨j, rfl, hj⟩
  refine ElementSpec.nth?_eq_some_iff.2 ⟨i + 1 + j, by omega, ?_⟩
  exact ElementSpec.getElem?_preorderAll_below hs hj

theorem forall₂_children_ofSpecs_root (specs : List ElementSpec) :
    List.Forall₂ (fun m t => m ∈ (ofSpecs specs).children root ∧ nth? specs m = some t)
      ((ofSpecs specs).children root) specs := by
  refine (List.forall₂_and_left _ _).2 ⟨fun m hm => hm, ?_⟩
  rw [children_ofSpecs_root]
  refine (ElementSpec.forall₂_tops 1 specs).imp ?_
  rintro m t ⟨j, rfl, hj⟩
  exact ElementSpec.nth?_eq_some_iff.2 ⟨j, Nat.add_comm 1 j, hj⟩

/-- A node hangs on the node of the description that its own stands below, or on the root. -/
theorem parent?_ofSpecs (hs : nth? specs k = some s) :
    ((ofSpecs specs).parent? k = some root ∧ s ∈ specs) ∨
      ∃ p t, (ofSpecs specs).parent? k = some p ∧ nth? specs p = some t ∧ s ∈ t.children := by
  obtain ⟨i, rfl, hi⟩ := ElementSpec.nth?_eq_some_iff.1 hs
  have hk : i + 1 ≤ (ofSpecs specs).size := size_ofSpecs specs ▸ (List.getElem?_eq_some_iff.1 hi).1
  obtain ⟨p, hlt, hp⟩ := exists_parent? (Nat.succ_pos i) hk
  have hmem : i + 1 ∈ (ofSpecs specs).children p := mem_children.2 hp
  rcases Nat.eq_zero_or_pos p with rfl | hpos
  · obtain ⟨t, ht, -, hkt⟩ := exists_mem_of_forall₂ (forall₂_children_ofSpecs_root specs) hmem
    obtain rfl : t = s := Option.some.inj (hkt.symm.trans hs)
    exact .inl ⟨hp, ht⟩
  · obtain ⟨t, -, ht, -⟩ := exists_element?_ofSpecs hpos (by omega : p ≤ (ofSpecs specs).size)
    obtain ⟨j, rfl, hj⟩ := ElementSpec.nth?_eq_some_iff.1 ht
    obtain ⟨u, hu, -, hku⟩ := exists_mem_of_forall₂ (forall₂_children_ofSpecs hj) hmem
    obtain rfl : u = s := Option.some.inj (hku.symm.trans hs)
    exact .inr ⟨j + 1, t, hp, ht, hu⟩

/-- **What is below a node is numbered on from it without a gap.** -/
theorem cons_descendants_ofSpecs (hs : nth? specs k = some s) :
    k :: (ofSpecs specs).descendants k = List.range' k s.preorder.length := by
  induction k using descendants.induct (ofSpecs specs) generalizing s with
  | case1 k ih =>
    obtain ⟨i, rfl, hi⟩ := ElementSpec.nth?_eq_some_iff.1 hs
    have hchildren : List.Forall₂
        (fun m t => m :: (ofSpecs specs).descendants m = List.range' m t.preorder.length)
        ((ofSpecs specs).children (i + 1)) s.children :=
      (forall₂_children_ofSpecs hi).imp fun m t h => ih ⟨m, h.1⟩ h.2
    rw [descendants_eq]
    rw [children_ofSpecs hi] at hchildren ⊢
    rw [ElementSpec.flatMap_tops hchildren, ElementSpec.length_preorder, List.range'_succ]

theorem descendants_ofSpecs_root (specs : List ElementSpec) :
    (ofSpecs specs).descendants root = List.range' 1 (ofSpecs specs).size := by
  have hchildren := (forall₂_children_ofSpecs_root specs).imp fun m t h =>
    cons_descendants_ofSpecs h.2
  rw [descendants_eq, size_ofSpecs]
  rw [children_ofSpecs_root] at hchildren ⊢
  exact ElementSpec.flatMap_tops hchildren

/-! ## Numbers -/

/-- A document is a forest, numbered depth first. -/
structure Numbers (d : Document) (specs : List ElementSpec) : Prop where
  /-- There are as many elements as descriptions. -/
  size : d.size = (preorderAll specs).length
  /-- Node `k` shows what the `k`-th description says. -/
  element : ∀ k, 0 < k → k ≤ d.size → ∃ s parent, nth? specs k = some s ∧ d.element? k = some {
    tag := s.tag.toLower
    id := s.id.filter (· ≠ "")
    classes := wordsOf (s.classText.getD "")
    attributes := s.attributes
    value := s.value
    parent := parent }
  /-- The children of the root are the first descriptions of all, in order. -/
  top : List.Forall₂ (fun m t => d.parent? m = some root ∧ nth? specs m = some t)
    (d.children root) specs
  /-- The children of any other node are the descriptions below its own, in order. -/
  children : ∀ k s, nth? specs k = some s →
    List.Forall₂ (fun m t => d.parent? m = some k ∧ nth? specs m = some t) (d.children k) s.children
  /-- The parent of a node is that of its description, or the root if it has none. -/
  parent : ∀ k s, nth? specs k = some s → (d.parent? k = some root ∧ s ∈ specs) ∨
    ∃ p t, d.parent? k = some p ∧ nth? specs p = some t ∧ s ∈ t.children
  /-- A node and all that is below it are numbered without a gap. -/
  below : ∀ k s, nth? specs k = some s →
    k :: d.descendants k = List.range' k s.preorder.length
  /-- A star finds every number, in order. -/
  all : d.findAll "*" = .ok (List.range' 1 d.size)

/-- **A document is its forest, numbered depth first** — and it shows at every node what an arena
does that links the descriptions one by one. -/
theorem ofSpecs_numbered (specs : List ElementSpec) :
    (ofSpecs specs).Numbers specs ∧ (ofSpecs specs).arena = Arena.ofSpecs specs := by
  refine ⟨?_, (arena_ofSpecs specs).symm⟩
  exact {
    size := size_ofSpecs specs
    element := fun k hpos hk => exists_element?_ofSpecs hpos hk
    top := (forall₂_children_ofSpecs_root specs).imp fun m t h => ⟨mem_children.1 h.1, h.2⟩
    children := fun k s hs => by
      obtain ⟨i, rfl, hi⟩ := ElementSpec.nth?_eq_some_iff.1 hs
      exact (forall₂_children_ofSpecs hi).imp fun m t h => ⟨mem_children.1 h.1, h.2⟩
    parent := fun k s hs => parent?_ofSpecs hs
    below := fun k s hs => cons_descendants_ofSpecs hs
    all := by rw [findAll, query_star (hasNode_root _), descendants_ofSpecs_root] }

end Document

end TreeRules
