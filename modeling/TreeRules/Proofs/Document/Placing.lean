import Mathlib.Data.List.Forall2
import TreeRules.Proofs.Document.Arena

/-!
# Proofs/Document/Placing — where the elements of a forest are placed

A forest of descriptions has a pre-order of its own (`ElementSpec.preorderAll`).  Placed in a tree,
it makes one element for each description, in this order (`ElementSpec.forall₂_placeAll`), and an
element names as its parent the node it is placed under or one of those that are placed with it
(`ElementSpec.parent_of_mem_placeAll`).  What a document looks like after elements are added at its
end is known from these: old nodes are as they were, and a node has those of the new ones as further
children that name it (`Document.children_extend`).

Facts about forests are proved by induction over forests, which are empty, or a first description
with the forest below it and the forest beside it.
-/

namespace TreeRules

namespace ElementSpec

/-! ## Descriptions in pre-order -/

mutual

/-- A description and those below it, depth first. -/
def preorder : ElementSpec → List ElementSpec
  | ⟨tag, id, classText, attributes, value, children⟩ =>
    ⟨tag, id, classText, attributes, value, children⟩ :: preorderAll children

/-- The same for descriptions one after the other. -/
def preorderAll : List ElementSpec → List ElementSpec
  | [] => []
  | s :: rest => preorder s ++ preorderAll rest

end

/-- A forest is empty, or it begins with a description that has one forest below and one beside. -/
theorem forest_induction {P : List ElementSpec → Prop} (nil : P [])
    (cons : ∀ s rest, P s.children → P rest → P (s :: rest)) : ∀ ss, P ss
  | [] => nil
  | ⟨_, _, _, _, _, children⟩ :: rest =>
    cons _ rest (forest_induction nil cons children) (forest_induction nil cons rest)

/-- What is so of a description if it is so of its children is so of all. -/
theorem tree_induction {P : ElementSpec → Prop} (node : ∀ s, (∀ c ∈ s.children, P c) → P s)
    (s : ElementSpec) : P s := by
  have hall (ss : List ElementSpec) : ∀ s ∈ ss, P s := by
    induction ss using forest_induction with
    | nil => exact List.forall_mem_nil P
    | cons s rest below beside => exact List.forall_mem_cons.2 ⟨node s below, beside⟩
  exact hall [s] s List.mem_cons_self

variable {s : ElementSpec} {parent next k : Nat}

theorem preorder_eq (s : ElementSpec) : s.preorder = s :: preorderAll s.children := by
  cases s
  rw [preorder]

theorem length_preorder (s : ElementSpec) :
    s.preorder.length = (preorderAll s.children).length + 1 := by
  rw [preorder_eq, List.length_cons]

theorem preorderAll_cons (s : ElementSpec) (rest : List ElementSpec) :
    preorderAll (s :: rest) = s :: (preorderAll s.children ++ preorderAll rest) := by
  rw [preorderAll, preorder_eq, List.cons_append]

theorem preorderAll_singleton (s : ElementSpec) : preorderAll [s] = s.preorder := by
  rw [preorderAll, preorderAll, List.append_nil]

/-! ## Elements in pre-order -/

theorem place_eq (parent next : Nat) (s : ElementSpec) :
    place parent next s = s.element parent :: placeAll next (next + 1) s.children := by
  cases s
  rw [place]
  rfl

theorem placeAll_singleton (parent next : Nat) (s : ElementSpec) :
    placeAll parent next [s] = place parent next s := by
  rw [placeAll, placeAll, List.append_nil]

/-- **A forest is placed in pre-order** — each element is that of its description. -/
theorem forall₂_placeAll (ss : List ElementSpec) (parent next : Nat) :
    List.Forall₂ (fun e s => ∃ p, e = element s p) (placeAll parent next ss) (preorderAll ss) := by
  induction ss using forest_induction generalizing parent next with
  | nil => exact .nil
  | cons s rest below beside =>
    rw [placeAll, place_eq, preorderAll_cons, List.cons_append]
    exact .cons ⟨parent, rfl⟩ (List.rel_append (below next (next + 1)) (beside parent _))

theorem length_placeAll (parent next : Nat) (ss : List ElementSpec) :
    (placeAll parent next ss).length = (preorderAll ss).length :=
  (forall₂_placeAll ss parent next).length_eq

theorem length_place (parent next : Nat) (s : ElementSpec) :
    (place parent next s).length = s.preorder.length := by
  rw [← placeAll_singleton, length_placeAll, preorderAll_singleton]

/-- The first element, what is below it, and what is beside it. -/
theorem placeAll_cons (parent next : Nat) (s : ElementSpec) (rest : List ElementSpec) :
    placeAll parent next (s :: rest) = s.element parent ::
      (placeAll next (next + 1) s.children ++ placeAll parent (next + s.preorder.length) rest) := by
  rw [placeAll, length_place, place_eq, List.cons_append]

/-- An element is placed under the given node or under one of those that are placed with it. -/
theorem parent_of_mem_placeAll {ss : List ElementSpec} {e : Element}
    (h : e ∈ placeAll parent next ss) :
    e.parent = parent ∨ next ≤ e.parent ∧ e.parent < next + (preorderAll ss).length := by
  induction ss using forest_induction generalizing parent next with
  | nil => exact absurd h List.not_mem_nil
  | cons s rest below beside =>
    rw [placeAll_cons, List.mem_cons, List.mem_append, length_preorder] at h
    rw [preorderAll_cons, List.length_cons, List.length_append]
    rcases h with rfl | h | h
    · exact .inl rfl
    · have := below h
      omega
    · have := beside h
      omega

end ElementSpec

/-! ## Elements that name a parent -/

/-- The numbers of those elements that name `k` as their parent, the first of all being `next`. -/
def Element.naming (k : Nat) : Nat → List Element → List Nat
  | _, [] => []
  | next, e :: es =>
    if e.parent = k then next :: naming k (next + 1) es else naming k (next + 1) es

namespace Element

theorem naming_append (k next : Nat) (es fs : List Element) :
    naming k next (es ++ fs) = naming k next es ++ naming k (next + es.length) fs := by
  induction es generalizing next with
  | nil => rfl
  | cons e es ih =>
    rw [List.cons_append, naming, naming, ih, List.length_cons, Nat.add_right_comm, Nat.add_assoc]
    split <;> rfl

theorem naming_eq_nil {k next : Nat} {es : List Element} (h : ∀ e ∈ es, e.parent ≠ k) :
    naming k next es = [] := by
  induction es generalizing next with
  | nil => rfl
  | cons e es ih =>
    rw [naming, if_neg (h e List.mem_cons_self)]
    exact ih fun f hf => h f (List.mem_cons_of_mem e hf)

end Element

namespace ElementSpec

variable {parent next k : Nat}

/-- The first of a forest, what is below it, and what is beside it. -/
theorem naming_placeAll_cons (k parent next : Nat) (s : ElementSpec) (rest : List ElementSpec) :
    Element.naming k next (placeAll parent next (s :: rest)) =
      (if parent = k then [next] else []) ++
      (Element.naming k (next + 1) (placeAll next (next + 1) s.children) ++
        Element.naming k (next + s.preorder.length)
          (placeAll parent (next + s.preorder.length) rest)) := by
  have hnext : next + 1 + (preorderAll s.children).length = next + s.preorder.length := by
    rw [length_preorder]
    omega
  rw [placeAll_cons, Element.naming, Element.naming_append, length_placeAll, hnext]
  change (if parent = k then _ else _) = _
  split <;> rfl

/-- No node is named but the one that the forest is placed under, and those in its place. -/
theorem naming_placeAll_eq_nil {ss : List ElementSpec} (hparent : parent ≠ k)
    (hk : k < next ∨ next + (preorderAll ss).length ≤ k) (m : Nat) :
    Element.naming k m (placeAll parent next ss) = [] :=
  Element.naming_eq_nil fun e he => by
    have := parent_of_mem_placeAll he
    omega

end ElementSpec

namespace Document

variable {d : Document} {es : List Element}

/-! ## Documents with more elements -/

/-- Old nodes are as they were, and a new one is what was added. -/
theorem element?_extend (h : d.Follows es) (n : Nat) :
    (d.extend es h).element? n = if n ≤ d.size then d.element? n else es[n - (d.size + 1)]? := by
  cases n with
  | zero => rfl
  | succ i =>
    simp only [element?, extend, size, Nat.add_sub_add_right, Array.getElem?_append,
      List.getElem?_toArray, Nat.succ_le_iff]

/-- **A node has those new elements as further children that name it.** -/
theorem children_extend (h : d.Follows es) (k : Nat) :
    (d.extend es h).children k = d.children k ++ Element.naming k (d.size + 1) es := by
  induction es generalizing d with
  | nil => rw [extend_nil, Element.naming, List.append_nil]
  | cons e es ih =>
    have hboth : d.Follows ([e] ++ es) := h
    change (d.extend ([e] ++ es) hboth).children k = _
    rw [extend_append, ih hboth.right, children_extend_singleton, size_extend, Element.naming,
      List.length_singleton]
    split
    · rw [List.append_assoc]
      rfl
    · rfl

end Document

end TreeRules
