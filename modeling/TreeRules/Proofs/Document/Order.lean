import TreeRules.Proofs.Document.Below

/-!
# Proofs/Document/Order — what is below a node comes in pre-order

A node `Precedes` what is below it, and of two children of one node the first, with all below it,
precedes the second, with all below that.  No two nodes precede each other (`Precedes.asymm`), so a
list in this order is determined by its members.  `descendants` lists in this order
(`pairwise_descendants`), and so the list of a node is the list of the root without what is not
below the node (`filter_descendants`).

The lists are defined by recursion from node to child.  A walk that keeps a stack of the nodes
still to be listed, and puts the children of the node it lists on top, lists the same
(`walk_children_iff`).
-/

namespace TreeRules

namespace Document

variable {d : Document} {a b n m p x y : Nat}

/-! ## The order -/

/-- `m` is `n` or lies below it. -/
def AtOrBelow (d : Document) (m n : Nat) : Prop := m = n ∨ d.Below m n

/-- `a` comes before `b` in pre-order. -/
inductive Precedes (d : Document) (a b : Nat) : Prop where
  /-- A node comes before what is below it. -/
  | above (h : d.Below b a)
  /-- All that hangs on a child comes before all that hangs on a later child. -/
  | beside {p x y : Nat} (order : [x, y].Sublist (d.children p)) (ha : d.AtOrBelow a x)
      (hb : d.AtOrBelow b y)

theorem Below.of_atOrBelow (h : d.Below m n) (hn : d.AtOrBelow n p) : d.Below m p := by
  rcases hn with rfl | hn
  · exact h
  · exact h.trans hn

theorem AtOrBelow.below (h : d.AtOrBelow m x) (hx : x ∈ d.children p) : d.Below m p := by
  rcases h with rfl | h
  · exact below_of_parent? (mem_children.1 hx)
  · exact h.of_parent? (mem_children.1 hx)

/-- What is below a node hangs on one of its children. -/
theorem Below.exists_child (h : d.Below m n) : ∃ c ∈ d.children n, d.AtOrBelow m c := by
  obtain ⟨c, hc, hm⟩ := mem_descendants.1 (mem_descendants_iff.2 h)
  exact ⟨c, hc, hm.imp_right mem_descendants_iff.1⟩

theorem not_below_child (hx : x ∈ d.children p) (hy : y ∈ d.children p) : ¬ d.Below x y := by
  -- a child below its sibling would have a parent after that sibling
  intro h
  obtain ⟨q, hq, hqy⟩ := below_iff.1 h
  obtain rfl : q = p := Option.some.inj (hq.symm.trans (mem_children.1 hx))
  have hlt : q < y := (lt_of_mem_children hy).1
  rcases hqy with rfl | hqy
  · exact absurd hlt (Nat.lt_irrefl q)
  · exact absurd hqy.lt (Nat.lt_asymm hlt)

/-- What hangs on one child hangs on no other. -/
theorem AtOrBelow.eq_child (h : d.AtOrBelow m x) (h' : d.AtOrBelow m y) (hx : x ∈ d.children p)
    (hy : y ∈ d.children p) : x = y := by
  rcases h with rfl | h
  · rcases h' with rfl | h'
    · rfl
    · exact absurd h' (not_below_child hx hy)
  · rcases h' with rfl | h'
    · exact absurd h (not_below_child hy hx)
    · rcases h.total h' with hxy | hxy | hyx
      · exact hxy
      · exact absurd hxy (not_below_child hx hy)
      · exact absurd hyx (not_below_child hy hx)

section Beside

variable (order : [x, y].Sublist (d.children p))

include order

theorem mem_children_of_order : x ∈ d.children p ∧ y ∈ d.children p :=
  ⟨order.subset List.mem_cons_self, order.subset (List.mem_cons_of_mem x List.mem_cons_self)⟩

theorem lt_of_order : x < y := List.pairwise_iff_forall_sublist.1 (d.pairwise_children p) order

/-- What hangs on the earlier child does not hang on the later one. -/
theorem AtOrBelow.not_later (h : d.AtOrBelow m x) : ¬ d.AtOrBelow m y := by
  intro h'
  obtain ⟨hx, hy⟩ := mem_children_of_order order
  exact absurd (h.eq_child h' hx hy) (Nat.ne_of_lt (lt_of_order order))

/-- A node that both of them lie below does not lie below the parent. -/
theorem not_below_of_order (ha : d.AtOrBelow a x) (hb : d.AtOrBelow b y) (haq : d.Below a n)
    (hbq : d.Below b n) : ¬ d.Below n p := by
  intro h
  obtain ⟨hx, hy⟩ := mem_children_of_order order
  obtain ⟨z, hz, hnz⟩ := h.exists_child
  obtain rfl : z = x := AtOrBelow.eq_child (.inr (haq.of_atOrBelow hnz)) ha hz hx
  exact ha.not_later order (hb.eq_child (.inr (hbq.of_atOrBelow hnz)) hy hz ▸ ha)

end Beside

/-- **The order goes one way only.** -/
theorem Precedes.asymm (h : d.Precedes a b) : ¬ d.Precedes b a := by
  intro h'
  cases h with
  | above h =>
    cases h' with
    | above h' => exact absurd h.lt (Nat.lt_asymm h'.lt)
    | beside order hb ha => exact hb.not_later order (.inr (h.of_atOrBelow ha))
  | @beside p x y order ha hb =>
    cases h' with
    | above h' => exact ha.not_later order (.inr (h'.of_atOrBelow hb))
    | @beside q u v order' hb' ha' =>
      obtain ⟨hx, hy⟩ := mem_children_of_order order
      obtain ⟨hu, hv⟩ := mem_children_of_order order'
      -- both parents are above `a`, so one of them is above the other if they are not the same
      rcases (ha.below hx).total (ha'.below hv) with rfl | hpq | hqp
      · obtain rfl : x = v := ha.eq_child ha' hx hv
        obtain rfl : y = u := hb.eq_child hb' hy hu
        exact absurd (lt_of_order order) (Nat.lt_asymm (lt_of_order order'))
      · exact not_below_of_order order' hb' ha' (hb.below hy) (ha.below hx) hpq
      · exact not_below_of_order order ha hb (ha'.below hv) (hb'.below hu) hqp

/-- A list in pre-order has no node twice. -/
theorem nodup_of_pairwise {ns : List Nat} (h : ns.Pairwise d.Precedes) : ns.Nodup := by
  refine h.imp fun hab => ?_
  rintro rfl
  exact hab.asymm hab

/-- A list in pre-order is determined by its members. -/
theorem eq_of_pairwise {ns ms : List Nat} (hn : ns.Pairwise d.Precedes)
    (hm : ms.Pairwise d.Precedes) (h : ∀ k, k ∈ ns ↔ k ∈ ms) : ns = ms := by
  have hperm : ns.Perm ms :=
    (List.perm_ext_iff_of_nodup (nodup_of_pairwise hn) (nodup_of_pairwise hm)).2 h
  exact hperm.eq_of_pairwise (fun _ _ _ _ hab hba => absurd hba hab.asymm) hn hm

/-! ## The list of what is below a node -/

theorem mem_cons_descendants : m ∈ n :: d.descendants n ↔ d.AtOrBelow m n := by
  rw [List.mem_cons, mem_descendants_iff]
  rfl

/-- **What is below a node comes in pre-order.** -/
theorem pairwise_descendants (d : Document) (n : Nat) : (d.descendants n).Pairwise d.Precedes := by
  induction n using descendants.induct d with
  | case1 n ih =>
    rw [descendants_eq, List.pairwise_flatMap]
    refine ⟨fun c hc => ?_, List.pairwise_iff_forall_sublist.2 fun order a ha b hb => ?_⟩
    · refine List.pairwise_cons.2 ⟨fun b hb => ?_, ih ⟨c, hc⟩⟩
      exact .above (mem_descendants_iff.1 hb)
    · exact .beside order (mem_cons_descendants.1 ha) (mem_cons_descendants.1 hb)

/-- Of what is below the root, what is below a node is the list of that node. -/
theorem filter_descendants (d : Document) (n : Nat) :
    (d.descendants root).filter (fun m => d.Below m n) = d.descendants n := by
  refine eq_of_pairwise ((d.pairwise_descendants root).filter _) (d.pairwise_descendants n)
    fun m => ?_
  rw [List.mem_filter, decide_eq_true_eq, mem_descendants_iff, mem_descendants_iff, below_root_iff]
  exact and_iff_right_of_imp Below.contains

/-! ## A walk with a stack -/

/-- What a walk lists from a stack, its top first: the node at the top is taken off and listed, and
its children go on top in their order. -/
inductive Walk (d : Document) : List Nat → List Nat → Prop where
  | done : Walk d [] []
  | visit {n : Nat} {stack listed : List Nat} (rest : Walk d (d.children n ++ stack) listed) :
      Walk d (n :: stack) (n :: listed)

/-- The walk goes on below the node at the top before it comes to the next one. -/
theorem Walk.cons {stack listed : List Nat} (n : Nat) (h : d.Walk stack listed) :
    d.Walk (n :: stack) (n :: d.descendants n ++ listed) := by
  induction n using descendants.induct d generalizing stack listed with
  | case1 n ih =>
    refine .visit ?_
    rw [descendants_eq]
    -- the children are walked one after the other, the last of them down to the old stack
    have hall : ∀ cs, (∀ c ∈ cs, c ∈ d.children n) →
        d.Walk (cs ++ stack) (cs.flatMap (fun c => c :: d.descendants c) ++ listed) := by
      intro cs hcs
      induction cs with
      | nil => exact h
      | cons c rest ihrest =>
        have hrest := ihrest fun c' hc' => hcs c' (List.mem_cons_of_mem c hc')
        rw [List.flatMap_cons, List.append_assoc]
        exact ih ⟨c, hcs c List.mem_cons_self⟩ hrest
    exact hall (d.children n) fun c hc => hc

/-- A walk is determined by its stack. -/
theorem Walk.unique {stack listed listed' : List Nat} (h : d.Walk stack listed)
    (h' : d.Walk stack listed') : listed = listed' := by
  induction h generalizing listed' with
  | done =>
    cases h'
    rfl
  | visit _ ih =>
    cases h' with
    | visit rest => rw [ih rest]

/-- **A walk with a stack ends, and lists what is below the node in the same order.** -/
theorem walk_children_iff {listed : List Nat} :
    d.Walk (d.children n) listed ↔ listed = d.descendants n := by
  have hwalk : d.Walk (d.children n) (d.descendants n) := by
    have h := Walk.cons n (.done (d := d))
    cases h with
    | visit rest => simpa using rest
  refine ⟨fun h => h.unique hwalk, ?_⟩
  rintro rfl
  exact hwalk

end Document

end TreeRules
