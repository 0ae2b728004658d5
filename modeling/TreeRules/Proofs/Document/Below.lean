import Mathlib.Data.List.Nodup
import Mathlib.Logic.Function.Iterate
import Mathlib.Logic.Relation
import Mathlib.Order.Bounds.Basic
import TreeRules.Document.Basic

/-!
# Proofs/Document/Below — what lies below a node

A node lies `Below` another if climbing from it comes there.  A document has the relation twice, as
lists: `ancestors` goes up from the lower node (`mem_ancestors_iff`), `descendants` goes down from
the upper one (`mem_descendants_iff`).  Every climb is over after as many steps as the number of
the node says, and one more; below the root there is every element and nothing else.
-/

namespace TreeRules

namespace Document

variable {d : Document} {n m p q : Nat}

/-! ## Links -/

/-- What has a parent is an element. -/
theorem contains_of_parent? (h : d.parent? m = some n) : d.contains m = true := by
  obtain ⟨e, he, -⟩ := Option.map_eq_some_iff.1 h
  rw [contains_iff, he]
  rfl

theorem contains_of_mem_children (h : m ∈ d.children n) : d.contains m = true :=
  contains_of_parent? (mem_children.1 h)

/-- And every element has one, whose number is less. -/
theorem exists_parent? (h : 0 < n) (hn : n ≤ d.size) : ∃ p < n, d.parent? n = some p := by
  obtain ⟨i, rfl⟩ := Nat.exists_eq_succ_of_ne_zero h.ne'
  have he : d.element? (i + 1) = some d.elements[i] := Array.getElem?_eq_getElem hn
  have hp : d.parent? (i + 1) = some d.elements[i].parent := by rw [parent?, he, Option.map_some]
  exact ⟨_, parent?_lt hp, hp⟩

/-- The elements are numbered from one on. -/
theorem contains_eq_true_iff : d.contains n = true ↔ 0 < n ∧ n ≤ d.size := by
  rw [contains, hasNode, root, Bool.and_eq_true, decide_eq_true_eq, decide_eq_true_eq,
    Nat.pos_iff_ne_zero]

theorem hasNode_of_contains (h : d.contains n = true) : d.hasNode n = true :=
  decide_eq_true (contains_eq_true_iff.1 h).2

theorem hasNode_root (d : Document) : d.hasNode root = true := decide_eq_true (Nat.zero_le _)

/-- A node that is there is the root or an element. -/
theorem eq_root_or_contains (h : d.hasNode n = true) : n = root ∨ d.contains n = true := by
  rcases Nat.eq_zero_or_pos n with hn | hn
  · exact .inl hn
  · exact .inr (contains_eq_true_iff.2 ⟨hn, of_decide_eq_true h⟩)

/-! ## Climbing -/

/-- `m` lies strictly below `n`: climbing from `m` comes to `n`. -/
def Below (d : Document) (m n : Nat) : Prop :=
  Relation.TransGen (fun x y => d.parent? x = some y) m n

theorem below_of_parent? (h : d.parent? m = some n) : d.Below m n := .single h

theorem Below.trans (h : d.Below m n) (h' : d.Below n p) : d.Below m p := Relation.TransGen.trans h h'

/-- The climb begins with the parent. -/
theorem below_iff : d.Below m n ↔ ∃ p, d.parent? m = some p ∧ (p = n ∨ d.Below p n) := by
  refine Relation.TransGen.head'_iff.trans (exists_congr fun p => and_congr_right fun _ => ?_)
  rw [Relation.reflTransGen_iff_eq_or_transGen, eq_comm]
  rfl

/-- Above a node there is its parent, and what is above the parent. -/
theorem Below.eq_or_of_parent? (h : d.Below m n) (hp : d.parent? m = some p) :
    p = n ∨ d.Below p n := by
  obtain ⟨q, hq, hqn⟩ := below_iff.1 h
  obtain rfl : q = p := Option.some.inj (hq.symm.trans hp)
  exact hqn

/-- Below a parent there is what is below its child, and the child. -/
theorem Below.of_parent? (h : d.Below m n) (hp : d.parent? n = some p) : d.Below m p :=
  h.trans (below_of_parent? hp)

/-- **Numbers grow downwards**, so nothing is below itself. -/
theorem Below.lt (h : d.Below m n) : n < m := by
  induction h with
  | single hm => exact parent?_lt hm
  | tail _ hm ih => exact (parent?_lt hm).trans ih

theorem Below.asymm (h : d.Below m n) : ¬ d.Below n m := fun h' => Nat.lt_asymm h.lt h'.lt

/-- What is below a node is an element. -/
theorem Below.contains (h : d.Below m n) : d.contains m = true := by
  obtain ⟨p, hp, -⟩ := below_iff.1 h
  exact contains_of_parent? hp

/-- A parent is there. -/
theorem hasNode_of_parent? (h : d.parent? n = some p) : d.hasNode p = true := by
  have hlt : p < n := parent?_lt h
  have hle : n ≤ d.size := (contains_eq_true_iff.1 (contains_of_parent? h)).2
  exact decide_eq_true (by omega)

/-- The parent of an element, unless that is the root. -/
theorem parentElement?_eq_some_iff :
    d.parentElement? n = some p ↔ d.parent? n = some p ∧ p ≠ root := by
  simp [parentElement?, Option.filter_eq_some_iff]

theorem contains_of_parentElement? (h : d.parentElement? n = some p) : d.contains p = true := by
  obtain ⟨hp, hroot⟩ := parentElement?_eq_some_iff.1 h
  exact (eq_root_or_contains (hasNode_of_parent? hp)).resolve_left hroot

/-- Two climbs from one node are the same as far as both go. -/
theorem Below.total (h : d.Below m n) (h' : d.Below m p) : n = p ∨ d.Below n p ∨ d.Below p n := by
  have hone : Relator.RightUnique fun x y => d.parent? x = some y := fun x y z hy hz =>
    Option.some.inj (hy.symm.trans hz)
  have hboth := Relation.ReflTransGen.total_of_right_unique hone h.to_reflTransGen h'.to_reflTransGen
  rw [Relation.reflTransGen_iff_eq_or_transGen, Relation.reflTransGen_iff_eq_or_transGen] at hboth
  rcases hboth with (rfl | hn) | (rfl | hp)
  · exact .inl rfl
  · exact .inr (.inl hn)
  · exact .inl rfl
  · exact .inr (.inr hp)

theorem ancestors_of_parent?_none (h : d.parent? n = none) : d.ancestors n = [] := by
  rw [ancestors]
  split
  · rfl
  · next p hp => exact absurd (hp.symm.trans h) (Option.some_ne_none p)

/-- Above a node there is its parent, and what is above that. -/
theorem ancestors_of_parent? (h : d.parent? n = some p) : d.ancestors n = p :: d.ancestors p := by
  rw [ancestors]
  split
  · next hn => exact absurd (h.symm.trans hn) (Option.some_ne_none p)
  · next q hq => rw [Option.some.inj (hq.symm.trans h)]

/-- The nodes above a node are those that it lies below. -/
theorem mem_ancestors_iff : n ∈ d.ancestors m ↔ d.Below m n := by
  induction m using Nat.strong_induction_on with
  | _ m ih =>
    rw [below_iff]
    cases hm : d.parent? m with
    | none => simp [ancestors_of_parent?_none hm]
    | some p =>
      rw [ancestors_of_parent? hm, List.mem_cons, ih p (parent?_lt hm)]
      simp [eq_comm]

instance : Decidable (d.Below m n) := decidable_of_iff _ mem_ancestors_iff

/-- Every climb is over after as many steps as the number of the node says, and one more. -/
theorem iterate_parent?_eq_none (d : Document) (n : Nat) :
    (fun x => x.bind d.parent?)^[n + 1] (some n) = none := by
  have hnone (k : Nat) : (fun x => x.bind d.parent?)^[k] none = none :=
    Function.iterate_fixed rfl k
  induction n using Nat.strong_induction_on with
  | _ n ih =>
    rw [Function.iterate_succ_apply, Option.bind_some]
    cases hp : d.parent? n with
    | none => exact hnone n
    | some p =>
      have hlt : p < n := parent?_lt hp
      obtain ⟨k, rfl⟩ : ∃ k, n = k + (p + 1) := ⟨n - (p + 1), by omega⟩
      rw [Function.iterate_add_apply, ih p hlt, hnone]

/-- Every element lies below the root, and nothing else does. -/
theorem below_root_iff : d.Below n root ↔ d.contains n = true := by
  refine ⟨Below.contains, ?_⟩
  induction n using Nat.strong_induction_on with
  | _ n ih =>
    intro h
    obtain ⟨hpos, hn⟩ := contains_eq_true_iff.1 h
    obtain ⟨p, hlt, hp⟩ := exists_parent? hpos hn
    rcases Nat.eq_zero_or_pos p with rfl | hppos
    · exact below_of_parent? hp
    · exact (below_of_parent? hp).trans (ih p hlt (contains_eq_true_iff.2 ⟨hppos, by omega⟩))

/-! ## Descending -/

/-- Children come in the order in which they were made. -/
theorem pairwise_children (d : Document) (n : Nat) : (d.children n).Pairwise (· < ·) :=
  List.pairwise_lt_range.filter _

theorem nodup_children (d : Document) (n : Nat) : (d.children n).Nodup :=
  List.nodup_range.filter _

/-- The siblings of a node are the children of its parent but for itself. -/
theorem siblings_of_parent? (hp : d.parent? n = some p) :
    d.siblings n = (d.children p).erase n := by
  rw [siblings, hp, (d.nodup_children p).erase_eq_filter]
  refine List.filter_congr fun m _ => ?_
  by_cases hm : m = n <;> simp [hm]

/-- Siblings have the same parent. -/
theorem mem_siblings_iff :
    m ∈ d.siblings n ↔ m ≠ n ∧ ∃ p, d.parent? n = some p ∧ d.parent? m = some p := by
  cases hp : d.parent? n with
  | none => simp [siblings, hp]
  | some p =>
    rw [siblings_of_parent? hp, (d.nodup_children p).mem_erase_iff, mem_children]
    simp

theorem contains_of_mem_siblings (h : m ∈ d.siblings n) : d.contains m = true := by
  obtain ⟨-, p, -, hp⟩ := mem_siblings_iff.1 h
  exact contains_of_parent? hp

theorem nodup_siblings (d : Document) (n : Nat) : (d.siblings n).Nodup := by
  cases hp : d.parent? n with
  | none => simp [siblings, hp]
  | some p =>
    rw [siblings_of_parent? hp]
    exact (d.nodup_children p).erase n

/-- What is below a node: each child, followed by what is below it. -/
theorem descendants_eq (d : Document) (n : Nat) :
    d.descendants n = (d.children n).flatMap fun c => c :: d.descendants c := by
  rw [descendants, List.flatMap_subtype (g := fun c => c :: d.descendants c) fun _ _ => rfl,
    List.unattach_attach]

/-- Below a node there are its children and what is below these. -/
theorem mem_descendants :
    m ∈ d.descendants n ↔ ∃ c ∈ d.children n, m = c ∨ m ∈ d.descendants c := by
  rw [descendants_eq]
  simp

/-- What is below a node is what climbs to it. -/
theorem mem_descendants_iff : m ∈ d.descendants n ↔ d.Below m n := by
  constructor
  · intro h
    induction n using descendants.induct d with
    | case1 n ih =>
      obtain ⟨c, hc, rfl | h⟩ := mem_descendants.1 h
      · exact below_of_parent? (mem_children.1 hc)
      · exact (ih ⟨c, hc⟩ h).of_parent? (mem_children.1 hc)
  · intro h
    induction h with
    | single hm => exact mem_descendants.2 ⟨m, mem_children.2 hm, .inl rfl⟩
    | tail _ hc ih => exact mem_descendants.2 ⟨_, mem_children.2 hc, .inr ih⟩

theorem contains_of_mem_descendants (n : Nat) (h : m ∈ d.descendants n) : d.contains m = true :=
  (mem_descendants_iff.1 h).contains

end Document

end TreeRules
