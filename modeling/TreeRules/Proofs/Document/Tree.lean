import TreeRules.Proofs.Document.Arena
import TreeRules.Proofs.Document.Query

/-!
# Proofs/Document/Tree — links up and down are those of one tree

Every element has one parent, with a smaller number, and stands once among the children of that
parent and of no other node.  So climbing ends at the root, siblings are the other children of the
parent, and what is found below a node is what climbs to it (`Document.IsTree`) — in every document
that is built from descriptions and then appended to and changed (`Document.isTree_afterAll`).
-/

namespace TreeRules

namespace Document

variable {d : Document} {n m p : Nat}

/-! ## Links -/

/-- Climbing from a node ends at the root, in no more steps than the number of the node. -/
theorem exists_climb (n : Nat) (hn : n ≤ d.size) :
    ∃ k ≤ n, (fun x => x.bind d.parent?)^[k] (some n) = some root := by
  induction n using Nat.strong_induction_on with
  | _ n ih =>
    rcases Nat.eq_zero_or_pos n with rfl | hpos
    · exact ⟨0, Nat.le_refl 0, rfl⟩
    · obtain ⟨p, hlt, hp⟩ := exists_parent? hpos hn
      obtain ⟨k, hk, hclimb⟩ := ih p hlt (by omega)
      refine ⟨k + 1, by omega, ?_⟩
      rw [Function.iterate_succ_apply, Option.bind_some, hp, hclimb]

/-! ## Below an element -/

/-- Between an element and what is below it there is no root. -/
theorem transGen_parentElement?_iff (hn : n ≠ root) :
    Relation.TransGen (fun x y => d.parentElement? x = some y) m n ↔ d.Below m n := by
  constructor
  · intro h
    exact Relation.TransGen.mono (fun x y hxy => (parentElement?_eq_some_iff.1 hxy).1) m n h
  · intro h
    induction h using Relation.TransGen.head_induction_on with
    | single hx => exact .single (parentElement?_eq_some_iff.2 ⟨hx, hn⟩)
    | @head x y hx hy ih =>
      -- the climb goes on from `y`, and nothing is above the root
      have hroot : y ≠ root := by
        rintro rfl
        obtain ⟨z, hz, -⟩ := Relation.TransGen.head'_iff.1 hy
        exact absurd hz (Option.some_ne_none z).symm
      exact .head (parentElement?_eq_some_iff.2 ⟨hx, hroot⟩) ih

/-! ## Trees -/

/-- The links up and down are those of one tree, with the root at `0` and every element after its
parent. -/
structure IsTree (d : Document) : Prop where
  /-- The root is no element, and nothing is above it. -/
  root : d.tag? root = none ∧ d.parent? root = none
  /-- Every element has a parent before it, and stands there once and nowhere else. -/
  element : ∀ n, 0 < n → n ≤ d.size → (∃ tag, d.tag? n = some tag) ∧
    ∃ p < n, d.parent? n = some p ∧ (d.children p).count n = 1 ∧ ∀ q, n ∈ d.children q → q = p
  /-- Children are in increasing order, and there. -/
  children : ∀ n, (d.children n).Pairwise (· < ·) ∧ ∀ m ∈ d.children n, d.contains m = true
  /-- Climbing from a node ends at the root, in no more steps than its number. -/
  climb : ∀ n ≤ d.size, ∃ k ≤ n, (fun x => x.bind d.parent?)^[k] (some n) = some Document.root
  /-- Siblings are siblings of each other, and none is its own. -/
  symmetric : ∀ n m, m ∈ d.siblings n ↔ n ∈ d.siblings m
  irreflexive : ∀ n, n ∉ d.siblings n
  /-- They are listed as the children of their parent are, each once. -/
  ordered : ∀ n p, d.parent? n = some p → (d.siblings n).Sublist (d.children p)
  nodup : ∀ n, (d.siblings n).Nodup
  /-- What a star finds below an element is what comes to it from parent to parent. -/
  below : ∀ a, d.contains a = true → ∃ found, d.query a "*" = .ok found ∧
    ∀ b, b ∈ found ↔ Relation.TransGen (fun x y => d.parentElement? x = some y) b a

/-- Every document is a tree. -/
theorem isTree (d : Document) : d.IsTree where
  root := ⟨rfl, rfl⟩
  element n hpos hn := by
    obtain ⟨p, hlt, hp⟩ := exists_parent? hpos hn
    obtain ⟨e, he, -⟩ := Option.map_eq_some_iff.1 hp
    have hmem : n ∈ d.children p := mem_children.2 hp
    refine ⟨⟨e.tag, by rw [tag?, he, Option.map_some]⟩, p, hlt, hp,
      List.count_eq_one_of_mem (d.nodup_children p) hmem, fun q hq => ?_⟩
    exact Option.some.inj ((mem_children.1 hq).symm.trans hp)
  children n := ⟨d.pairwise_children n, fun m hm => contains_of_mem_children hm⟩
  climb n hn := exists_climb n hn
  symmetric n m := by
    rw [mem_siblings_iff, mem_siblings_iff, ne_comm]
    exact and_congr_right fun _ => exists_congr fun p => and_comm
  irreflexive n hn := (mem_siblings_iff.1 hn).1 rfl
  ordered n p hp := siblings_of_parent? hp ▸ List.erase_sublist
  nodup n := d.nodup_siblings n
  below a ha := by
    have hroot : a ≠ Document.root ∧ d.hasNode a = true := by
      simpa only [contains, Bool.and_eq_true, decide_eq_true_eq] using ha
    refine ⟨d.descendants a, query_star hroot.2, fun b => ?_⟩
    rw [mem_descendants_iff, transGen_parentElement?_iff hroot.1]

/-- **Documents stay trees.**  Built from descriptions — from none, the empty document — and then
changed by any operations, appending under a node that is not there among them, a document links its
nodes up and down as one tree.  It shows at every node what the arena does that keeps both links and
is built and changed in the same way. -/
theorem isTree_afterAll (specs : List ElementSpec) (ops : List Operation) :
    let d := (ofSpecs specs).afterAll ops
    d.IsTree ∧ (Arena.ofSpecs specs).afterAll ops = d.arena := by
  intro d
  refine ⟨d.isTree, ?_⟩
  rw [arena_ofSpecs, afterAll_arena]

end Document

end TreeRules
