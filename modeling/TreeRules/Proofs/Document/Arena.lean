import TreeRules.Proofs.Engine.Session

/-!
# Proofs/Document/Arena — nodes that keep their children

A document knows the parent of each element and computes children from parents.  An arena keeps the
links in both directions: a new node is pushed at the end, its number goes behind the children of
its parent, and then the nodes below it are inserted in the same way.  Whatever is built and changed
like this is the arena of the document that is built and changed alongside
(`Document.afterAll_arena`), so what a document computes is what an arena would have kept.

One link is the whole argument (`Document.link_arena`): the elements of a description are placed
in the order in which they are linked.
-/

namespace TreeRules

/-! ## Arenas -/

/-- A node with what it shows and its links up and down. -/
structure LinkedNode where
  tag : Option String
  id : Option String
  classes : List String
  attributes : Table String
  value : String
  parent : Option Nat
  children : List Nat

namespace LinkedNode

/-- A root with nothing below it. -/
def root : LinkedNode := ⟨none, none, [], .empty, "", none, []⟩

/-- An element with nothing below it. -/
def ofElement (e : Element) : LinkedNode :=
  ⟨some e.tag, e.id, e.classes, e.attributes, e.value, some e.parent, []⟩

/-- One more child, the last. -/
def withChild (node : LinkedNode) (child : Nat) : LinkedNode :=
  { node with children := node.children ++ [child] }

end LinkedNode

/-- Nodes under their numbers, the root first. -/
@[ext]
structure Arena where
  nodes : Array LinkedNode

namespace Arena

def empty : Arena := ⟨#[.root]⟩

/-- An element pushed at the end and entered with its parent. -/
def link (a : Arena) (e : Element) : Arena :=
  ⟨(a.nodes.push (.ofElement e)).modify e.parent (·.withChild a.nodes.size)⟩

mutual

/-- The element of a description linked, and then what is below it. -/
def insert (parent : Nat) : ElementSpec → Arena → Arena
  | ⟨tag, id, classText, attributes, value, children⟩, a =>
    insertAll a.nodes.size children
      (a.link (ElementSpec.element ⟨tag, id, classText, attributes, value, []⟩ parent))

/-- The same for descriptions one after the other. -/
def insertAll (parent : Nat) : List ElementSpec → Arena → Arena
  | [], a => a
  | s :: rest, a => insertAll parent rest (insert parent s a)

end

def ofSpecs (specs : List ElementSpec) : Arena := insertAll Document.root specs empty

/-- The arena after one operation; a node that is not there is neither appended to nor set. -/
def next (a : Arena) : Operation → Arena
  | .append parent spec => if parent < a.nodes.size then insert parent spec a else a
  | .setValue n value => ⟨a.nodes.modify n fun node => { node with value }⟩
  | _ => a

/-- The arena after a run. -/
def afterAll (a : Arena) (ops : List Operation) : Arena := ops.foldl next a

end Arena

namespace Document

/-! ## Elements at the end -/

/-- Elements that can stand at the end, each after its parent. -/
def Follows (d : Document) (es : List Element) : Prop :=
  ∀ (i : Nat) (hi : i < es.length), es[i].parent ≤ d.size + i

variable {d : Document} {e : Element} {es fs : List Element}

@[simp] theorem size_extend (h : d.Follows es) : (d.extend es h).size = d.size + es.length := by
  simp [extend, size]

theorem extend_nil (h : d.Follows []) : d.extend [] h = d := by
  simp [extend]

theorem Follows.left (h : d.Follows (es ++ fs)) : d.Follows es := fun i hi => by
  have hi' : i < (es ++ fs).length := by
    rw [List.length_append]
    omega
  have hle := h i hi'
  rwa [List.getElem_append_left hi] at hle

theorem Follows.right (h : d.Follows (es ++ fs)) : (d.extend es h.left).Follows fs := fun i hi => by
  have hle := h (es.length + i) (by rw [List.length_append]; omega)
  rw [List.getElem_append_right (by omega)] at hle
  simp only [Nat.add_sub_cancel_left] at hle
  rw [size_extend]
  omega

/-- Elements at the end, and then more of them. -/
theorem extend_append (h : d.Follows (es ++ fs)) :
    d.extend (es ++ fs) h = (d.extend es h.left).extend fs h.right := by
  simp [extend, Array.append_assoc]

theorem Follows.parent_le (h : d.Follows [e]) : e.parent ≤ d.size := h 0 Nat.zero_lt_one

section Last

variable (h : d.Follows [e])

theorem element?_extend_singleton (n : Nat) :
    (d.extend [e] h).element? n = if n = d.size + 1 then some e else d.element? n := by
  cases n with
  | zero => rfl
  | succ i =>
    simp only [element?, extend, size, Nat.add_right_cancel_iff]
    exact Array.getElem?_push

theorem parent?_extend_singleton (n : Nat) :
    (d.extend [e] h).parent? n = if n = d.size + 1 then some e.parent else d.parent? n := by
  rw [parent?, element?_extend_singleton]
  split <;> rfl

/-- A new element is the last child of its parent, and no other node has more children by it. -/
theorem children_extend_singleton (n : Nat) :
    (d.extend [e] h).children n =
      if e.parent = n then d.children n ++ [d.size + 1] else d.children n := by
  have hold : (List.range (d.size + 1)).filter
      (fun m => (d.extend [e] h).parent? m == some n) = d.children n :=
    List.filter_congr fun m hm => by
      have hlt : m < d.size + 1 := List.mem_range.1 hm
      rw [parent?_extend_singleton, if_neg (by omega)]
  have hnew : ((d.extend [e] h).parent? (d.size + 1) == some n) = (e.parent == n) := by
    rw [parent?_extend_singleton, if_pos rfl, Option.some_beq_some]
  rw [children, size_extend, List.length_singleton, List.range_succ, List.filter_append, hold,
    List.filter_cons, hnew]
  by_cases hn : e.parent = n
  · rw [if_pos hn, if_pos (beq_iff_eq.2 hn), List.filter_nil]
  · rw [if_neg hn, if_neg (mt beq_iff_eq.1 hn), List.filter_nil, List.append_nil]

end Last

/-! ## The arena of a document -/

/-- All that a node shows, with its links up and down. -/
def linkedNode (d : Document) (n : Nat) : LinkedNode where
  tag := d.tag? n
  id := (d.element? n).bind (·.id)
  classes := ((d.element? n).map (·.classes)).getD []
  attributes := ((d.element? n).map (·.attributes)).getD .empty
  value := d.value n
  parent := d.parent? n
  children := d.children n

/-- The nodes of a document. -/
def arena (d : Document) : Arena := ⟨Array.ofFn fun i : Fin (d.size + 1) => d.linkedNode i⟩

@[simp] theorem size_arena (d : Document) : d.arena.nodes.size = d.size + 1 := by
  simp [arena]

theorem getElem_arena (d : Document) {n : Nat} (h : n < d.arena.nodes.size) :
    d.arena.nodes[n] = d.linkedNode n := by
  simp [arena]

/-- An arena is that of a document if it is as large and shows the same everywhere. -/
theorem eq_arena {a : Arena} (hsize : a.nodes.size = d.size + 1)
    (hnodes : ∀ (n : Nat) (h : n < a.nodes.size), a.nodes[n] = d.linkedNode n) : a = d.arena := by
  refine Arena.ext (Array.ext (by rw [hsize, size_arena]) fun n h h' => ?_)
  rw [hnodes n h, getElem_arena]

/-- The value of a node is that of its element, or of the document if it is the root. -/
theorem value_congr {d' : Document} {n : Nat} (hroot : d'.rootValue = d.rootValue)
    (he : d'.element? n = d.element? n) : d'.value n = d.value n := by
  cases n with
  | zero => exact hroot
  | succ i => simp only [value, he]

theorem linkedNode_extend_last (h : d.Follows [e]) :
    (d.extend [e] h).linkedNode (d.size + 1) = .ofElement e := by
  have he : (d.extend [e] h).element? (d.size + 1) = some e := by
    rw [element?_extend_singleton, if_pos rfl]
  have hchildren : (d.extend [e] h).children (d.size + 1) = [] := by
    refine List.eq_nil_iff_forall_not_mem.2 fun m hm => ?_
    have hlt := lt_of_mem_children hm
    rw [size_extend, List.length_singleton] at hlt
    omega
  simp [linkedNode, LinkedNode.ofElement, tag?, value, parent?, he, hchildren]

theorem linkedNode_extend_of_le (h : d.Follows [e]) {n : Nat} (hn : n ≤ d.size) :
    (d.extend [e] h).linkedNode n =
      if e.parent = n then (d.linkedNode n).withChild (d.size + 1) else d.linkedNode n := by
  have he : (d.extend [e] h).element? n = d.element? n := by
    rw [element?_extend_singleton, if_neg (by omega)]
  have hvalue : (d.extend [e] h).value n = d.value n := value_congr rfl he
  rw [linkedNode, tag?, parent?, he, hvalue, children_extend_singleton]
  split <;> rfl

/-- **One link**: pushing an element and entering it with its parent is placing it at the end. -/
theorem link_arena (h : d.Follows [e]) : d.arena.link e = (d.extend [e] h).arena := by
  refine eq_arena (by simp [Arena.link]) fun n hn => ?_
  have hp : e.parent ≤ d.size := h.parent_le
  have hle : n ≤ d.size + 1 := by
    simp only [Arena.link, Array.size_modify, Array.size_push, size_arena] at hn
    omega
  simp only [Arena.link, Array.getElem_modify, Array.getElem_push, size_arena]
  -- an old node may have one more child, and the last node is the new one
  rcases Nat.lt_or_eq_of_le hle with hlt | rfl
  · simp only [dif_pos hlt, getElem_arena, linkedNode_extend_of_le h (Nat.le_of_lt_succ hlt)]
  · rw [linkedNode_extend_last, if_neg (by omega), dif_neg (Nat.lt_irrefl _)]

/-! ## Insertion -/

open ElementSpec (place placeAll)

mutual

/-- Inserting a description is placing its elements at the end. -/
theorem insert_arena : ∀ (s : ElementSpec) (parent next : Nat) (d : Document)
    (h : d.Follows (place parent next s)), next = d.size + 1 →
    Arena.insert parent s d.arena = (d.extend (place parent next s) h).arena
  | ⟨tag, id, classText, attributes, value, children⟩, parent, next, d, h, hnext => by
    -- the element is one link, and what is below it starts from the document with that element
    have hfirst : d.Follows ([_] ++ placeAll next (next + 1) children) := h
    change Arena.insertAll d.arena.nodes.size children (d.arena.link _) =
      (d.extend ([_] ++ placeAll next (next + 1) children) hfirst).arena
    rw [extend_append, link_arena hfirst.left, size_arena, ← hnext]
    exact insertAll_arena children next (next + 1) _ hfirst.right (by
      rw [size_extend, List.length_singleton, hnext])

theorem insertAll_arena : ∀ (ss : List ElementSpec) (parent next : Nat) (d : Document)
    (h : d.Follows (placeAll parent next ss)), next = d.size + 1 →
    Arena.insertAll parent ss d.arena = (d.extend (placeAll parent next ss) h).arena
  | [], parent, next, d, h, _ => by
    have hnone : d.Follows [] := h
    exact congrArg arena (extend_nil hnone).symm
  | s :: rest, parent, next, d, h, hnext => by
    have hboth : d.Follows (place parent next s ++
      placeAll parent (next + (place parent next s).length) rest) := h
    change Arena.insertAll parent rest (Arena.insert parent s d.arena) =
      (d.extend (place parent next s ++ _) hboth).arena
    rw [extend_append, insert_arena s parent next d hboth.left hnext]
    exact insertAll_arena rest parent _ _ hboth.right (by rw [size_extend, hnext]; omega)

end

/-! ## Histories -/

theorem arena_empty : empty.arena = .empty := by
  refine (eq_arena (d := empty) rfl fun n hn => ?_).symm
  obtain rfl : n = root := Nat.lt_one_iff.1 hn
  rfl

theorem arena_ofSpecs (specs : List ElementSpec) : Arena.ofSpecs specs = (ofSpecs specs).arena := by
  rw [Arena.ofSpecs, ← arena_empty]
  exact insertAll_arena specs root 1 empty _ rfl

theorem value_succ (d : Document) (i : Nat) :
    d.value (i + 1) = ((d.element? (i + 1)).map (·.value)).getD "" := rfl

/-- What there is once the value of a node is set: the same nodes, and only that value is new. -/
structure ValueSet (d d' : Document) (n : Nat) (value : String) : Prop where
  there : n ≤ d.size
  size : d'.size = d.size
  rootValue : d'.rootValue = if n = root then value else d.rootValue
  element? : ∀ m, d'.element? m =
    if n = m then (d.element? m).map ({ · with value }) else d.element? m

theorem valueSet_of_setValue? {d' : Document} {n : Nat} {value : String}
    (h : d.setValue? n value = some d') : ValueSet d d' n value := by
  cases n with
  | zero =>
    obtain rfl := Option.some.inj h
    refine ⟨Nat.zero_le _, rfl, rfl, fun m => ?_⟩
    split
    · next hm => subst hm; rfl
    · rfl
  | succ i =>
    rw [setValue?] at h
    split at h
    · next hi =>
      obtain rfl := Option.some.inj h
      refine ⟨hi, Array.size_set hi, rfl, fun m => ?_⟩
      cases m with
      | zero => rfl
      | succ j =>
        by_cases hij : i = j
        · subst hij
          simp [Document.element?, hi]
        · simp [Document.element?, hij]
    · exact absurd h (Option.some_ne_none d').symm

theorem lt_of_setValue?_eq_none {n : Nat} {value : String} (h : d.setValue? n value = none) :
    d.size < n := by
  cases n with
  | zero => exact absurd h (Option.some_ne_none _)
  | succ i =>
    rw [setValue?] at h
    split at h
    · exact absurd h (Option.some_ne_none _)
    · next hi => exact Nat.lt_succ_of_le (Nat.le_of_not_lt hi)

namespace ValueSet

variable {d' : Document} {n : Nat} {value : String} (h : ValueSet d d' n value)

include h

theorem parent? (m : Nat) : d'.parent? m = d.parent? m := by
  rw [Document.parent?, h.element?]
  split
  · rw [Option.map_map]
    rfl
  · rfl

theorem children (m : Nat) : d'.children m = d.children m := by
  rw [Document.children, h.size]
  exact List.filter_congr fun k _ => by rw [h.parent?]

theorem value_self : d'.value n = value := by
  cases n with
  | zero => exact h.rootValue
  | succ i =>
    have hi : i < d.elements.size := h.there
    have he : d'.element? (i + 1) = some { d.elements[i] with value } := by
      rw [h.element?, if_pos rfl, Document.element?, Array.getElem?_eq_getElem hi]
      rfl
    rw [value_succ, he]
    rfl

theorem value_of_ne {m : Nat} (hm : n ≠ m) : d'.value m = d.value m := by
  cases m with
  | zero => exact h.rootValue.trans (if_neg hm)
  | succ i => rw [value_succ, value_succ, h.element?, if_neg hm]

theorem linkedNode (m : Nat) :
    d'.linkedNode m = if n = m then { d.linkedNode m with value } else d.linkedNode m := by
  rw [Document.linkedNode, h.parent?, h.children]
  split
  · next hm =>
    subst hm
    rw [tag?, h.value_self, h.element?, if_pos rfl]
    cases hd : d.element? n with
    | none => simp [Document.linkedNode, tag?, hd]
    | some e => simp [Document.linkedNode, tag?, hd]
  · next hm =>
    rw [tag?, h.value_of_ne hm, h.element?, if_neg hm]
    rfl

end ValueSet

theorem next_arena (d : Document) (op : Operation) : d.arena.next op = (d.next op).arena := by
  cases op with
  | append parent spec =>
    simp only [Arena.next, next, append?, size_arena, Nat.lt_succ_iff]
    split
    · exact insert_arena spec parent (d.size + 1) d (fun i hi => by
        have hlt := spec.parent_lt_of_place parent (d.size + 1) (by omega) i hi
        omega) rfl
    · rfl
  | setValue n value =>
    have hsize : (d.arena.next (.setValue n value)).nodes.size = d.size + 1 := by
      simp [Arena.next]
    cases h : d.setValue? n value with
    | none =>
      have hn : d.size < n := lt_of_setValue?_eq_none h
      rw [next, h]
      refine eq_arena hsize fun m hm => ?_
      rw [hsize] at hm
      simp only [Arena.next, Array.getElem_modify, getElem_arena, Option.getD_none]
      rw [if_neg (by omega)]
    | some d' =>
      have hset : ValueSet d d' n value := valueSet_of_setValue? h
      rw [next, h]
      refine eq_arena (hsize.trans (congrArg (· + 1) hset.size.symm)) fun m hm => ?_
      simp only [Arena.next, Array.getElem_modify, getElem_arena, Option.getD_some]
      rw [hset.linkedNode]
  | _ => rfl

/-- **What a document computes is what an arena keeps**, however both are changed. -/
theorem afterAll_arena (d : Document) (ops : List Operation) :
    d.arena.afterAll ops = (d.afterAll ops).arena := by
  induction ops generalizing d with
  | nil => rfl
  | cons op ops ih =>
    rw [Arena.afterAll, afterAll, List.foldl_cons, List.foldl_cons, next_arena]
    exact ih (d.next op)

end Document

end TreeRules
