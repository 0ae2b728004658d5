import TreeRules.Table
import TreeRules.Text.Blank

/-!
# Document/Basic — element trees

A document is the list of its elements, each naming its parent; the root is node `0` and the `k`-th
element is node `k`.  A parent stands before its children, so climbing ends at the root.  Children
are the later nodes that name a node as their parent: they come in increasing order, once each, and
adding elements at the end moves nothing.
-/

namespace TreeRules

/-- How a node is named in messages. -/
def nodeText (n : Nat) : String := "#" ++ toString n

/-- An element in its tree. -/
structure Element where
  tag : String
  id : Option String
  classes : List String
  attributes : Table String
  value : String
  parent : Nat

/-- Elements after a root that has no tag and nothing else but a value. -/
structure Document where
  elements : Array Element
  rootValue : String
  parent_le : ∀ (i : Nat) (h : i < elements.size), elements[i].parent ≤ i

namespace Document

def empty : Document := ⟨#[], "", fun _ h => absurd h (by simp)⟩

instance : Inhabited Document := ⟨empty⟩

/-- The number of elements; the root is not one. -/
def size (d : Document) : Nat := d.elements.size

def root : Nat := 0

/-- Whether a node is there at all, as an element or as the root. -/
def hasNode (d : Document) (n : Nat) : Bool := decide (n ≤ d.size)

/-- Whether a node is an element. -/
def contains (d : Document) (n : Nat) : Bool := decide (n ≠ root) && d.hasNode n

def element? (d : Document) (n : Nat) : Option Element :=
  match n with
  | 0 => none
  | i + 1 => d.elements[i]?

theorem element?_eq_some_iff {d : Document} {n : Nat} {e : Element} :
    d.element? n = some e ↔ ∃ i, n = i + 1 ∧ ∃ h : i < d.size, d.elements[i] = e := by
  cases n with
  | zero => simp [element?]
  | succ i => simp [element?, size, Array.getElem?_eq_some_iff]

/-- The elements are the nodes that have something to look at. -/
theorem contains_iff (d : Document) (n : Nat) :
    d.contains n = true ↔ (d.element? n).isSome = true := by
  cases n with
  | zero => simp [contains, root, element?]
  | succ i =>
    simp only [contains, root, hasNode, size, element?, isSome_getElem?, Bool.and_eq_true]
    exact ⟨fun h => of_decide_eq_true h.2, fun h => ⟨rfl, decide_eq_true h⟩⟩

/-! ## Climbing -/

/-- The parent of an element, which may be the root; the root has none. -/
def parent? (d : Document) (n : Nat) : Option Nat := (d.element? n).map (·.parent)

theorem parent?_lt {d : Document} {n p : Nat} (h : d.parent? n = some p) : p < n := by
  simp only [parent?, Option.map_eq_some_iff] at h
  obtain ⟨e, he, rfl⟩ := h
  obtain ⟨i, rfl, hi, rfl⟩ := element?_eq_some_iff.1 he
  exact Nat.lt_succ_of_le (d.parent_le i hi)

/-- The parent if it is an element. -/
def parentElement? (d : Document) (n : Nat) : Option Nat :=
  (d.parent? n).filter (· ≠ root)

/-- The nodes above a node, from its parent to the root. -/
def ancestors (d : Document) (n : Nat) : List Nat :=
  match _h : d.parent? n with
  | none => []
  | some p => p :: d.ancestors p
termination_by n
decreasing_by exact parent?_lt _h

/-! ## Descending -/

/-- The elements whose parent is `n`, in increasing order. -/
def children (d : Document) (n : Nat) : List Nat :=
  (List.range (d.size + 1)).filter fun m => d.parent? m == some n

theorem mem_children {d : Document} {n m : Nat} :
    m ∈ d.children n ↔ d.parent? m = some n := by
  simp only [children, List.mem_filter, List.mem_range, beq_iff_eq, and_iff_right_iff_imp]
  intro h
  simp only [parent?, Option.map_eq_some_iff] at h
  obtain ⟨e, he, -⟩ := h
  obtain ⟨i, rfl, hi, -⟩ := element?_eq_some_iff.1 he
  omega

theorem lt_of_mem_children {d : Document} {n m : Nat} (h : m ∈ d.children n) :
    n < m ∧ m ≤ d.size := by
  refine ⟨parent?_lt (mem_children.1 h), ?_⟩
  simp only [children, List.mem_filter, List.mem_range] at h
  omega

/-- The nodes below a node: each child, followed by what is below it. -/
def descendants (d : Document) (n : Nat) : List Nat :=
  (d.children n).attach.flatMap fun c => c.1 :: d.descendants c.1
termination_by d.size - n
decreasing_by
  have := lt_of_mem_children c.2
  omega

/-- The other elements with the same parent, in order; the root has none. -/
def siblings (d : Document) (n : Nat) : List Nat :=
  match d.parent? n with
  | some p => (d.children p).filter (· ≠ n)
  | none => []

/-! ## What a node shows -/

def tag? (d : Document) (n : Nat) : Option String := (d.element? n).map (·.tag)

/-- The value of a node; a node that is not there has the empty one. -/
def value (d : Document) (n : Nat) : String :=
  match n with
  | 0 => d.rootValue
  | _ => ((d.element? n).map (·.value)).getD ""

/-- An attribute as a selector sees it: `id` is the identifier of the element, `class` its classes
if it has any. -/
def attribute? (d : Document) (n : Nat) (name : String) : Option String :=
  (d.element? n).bind fun e =>
    if name = "id" then e.id
    else if name = "class" && !e.classes.isEmpty then some (String.intercalate " " e.classes)
    else e.attributes.get? name

def hasClass (d : Document) (n : Nat) (name : String) : Bool :=
  ((d.element? n).map fun e => e.classes.contains name).getD false

/-- The tag, then the identifier after a hash and each class after a point. -/
def Element.describe (e : Element) : String :=
  e.tag ++ (match e.id with | some id => "#" ++ id | none => "") ++
    String.join (e.classes.map ("." ++ ·))

def describe (d : Document) (n : Nat) : String :=
  match n with
  | 0 => "#document"
  | _ =>
    match d.element? n with
    | some e => Element.describe e
    | none => "<unknown " ++ nodeText n ++ ">"

end Document

end TreeRules
