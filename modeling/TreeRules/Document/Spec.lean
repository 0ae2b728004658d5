import TreeRules.Document.Basic

/-!
# Document/Spec — trees of element descriptions, and the documents they build

An `ElementSpec` describes an element with everything below it.  `place` lists the elements of a
description depth first, numbered from a given node on, so a document is built and extended by
concatenation alone.
-/

namespace TreeRules

/-- The description of an element and its children. -/
structure ElementSpec where
  tag : String
  id : Option String
  classText : Option String
  attributes : Table String
  value : String
  children : List ElementSpec

namespace ElementSpec

/-! ## Building descriptions -/

def ofTag (tag : String) : ElementSpec := ⟨tag, none, none, .empty, "", []⟩

def withId (s : ElementSpec) (id : String) : ElementSpec := { s with id := some id }

/-- More class text goes behind what is there, after a blank. -/
def withClass (s : ElementSpec) (text : String) : ElementSpec :=
  { s with classText := some (match s.classText with
      | some t => t ++ " " ++ text
      | none => text) }

def withAttribute (s : ElementSpec) (name value : String) : ElementSpec :=
  { s with attributes := s.attributes.insert name value }

def withValue (s : ElementSpec) (value : String) : ElementSpec := { s with value := value }

def withChildren (s : ElementSpec) (children : List ElementSpec) : ElementSpec :=
  { s with children := s.children ++ children }

/-! ## Placing a description in a tree -/

/-- The element itself: the tag in lower case, an empty identifier dropped, the class text split at
its blanks. -/
def element (s : ElementSpec) (parent : Nat) : Element where
  tag := s.tag.toLower
  id := s.id.filter (· ≠ "")
  classes := wordsOf (s.classText.getD "")
  attributes := s.attributes
  value := s.value
  parent := parent

mutual

/-- The elements of a description under `parent`, depth first, the first of them node `next`. -/
def place (parent next : Nat) : ElementSpec → List Element
  | ⟨tag, id, classText, attributes, value, children⟩ =>
    element ⟨tag, id, classText, attributes, value, []⟩ parent ::
      placeAll next (next + 1) children

/-- The same for descriptions one after the other. -/
def placeAll (parent next : Nat) : List ElementSpec → List Element
  | [] => []
  | s :: rest =>
    let placed := place parent next s
    placed ++ placeAll parent (next + placed.length) rest

end

mutual

/-- An element stands after its parent. -/
theorem parent_lt_of_place : ∀ (s : ElementSpec) (parent next : Nat), parent < next →
    ∀ (i : Nat) (h : i < (place parent next s).length), (place parent next s)[i].parent < next + i
  | ⟨tag, id, classText, attributes, value, children⟩, parent, next, hp, i, h => by
    cases i with
    | zero => simpa [place, element] using hp
    | succ i =>
      have h' : i < (placeAll next (next + 1) children).length := by simpa [place] using h
      have := parent_lt_of_placeAll children next (next + 1) (Nat.lt_succ_self _) i h'
      simp only [place, List.getElem_cons_succ]
      omega

theorem parent_lt_of_placeAll : ∀ (ss : List ElementSpec) (parent next : Nat), parent < next →
    ∀ (i : Nat) (h : i < (placeAll parent next ss).length),
      (placeAll parent next ss)[i].parent < next + i
  | [], _, _, _, _, h => by simp [placeAll] at h
  | s :: rest, parent, next, hp, i, h => by
    simp only [placeAll, List.getElem_append]
    split
    · exact parent_lt_of_place s parent next hp i _
    · next hi =>
      have hi := Nat.le_of_not_lt hi
      have := parent_lt_of_placeAll rest parent (next + (place parent next s).length)
        (by omega) (i - (place parent next s).length) (by
          simp only [placeAll, List.length_append] at h
          omega)
      omega

end

end ElementSpec

namespace Document

/-! ## Building and changing documents -/

theorem parent_le_append (d : Document) {es : List Element}
    (h : ∀ (i : Nat) (hi : i < es.length), es[i].parent ≤ d.size + i)
    (i : Nat) (hi : i < (d.elements ++ es.toArray).size) :
    (d.elements ++ es.toArray)[i].parent ≤ i := by
  rw [Array.getElem_append]
  split
  · exact d.parent_le i _
  · next hlt =>
    simp only [Array.size_append, List.size_toArray] at hi
    have := h (i - d.elements.size) (by omega)
    simp only [List.getElem_toArray, size] at this ⊢
    omega

/-- A document with more elements at the end, each after its parent. -/
def extend (d : Document) (es : List Element)
    (h : ∀ (i : Nat) (hi : i < es.length), es[i].parent ≤ d.size + i) : Document where
  elements := d.elements ++ es.toArray
  rootValue := d.rootValue
  parent_le := d.parent_le_append h

/-- The document of a forest of descriptions. -/
def ofSpecs (specs : List ElementSpec) : Document :=
  empty.extend (ElementSpec.placeAll root 1 specs) fun i hi => by
    have := ElementSpec.parent_lt_of_placeAll specs root 1 (by simp [root]) i hi
    simp only [size, empty, List.size_toArray, List.length_nil]
    omega

/-- A description placed under a node, and the number its top gets; none if that node is missing. -/
def append? (d : Document) (parent : Nat) (spec : ElementSpec) : Option (Document × Nat) :=
  if h : parent ≤ d.size then
    some (d.extend (spec.place parent (d.size + 1)) fun i hi => by
      have := spec.parent_lt_of_place parent (d.size + 1) (by omega) i hi
      omega, d.size + 1)
  else none

/-- The value of one node replaced; none if the node is missing. -/
def setValue? (d : Document) (n : Nat) (value : String) : Option Document :=
  match n with
  | 0 => some { d with rootValue := value }
  | i + 1 =>
    if h : i < d.elements.size then
      some {
        elements := d.elements.set i { d.elements[i] with value := value }
        rootValue := d.rootValue
        parent_le := fun j hj => by
          rw [Array.getElem_set]
          split
          · next hij => subst hij; exact d.parent_le i h
          · exact d.parent_le j _ }
    else none

end Document

end TreeRules
