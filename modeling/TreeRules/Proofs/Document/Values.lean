import TreeRules.Path.Resolver
import TreeRules.Proofs.Document.Arena
import TreeRules.Proofs.Path.Steps
import TreeRules.Proofs.Selector.Seeing

/-!
# Proofs/Document/Values — values have no part in the tree

Setting values leaves the `SameTree`: as many elements, and each as it was but for its value
(`Document.sameTree_afterAll`).  Everything that asks a document for its structure is blind to
values.  Selectors see no values (`Document.SameTree.showsSame`), so queries are the same; a step of
a path is a question about parents, siblings and selectors, so what a path finds is the same
(`Document.SameTree.found`); and resolving is the same computation, with the same answers, the same
cache and the same notices (`Document.SameTree.resolver_resolve`).
-/

namespace TreeRules

/-- An element without its value. -/
def Element.bare (e : Element) : Element := { e with value := "" }

namespace Document

/-- The same elements, values aside. -/
structure SameTree (d d' : Document) : Prop where
  size : d'.size = d.size
  bare : ∀ n, (d'.element? n).map Element.bare = (d.element? n).map Element.bare

variable {d d' d'' : Document} {n : Nat} {value selector : String}

/-! ## Setting values -/

theorem SameTree.refl (d : Document) : SameTree d d := ⟨rfl, fun _ => rfl⟩

theorem SameTree.trans (h : SameTree d d') (h' : SameTree d' d'') : SameTree d d'' :=
  ⟨h'.size.trans h.size, fun n => (h'.bare n).trans (h.bare n)⟩

/-- A value that is set changes nothing but a value. -/
theorem ValueSet.sameTree (h : ValueSet d d' n value) : SameTree d d' := by
  refine ⟨h.size, fun m => ?_⟩
  rw [h.element?]
  split
  · rw [Option.map_map]
    rfl
  · rfl

/-- A value that is set, or that cannot be set because its node is missing. -/
theorem sameTree_next (d : Document) (n : Nat) (value : String) :
    SameTree d (d.next (.setValue n value)) := by
  rw [next]
  cases h : d.setValue? n value with
  | none => exact .refl d
  | some d' => exact (valueSet_of_setValue? h).sameTree

/-- The operations that set these values one after the other. -/
def settings (values : List (Nat × String)) : List Operation :=
  values.map fun (n, value) => .setValue n value

/-- **Setting values leaves the same tree.** -/
theorem sameTree_afterAll (d : Document) (values : List (Nat × String)) :
    SameTree d (d.afterAll (settings values)) := by
  induction values generalizing d with
  | nil => exact .refl d
  | cons first rest ih => exact (sameTree_next d first.1 first.2).trans (ih _)

/-! ## Nodes -/

/-- A node is described by its element, or by its number if it has none. -/
theorem describe_succ (d : Document) (i : Nat) : d.describe (i + 1) =
    ((d.element? (i + 1)).map Element.describe).getD ("<unknown " ++ nodeText (i + 1) ++ ">") := by
  cases he : d.element? (i + 1) <;> simp [describe, he]

namespace SameTree

/-- What is read of an element without its value. -/
theorem map_eq {α : Type} (h : SameTree d d') {f : Element → α} (hf : ∀ e, f e.bare = f e)
    (n : Nat) : (d'.element? n).map f = (d.element? n).map f := by
  have hbare : f ∘ Element.bare = f := funext hf
  rw [← hbare, ← Option.map_map, h.bare, Option.map_map]

/-- The same for something that not every element has. -/
theorem bind_eq {α : Type} (h : SameTree d d') {f : Element → Option α}
    (hf : ∀ e, f e.bare = f e) (n : Nat) : (d'.element? n).bind f = (d.element? n).bind f := by
  have hbare : f ∘ Element.bare = f := funext hf
  rw [← hbare, ← Option.bind_map, h.bare, Option.bind_map]

/-- There are as many nodes. -/
theorem hasNode (h : SameTree d d') : d'.hasNode = d.hasNode := by
  funext n
  rw [Document.hasNode, h.size, Document.hasNode]

theorem contains (h : SameTree d d') : d'.contains = d.contains := by
  funext n
  rw [Document.contains, h.hasNode, Document.contains]

/-- Each node has the same parent. -/
theorem parent? (h : SameTree d d') : d'.parent? = d.parent? :=
  funext (h.map_eq fun _ => rfl)

/-- And the same one among the elements, of which the root is none. -/
theorem parentElement? (h : SameTree d d') : d'.parentElement? = d.parentElement? := by
  funext n
  rw [Document.parentElement?, h.parent?, Document.parentElement?]

/-- Children are found by their parents. -/
theorem children (h : SameTree d d') : d'.children = d.children := by
  funext n
  rw [Document.children, h.size, h.parent?, Document.children]

/-- Siblings are the children of one parent. -/
theorem siblings (h : SameTree d d') : d'.siblings = d.siblings := by
  funext n
  rw [Document.siblings, h.parent?, h.children, Document.siblings]

/-- A description shows no value. -/
theorem describe (h : SameTree d d') : d'.describe = d.describe := by
  funext n
  cases n with
  | zero => rfl
  | succ i => rw [describe_succ, describe_succ, h.map_eq (f := Element.describe) fun _ => rfl]

/-- **A selector sees no values**: it asks for tags, attributes, classes and parents. -/
theorem showsSame (h : SameTree d d') : ShowsSame d d' fun _ => True where
  up _ _ _ _ := trivial
  parent? n _ := congrFun h.parent? n
  tag? n _ := h.map_eq (fun _ => rfl) n
  attribute? n _ _ := h.bind_eq (fun _ => rfl) n
  hasClass n _ _ := congrArg (·.getD false) (h.map_eq (fun _ => rfl) n)

/-- The nodes below a node come in the same order. -/
theorem descendants (h : SameTree d d') : d'.descendants = d.descendants := by
  funext n
  induction n using Document.descendants.induct d with
  | case1 n ih =>
    rw [descendants_eq, descendants_eq, h.children]
    exact List.flatMap_congr fun c hc => congrArg (c :: ·) (ih ⟨c, hc⟩)

/-! ## Selectors -/

/-- A query has the same errors: a selector that cannot be read, or a node that is missing. -/
theorem selectorFor (h : SameTree d d') : d'.selectorFor = d.selectorFor := by
  funext n selector
  rw [Document.selectorFor, h.hasNode, Document.selectorFor]

theorem matchesList (h : SameTree d d') (l : SelectorList) : l.matches d' = l.matches d :=
  funext fun _ => h.showsSame.matches l trivial

/-- **Queries are the same**, errors included. -/
theorem query (h : SameTree d d') : d'.query = d.query := by
  funext n selector
  rw [Document.query, h.selectorFor, h.descendants, Document.query]
  simp only [h.matchesList]

theorem «matches» (h : SameTree d d') : d'.matches = d.matches := by
  funext n selector
  rw [Document.matches, h.selectorFor, Document.matches]
  simp only [h.matchesList]

/-! ## Paths -/

/-- Going up from a node meets the same ancestors, and each of them matches as before. -/
theorem closest? (h : SameTree d d') (n : Nat) (selector : String) :
    d'.closest? n selector = d.closest? n selector := by
  induction n using Nat.strong_induction_on with
  | _ n ih =>
    cases hp : d.parentElement? n with
    | none =>
      rw [closest?_of_none hp, closest?_of_none ((congrFun h.parentElement? n).trans hp)]
    | some p =>
      have hlt : p < n := parent?_lt (parentElement?_eq_some_iff.1 hp).1
      rw [closest?_of_some hp, closest?_of_some ((congrFun h.parentElement? n).trans hp), h.matches,
        ih p hlt]

theorem filterMatching (h : SameTree d d') : d'.filterMatching = d.filterMatching := by
  funext selector ns
  rw [Document.filterMatching, h.matches, Document.filterMatching]

/-- **One step finds the same**, whatever its relation is. -/
theorem found (h : SameTree d d') : d'.found = d.found := by
  funext s n
  cases s with
  | descendant selector => rw [Document.found, h.query, Document.found]
  | relation r argument =>
    cases r <;> cases argument <;>
      simp only [Document.found, h.closest?, h.filterMatching, h.siblings, h.parentElement?]

theorem foundFrom (h : SameTree d d') : d'.foundFrom = d.foundFrom := by
  funext s ns
  rw [Document.foundFrom, h.found, Document.foundFrom]

/-- **A path finds the same**, segment by segment. -/
theorem follow (h : SameTree d d') : d'.follow = d.follow := by
  funext segments ns
  induction segments generalizing ns with
  | nil => rfl
  | cons s rest ih =>
    rw [Document.follow, Document.follow, h.foundFrom]
    simp only [ih]

/-- The lists of nodes on the way are the same, which the notices tell of. -/
theorem trail (h : SameTree d d') : d'.trail = d.trail := by
  funext segments ns
  induction segments generalizing ns with
  | nil => rfl
  | cons s rest ih =>
    rw [Document.trail, Document.trail, h.foundFrom]
    simp only [ih]

/-- The nodes that are walked are those up to the same failure. -/
theorem walks (h : SameTree d d') (segments : List Segment) :
    d'.walks segments = d.walks segments := by
  funext ns
  induction ns with
  | nil => rfl
  | cons n rest ih => rw [Document.walks, Document.walks, h.follow, ih]

/-- The nodes that are found are the same, and so is every notice. -/
theorem resolveParsed (h : SameTree d d') :
    Resolver.resolveParsed d' = Resolver.resolveParsed d := by
  funext start p
  have hresolve : d'.resolve = d.resolve := by
    funext segments ns
    rw [Document.resolve, h.follow, Document.resolve]
  have hnotices : Resolver.walkNotices d' p start = Resolver.walkNotices d p start := by
    rw [Resolver.walkNotices, h.walks, h.trail, Resolver.walkNotices]
  rw [Resolver.resolveParsed, hresolve, hnotices, Resolver.resolveParsed]

/-- **Resolving is the same computation.** -/
theorem resolver_resolve (h : SameTree d d') : Resolver.resolve d' = Resolver.resolve d := by
  funext start path
  cases path with
  | none => rfl
  | some path => rw [Resolver.resolve, h.resolveParsed, Resolver.resolve]

end SameTree

end Document

end TreeRules
