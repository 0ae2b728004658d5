import TreeRules.Document.Query
import TreeRules.Path.Basic

/-!
# Path/Resolution — the nodes that a path leads to

A segment turns a list of nodes into the list of what it finds from each, in turn; a path follows
its segments from every start node separately.  Nothing is removed: a node that is reached twice is
listed twice.
-/

namespace TreeRules

namespace Document

/-! ## One segment -/

/-- The nearest strict ancestor that is an element and matches. -/
def closest? (d : Document) (n : Nat) (selector : String) : Except TreeError (Option Nat) :=
  match _h : d.parentElement? n with
  | none => .ok none
  | some p => do
    if ← d.matches p selector then return some p else d.closest? p selector
termination_by n
decreasing_by
  simp only [parentElement?, Option.filter_eq_some_iff] at _h
  exact parent?_lt _h.1

/-- The nodes in the list that match. -/
def filterMatching (d : Document) (selector : String) (ns : List Nat) :
    Except TreeError (List Nat) :=
  ns.filterM fun n => d.matches n selector

/-- What a segment finds from one node.  Without a selector, `closest` and `siblings` find
nothing. -/
def found (d : Document) (s : Segment) (n : Nat) : Except TreeError (List Nat) :=
  match s with
  | .descendant selector => d.query n selector
  | .relation .closest (some selector) => (d.closest? n selector).map Option.toList
  | .relation .siblings (some selector) => d.filterMatching selector (d.siblings n)
  | .relation .parent (some selector) => d.filterMatching selector (d.parentElement? n).toList
  | .relation .parent none => .ok (d.parentElement? n).toList
  | .relation .closest none => .ok []
  | .relation .siblings none => .ok []

/-- What a segment finds from each of the nodes. -/
def foundFrom (d : Document) (s : Segment) (ns : List Nat) : Except TreeError (List Nat) :=
  (ns.mapM (d.found s)).map List.flatten

/-! ## A path -/

/-- The lists of nodes after each segment in turn, up to one that fails or finds nothing. -/
def trail (d : Document) : List Segment → List Nat → List (Segment × List Nat)
  | [], _ => []
  | s :: rest, ns =>
    match d.foundFrom s ns with
    | .error _ => []
    | .ok found => (s, found) :: if found = [] then [] else d.trail rest found

/-- The nodes at the end of the segments; a list that has become empty stays so, and the segments
after it are not looked at. -/
def follow (d : Document) : List Segment → List Nat → Except TreeError (List Nat)
  | [], ns => .ok ns
  | s :: rest, ns =>
    match d.foundFrom s ns with
    | .error e => .error e
    | .ok found => if found = [] then .ok [] else d.follow rest found

/-- The segments followed from each start node separately. -/
def resolve (d : Document) (segments : List Segment) (start : List Nat) :
    Except TreeError (List Nat) :=
  (start.mapM fun n => d.follow segments [n]).map List.flatten

/-- The start nodes that are walked: those before the first that fails, and that one. -/
def walks (d : Document) (segments : List Segment) : List Nat → List Nat
  | [] => []
  | n :: rest =>
    match d.follow segments [n] with
    | .ok _ => n :: d.walks segments rest
    | .error _ => [n]

end Document

end TreeRules
