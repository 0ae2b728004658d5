import TreeRules.Document.Spec
import TreeRules.Selector.Matching
import TreeRules.Selector.Parser

/-!
# Document/Query — elements found by a selector text

A query lists what lies below a node and matches, in document order; a missing node is reported
before the selector is read.
-/

namespace TreeRules

/-- Why a question about a tree has no answer. -/
inductive TreeError where
  | invalidSelector (error : SelectorError)
  | unknownNode (node : Nat)
  deriving DecidableEq, Repr

def TreeError.message : TreeError → String
  | invalidSelector e => e.message
  | unknownNode n => "Unknown node: " ++ nodeText n

namespace Document

/-- The selector list a text denotes, asked of a node that must be there. -/
def selectorFor (d : Document) (n : Nat) (selector : String) : Except TreeError SelectorList :=
  if d.hasNode n then
    match SelectorList.parse selector with
    | .ok l => .ok l
    | .error e => .error (.invalidSelector e)
  else .error (.unknownNode n)

/-- The nodes below `n` that match, in document order. -/
def query (d : Document) (n : Nat) (selector : String) : Except TreeError (List Nat) :=
  (d.selectorFor n selector).map fun l => (d.descendants n).filter (l.matches d)

/-- Whether the node itself matches. -/
def «matches» (d : Document) (n : Nat) (selector : String) : Except TreeError Bool :=
  (d.selectorFor n selector).map fun l => l.matches d n

/-- All matching elements, in document order. -/
def findAll (d : Document) (selector : String) : Except TreeError (List Nat) :=
  d.query root selector

/-- The first matching element. -/
def find? (d : Document) (selector : String) : Except TreeError (Option Nat) :=
  (d.findAll selector).map List.head?

/-- A description placed under a node. -/
def append (d : Document) (parent : Nat) (spec : ElementSpec) :
    Except TreeError (Document × Nat) :=
  match d.append? parent spec with
  | some r => .ok r
  | none => .error (.unknownNode parent)

/-- The value of a node replaced. -/
def setValue (d : Document) (n : Nat) (value : String) : Except TreeError Document :=
  match d.setValue? n value with
  | some d => .ok d
  | none => .error (.unknownNode n)

end Document

end TreeRules
