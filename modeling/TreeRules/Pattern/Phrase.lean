import TreeRules.Pattern.Token

/-!
# Pattern/Phrase — the tree of a pattern

Tokens are put together from left to right: a repetition takes the part before it, a bar begins
the next alternative, and a closing parenthesis hands its group to the group around.
-/

namespace TreeRules.Pattern

/-- The tree of a pattern. -/
inductive Phrase where
  | empty
  | switched (changes : FlagChanges)
  | atom (a : Atom)
  | repeated (least : Nat) (most : Option Nat) (body : Phrase)
  | group (changes : FlagChanges) (body : Phrase)
  | alternatives (branches : List Phrase)
  | sequence (parts : List Phrase)

namespace Phrase

/-! ## Depth -/

mutual

/-- How many levels of groups, repetitions, alternatives, sequences and brackets lie on top of each
other. -/
def depth : Phrase → Nat
  | empty | switched _ => 0
  | atom (.bracket b) => b.depth
  | atom _ => 0
  | repeated _ _ body => body.depth + 1
  | group _ body => body.depth + 1
  | alternatives branches => depthAll branches + 1
  | sequence parts => depthAll parts + 1

def depthAll : List Phrase → Nat
  | [] => 0
  | p :: rest => max p.depth (depthAll rest)

end

/-! ## Putting tokens together -/

/-- Parts in a row; one stands for itself. -/
def inSequence : List Phrase → Phrase
  | [] => empty
  | [p] => p
  | parts => sequence parts

/-- Branches side by side; one stands for itself. -/
def inAlternatives : List Phrase → Phrase
  | [] => empty
  | [p] => p
  | branches => alternatives branches

/-- A group under construction: its finished branches and the parts of the branch at hand, both
last first. -/
structure Draft where
  changes : FlagChanges
  branches : List Phrase
  parts : List Phrase

namespace Draft

/-- A group in which nothing stands yet. -/
def ofChanges (changes : FlagChanges) : Draft := ⟨changes, [], []⟩

def push (d : Draft) (p : Phrase) : Draft := { d with parts := p :: d.parts }

/-- The branch at hand is finished. -/
def split (d : Draft) : Draft :=
  { d with branches := inSequence d.parts.reverse :: d.branches, parts := [] }

/-- What the group holds. -/
def body (d : Draft) : Phrase := inAlternatives d.split.branches.reverse

/-- The last part, repeated; there has to be one, and it must match something by itself. -/
def repeatLast? (d : Draft) (least : Nat) (most : Option Nat) : Option Draft :=
  match d.parts with
  | [] | switched _ :: _ => none
  | p :: parts => some { d with parts := repeated least most p :: parts }

end Draft

/-- The tree of a group and of the groups around it, innermost first, once the tokens are read. -/
def build : Draft → List Draft → List Token → Option Phrase
  | d, [], [] => some d.body
  | _, _ :: _, [] => none
  | d, outer, .atom a :: rest => build (d.push (atom a)) outer rest
  | d, outer, .bar :: rest => build d.split outer rest
  | d, outer, .switched changes :: rest => build (d.push (switched changes)) outer rest
  | d, outer, .opened _ changes :: rest => build (.ofChanges changes) (d :: outer) rest
  | d, parent :: outer, .closed :: rest =>
    build (parent.push (group d.changes d.body)) outer rest
  | _, [], .closed :: _ => none
  | d, outer, .repeated least most :: rest => do
    build (← d.repeatLast? least most) outer rest

/-- The tree of a pattern. -/
def parse (ignoring : Bool) (s : List Char) : Option Phrase := do
  build (.ofChanges []) [] (← Token.scan ignoring s)

end Phrase

end TreeRules.Pattern
