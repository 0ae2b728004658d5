import TreeRules.Text.Blank

/-!
# Path/Basic — token paths

A token path leads from a node to others.  Its text alternates, at doubled braces of either kind,
between selector fragments and relational steps; a fragment that is blank is dropped, a step that is
blank is an error.
-/

namespace TreeRules

/-- A relation that a step follows. -/
inductive Relation where
  | closest
  | siblings
  | parent
  deriving DecidableEq, Repr

namespace Relation

def name : Relation → String
  | closest => "closest"
  | siblings => "siblings"
  | parent => "parent"

def ofName? (s : String) : Option Relation :=
  [closest, siblings, parent].find? fun r => r.name == s

@[simp] theorem ofName?_name (r : Relation) : ofName? r.name = some r := by
  cases r <;> decide

end Relation

/-- A selector queried below each node, or a relation followed from each node, with a selector for
its result if one is given. -/
inductive Segment where
  | descendant (selector : String)
  | relation (relation : Relation) (argument : Option String)
  deriving DecidableEq, Repr

/-- A segment as it stands in a path. -/
def Segment.text : Segment → String
  | descendant selector => selector
  | relation r (some argument) => "\x7b\x7b" ++ r.name ++ "@" ++ argument ++ "\x7d\x7d"
  | relation r none => "\x7b\x7b" ++ r.name ++ "\x7d\x7d"

/-- Segments, with the text they were read from. -/
structure TokenPath where
  source : String
  segments : List Segment
  deriving DecidableEq, Repr

/-- Why a text is no token path. -/
inductive PathError where
  | unknownOperator (operator : String) (path : String)
  | emptyStep (path : String)
  deriving DecidableEq, Repr

def PathError.message : PathError → String
  | unknownOperator operator path =>
    "Unknown relational operator '" ++ operator ++ "' in path '" ++ path ++ "'"
  | emptyStep path => "Empty relational step in path '" ++ path ++ "'"

namespace TokenPath

def isEmpty (p : TokenPath) : Bool := p.segments.isEmpty

/-- Whether some segment follows a relation. -/
def isRelational (p : TokenPath) : Bool :=
  p.segments.any fun
    | .relation _ _ => true
    | .descendant _ => false

/-! ## Reading a path -/

/-- The pieces between doubled braces, opening and closing ones alike, taken from the left. -/
def pieces : List Char → List (List Char)
  | '\x7b' :: '\x7b' :: s => [] :: pieces s
  | '\x7d' :: '\x7d' :: s => [] :: pieces s
  | c :: s =>
    match pieces s with
    | p :: ps => (c :: p) :: ps
    | [] => [[c]]
  | [] => [[]]

/-- A piece between fragments, cut at its first at-sign. -/
def step (path : String) (piece : List Char) : Except PathError Segment :=
  let token := Text.trim piece
  if token = [] then .error (.emptyStep path)
  else
    let operator := String.ofList (Text.trim (token.takeWhile (· != '@')))
    let argument := Text.trim ((token.dropWhile (· != '@')).drop 1)
    match Relation.ofName? operator with
    | some r => .ok (.relation r (if argument = [] then none else some (String.ofList argument)))
    | none => .error (.unknownOperator operator path)

/-- A piece between steps; nothing if it is blank. -/
def fragment (piece : List Char) : List Segment :=
  let token := Text.trim piece
  if token = [] then [] else [.descendant (String.ofList token)]

/-- The segments of pieces that start with a fragment, fragments and steps in turn. -/
def segmentsOf (path : String) : List (List Char) → Except PathError (List Segment)
  | [] => .ok []
  | [f] => .ok (fragment f)
  | f :: s :: rest => do
    let segment ← step path s
    let segments ← segmentsOf path rest
    return fragment f ++ segment :: segments

/-- The token path that a text denotes. -/
def parse (path : String) : Except PathError TokenPath :=
  (segmentsOf path (pieces path.toList)).map (⟨path, ·⟩)

end TokenPath

end TreeRules
