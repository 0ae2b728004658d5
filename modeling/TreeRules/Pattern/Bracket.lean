import TreeRules.Pattern.Escape

/-!
# Pattern/Bracket — classes written in brackets

Between brackets stand characters, ranges, classes by name and further brackets, which join into
one set; `&&`, `--` and `~~` combine what stands on their two sides, from left to right.
-/

namespace TreeRules.Pattern

/-- How two sets are combined. -/
inductive SetOperation where
  | intersection
  | difference
  | symmetricDifference
  deriving DecidableEq, Repr

/-- What brackets hold. -/
inductive Bracket where
  | empty
  | plain (c : PlainChar)
  | range (first last : PlainChar)
  | ascii (negated : Bool) (name : String)
  | property (negated : Bool) (name : PropertyName)
  | shorthand (negated : Bool) (kind : Shorthand)
  | union (items : List Bracket)
  | nested (negated : Bool) (body : Bracket)
  | combined (operation : SetOperation) (left right : Bracket)

namespace Bracket

/-! ## Depth -/

mutual

/-- How many levels of brackets, unions and combinations lie below, this one included. -/
def depth : Bracket → Nat
  | union items => depthAll items + 1
  | nested _ body => body.depth + 1
  | combined _ left right => max left.depth right.depth + 1
  | _ => 0

def depthAll : List Bracket → Nat
  | [] => 0
  | b :: rest => max b.depth (depthAll rest)

end

/-! ## Items -/

/-- Several items join into a union; one stands for itself. -/
def joined : List Bracket → Bracket
  | [] => empty
  | [item] => item
  | items => union items

/-- A set is combined with what stands to the left of it, if an operation waits there. -/
def after (pending : Option (SetOperation × Bracket)) (right : Bracket) : Bracket :=
  match pending with
  | some (operation, left) => combined operation left right
  | none => right

/-- One character of the brackets, or an escape. -/
def item (ignoring : Bool) : List Char → Option (Escape × List Char)
  | [] => none
  | '\\' :: s => Escape.read ignoring s
  | c :: s => some (.literal ⟨c, false⟩, s)

/-- An escape as an item on its own; conditions on places are none. -/
def ofEscape? : Escape → Option Bracket
  | .literal c => some (plain c)
  | .property negated name => some (property negated name)
  | .shorthand negated kind => some (shorthand negated kind)
  | .assertion _ => none

/-- An item or a range.  A hyphen makes a range unless a bracket or another hyphen follows it. -/
def itemOrRange (ignoring : Bool) (s : List Char) : Option (Bracket × List Char) := do
  let (first, rest) ← item ignoring s
  match Layout.skip ignoring rest with
  | [] => none
  | '-' :: rest =>
    if Layout.peek? ignoring rest = some ']' ∨ Layout.peek? ignoring rest = some '-' then
      return (← ofEscape? first, '-' :: rest)
    let (last, rest) ← item ignoring (Layout.skip ignoring rest)
    match first, last with
    | .literal a, .literal b => if a.char ≤ b.char then some (range a b, rest) else none
    | _, _ => none
  | rest => return (← ofEscape? first, rest)

/-- A class by ASCII name, `[:name:]` or `[:^name:]`, after its first bracket. -/
def asciiName? : List Char → Option (Bracket × List Char)
  | ':' :: s =>
    let (negated, s) := match s with
      | '^' :: s => (true, s)
      | _ => (false, s)
    let name := String.ofList (s.takeWhile (· != ':'))
    match s.dropWhile (· != ':') with
    | ':' :: ']' :: rest => (CharSet.asciiNamed? name).map fun _ => (ascii negated name, rest)
    | _ => none
  | _ => none

/-- The hyphens that brackets may begin with. -/
def leadingHyphens (ignoring : Bool) (fuel : Nat) (s : List Char) : List Bracket × List Char :=
  match fuel, s with
  | fuel + 1, '-' :: rest =>
    let (hyphens, rest) := leadingHyphens ignoring fuel (Layout.skip ignoring rest)
    (plain ⟨'-', false⟩ :: hyphens, rest)
  | _, s => ([], s)

/-- What comes right after an opening bracket: a negation, then hyphens or one closing bracket,
which stand for themselves. -/
def opening (ignoring : Bool) (s : List Char) : Bool × List Bracket × List Char :=
  let s := Layout.skip ignoring s
  let (negated, s) := match s with
    | '^' :: rest => (true, Layout.skip ignoring rest)
    | _ => (false, s)
  match leadingHyphens ignoring s.length s with
  | ([], ']' :: rest) => (negated, [plain ⟨']', false⟩], Layout.skip ignoring rest)
  | (hyphens, rest) => (negated, hyphens, rest)

/-! ## Reading

Every call takes at least one character, so the length of what is left bounds their number. -/

/-- The items up to the closing bracket, given those before, last first, and what waits for a right
side. -/
def body (ignoring : Bool) :
    Nat → Option (SetOperation × Bracket) → List Bracket → List Char → Option (Bracket × List Char)
  | 0, _, _, _ => none
  | fuel + 1, pending, items, s =>
    let left := after pending (joined items.reverse)
    match Layout.skip ignoring s with
    | [] => none
    | ']' :: rest => some (left, rest)
    | '&' :: '&' :: rest => body ignoring fuel (some (.intersection, left)) [] rest
    | '-' :: '-' :: rest => body ignoring fuel (some (.difference, left)) [] rest
    | '~' :: '~' :: rest => body ignoring fuel (some (.symmetricDifference, left)) [] rest
    | '[' :: rest =>
      match asciiName? rest with
      | some (named, rest) => body ignoring fuel pending (named :: items) rest
      | none => do
        let (negated, initial, rest) := opening ignoring rest
        let (inner, rest) ← body ignoring fuel none initial.reverse rest
        body ignoring fuel pending (nested negated inner :: items) rest
    | s => do
      let (next, rest) ← itemOrRange ignoring s
      body ignoring fuel pending (next :: items) rest

/-- The class after an opening bracket, up to the bracket that closes it. -/
def read (ignoring : Bool) (s : List Char) : Option (Bracket × List Char) :=
  let (negated, initial, rest) := opening ignoring s
  (body ignoring (s.length + 1) none initial.reverse rest).map fun (inner, rest) =>
    (nested negated inner, rest)

end Bracket

end TreeRules.Pattern
