import TreeRules.Pattern.Layout
import TreeRules.Pattern.Name
import TreeRules.Number.Literal

/-!
# Pattern/Escape — what a backslash introduces

A backslash makes the next character plain, or names a character by number, a class of characters
or a place in the text.  `Escape.read` takes what follows the backslash.
-/

namespace TreeRules.Pattern

/-- A character of the pattern; `isByte` marks one written as two hexadecimal digits, which names a
byte where patterns are not read as Unicode. -/
structure PlainChar where
  char : Char
  isByte : Bool
  deriving DecidableEq, Repr

/-- The three classes with a letter of their own. -/
inductive Shorthand where
  | digit
  | blank
  | word
  deriving DecidableEq, Repr

/-- A condition on a place in the text. -/
inductive Assertion where
  | lineStart
  | lineEnd
  | textStart
  | textEnd
  | wordEdge
  | notWordEdge
  | wordStart
  | wordEnd
  | wordStartHalf
  | wordEndHalf
  deriving DecidableEq, Repr

/-- What an escape stands for. -/
inductive Escape where
  | literal (l : PlainChar)
  | assertion (a : Assertion)
  | property (negated : Bool) (name : PropertyName)
  | shorthand (negated : Bool) (kind : Shorthand)
  deriving DecidableEq, Repr

namespace Escape

/-! ## Characters by number -/

def isHexDigit (c : Char) : Bool := (Literal.digitValue? c).any (· < 16)

/-- The character of a hexadecimal number, if there is one. -/
def ofHex? (digits : List Char) : Option Char := do
  let n ← Literal.ofDigits? 16 0 digits
  if digits ≠ [] ∧ n.isValidChar then some (Char.ofNat n) else none

/-- Exactly `count` hexadecimal digits. -/
def hexDigits (ignoring : Bool) : Nat → List Char → Option (List Char × List Char)
  | 0, s => some ([], s)
  | count + 1, c :: s =>
    if isHexDigit c then
      (hexDigits ignoring count (Layout.skip ignoring s)).map fun (cs, r) => (c :: cs, r)
    else none
  | _ + 1, [] => none

/-- A character by number: in braces, or with the number of digits its letter asks for. -/
def hexadecimal (ignoring : Bool) (letter : Char) (s : List Char) :
    Option (PlainChar × List Char) :=
  match Layout.skip ignoring s with
  | '\x7b' :: rest => do
    let (digits, rest) ← Layout.collect ignoring isHexDigit '\x7d' rest
    return (⟨← ofHex? digits, false⟩, Layout.skip ignoring rest)
  | rest => do
    let count := if letter = 'x' then 2 else if letter = 'u' then 4 else 8
    let (digits, rest) ← hexDigits ignoring count rest
    return (⟨← ofHex? digits, letter = 'x'⟩, rest)

/-! ## Classes by name -/

/-- The text before and after the first place where `mark` stands. -/
def cutAt? (mark : List Char) : List Char → Option (List Char × List Char)
  | [] => none
  | c :: s =>
    if mark.isPrefixOf (c :: s) then some ([], (c :: s).drop mark.length)
    else (cutAt? mark s).map fun (a, b) => (c :: a, b)

/-- The name between braces, and whether its mark negates it. -/
def bracedName (text : List Char) : Bool × PropertyName :=
  match cutAt? ['!', '='] text with
  | some (name, value) => (true, .valued name value)
  | none =>
    match cutAt? [':'] text <|> cutAt? ['='] text with
    | some (name, value) => (false, .valued name value)
    | none => (false, .plain text)

/-- A class by name: one letter, or a name in braces. -/
def propertyClass (ignoring negated : Bool) (s : List Char) : Option (Escape × List Char) :=
  match Layout.skip ignoring s with
  | [] => none
  | '\x7b' :: rest => do
    let (text, rest) ← Layout.collect ignoring (fun _ => true) '\x7d' rest
    let (differs, name) := bracedName text
    return (.property (negated != differs) name, rest)
  | '\\' :: _ => none
  | c :: rest => some (.property negated (.plain [c]), Layout.skip ignoring rest)

/-! ## Word edges -/

def isEdgeNameChar (c : Char) : Bool := c.isAlpha || c == '-'

/-- What follows the escape of a word edge: a name in braces narrows it; braces that hold no name
are left for a repetition. -/
def wordEdge (ignoring : Bool) (s : List Char) : Option (Escape × List Char) :=
  match s with
  | '\x7b' :: rest =>
    match Layout.skip ignoring rest with
    | [] => none
    | c :: r =>
      if isEdgeNameChar c then do
        let (name, r) ← Layout.collect ignoring isEdgeNameChar '\x7d' (c :: r)
        match String.ofList name with
        | "start" => some (.assertion .wordStart, r)
        | "end" => some (.assertion .wordEnd, r)
        | "start-half" => some (.assertion .wordStartHalf, r)
        | "end-half" => some (.assertion .wordEndHalf, r)
        | _ => none
      else some (.assertion .wordEdge, s)
  | _ => some (.assertion .wordEdge, s)

/-! ## All escapes -/

/-- Every ASCII character but letters, digits and angle brackets may be escaped to stand for
itself. -/
def isPlainWhenEscaped (c : Char) : Bool :=
  c.toNat < 128 && !c.isAlphanum && c != '<' && c != '>'

/-- The escape after a backslash. -/
def read (ignoring : Bool) : List Char → Option (Escape × List Char)
  | [] => none
  | c :: s =>
    match c with
    | 'x' | 'u' | 'U' => (hexadecimal ignoring c s).map fun (l, r) => (.literal l, r)
    | 'p' => propertyClass ignoring false s
    | 'P' => propertyClass ignoring true s
    | 'd' => some (.shorthand false .digit, s)
    | 'D' => some (.shorthand true .digit, s)
    | 's' => some (.shorthand false .blank, s)
    | 'S' => some (.shorthand true .blank, s)
    | 'w' => some (.shorthand false .word, s)
    | 'W' => some (.shorthand true .word, s)
    | 'a' => some (.literal ⟨'\x07', false⟩, s)
    | 'f' => some (.literal ⟨'\x0c', false⟩, s)
    | 't' => some (.literal ⟨'\t', false⟩, s)
    | 'n' => some (.literal ⟨'\n', false⟩, s)
    | 'r' => some (.literal ⟨'\r', false⟩, s)
    | 'v' => some (.literal ⟨'\x0b', false⟩, s)
    | 'A' => some (.assertion .textStart, s)
    | 'z' => some (.assertion .textEnd, s)
    | 'b' => wordEdge ignoring s
    | 'B' => some (.assertion .notWordEdge, s)
    | '<' => some (.assertion .wordStart, s)
    | '>' => some (.assertion .wordEnd, s)
    | _ => if isPlainWhenEscaped c then some (.literal ⟨c, false⟩, s) else none

end Escape

end TreeRules.Pattern
