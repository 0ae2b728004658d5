import TreeRules.Json.Number

/-!
# Json/Reader — from a text to the document it writes

The strict grammar of the format and nothing beyond it: four blank characters, no trailing commas,
no text after the value.  `Written.ofText?` reads a whole text; its fuel is the length of the text,
since each step goes past a character.
-/

namespace TreeRules.Json

/-! ## Blanks, strings and numbers -/

/-- The blanks of the format. -/
def isSpace (c : Char) : Bool := c == ' ' || c == '\n' || c == '\t' || c == '\r'

def skipSpace (s : List Char) : List Char := s.dropWhile isSpace

/-- The value of a hexadecimal digit. -/
def hexDigit? (c : Char) : Option Nat :=
  let n := c.toNat
  if '0' ≤ c && c ≤ '9' then some (n - '0'.toNat)
  else if 'a' ≤ c && c ≤ 'f' then some (n - 'a'.toNat + 10)
  else if 'A' ≤ c && c ≤ 'F' then some (n - 'A'.toNat + 10)
  else none

/-- The code unit that four hexadecimal digits spell. -/
def codeUnit? (a b c d : Char) : Option Nat :=
  match hexDigit? a, hexDigit? b, hexDigit? c, hexDigit? d with
  | some a, some b, some c, some d => some (((a * 16 + b) * 16 + c) * 16 + d)
  | _, _, _, _ => none

def isLeading (u : Nat) : Bool := 0xD800 ≤ u && u ≤ 0xDBFF

def isTrailing (u : Nat) : Bool := 0xDC00 ≤ u && u ≤ 0xDFFF

/-- The character of a surrogate pair. -/
def pairChar (lead trail : Nat) : Char :=
  Char.ofNat (0x10000 + (lead - 0xD800) * 0x400 + (trail - 0xDC00))

/-- What stands for what after a backslash. -/
def escaped? : Char → Option Char
  | '"' => some '"'
  | '\\' => some '\\'
  | '/' => some '/'
  | 'b' => some '\x08'
  | 'f' => some '\x0c'
  | 'n' => some '\n'
  | 'r' => some '\r'
  | 't' => some '\t'
  | _ => none

/-- The rest of a string after its opening quote, and what follows it.  `lead` is the first half of
a surrogate pair that waits for the second; a half that stands alone leaves no string. -/
def readString (readable : Bool) (lead : Option Nat) (acc : List Char) :
    List Char → Option (Option String × List Char)
  | '"' :: s => some (if readable && lead.isNone then some (String.ofList acc.reverse) else none, s)
  | '\\' :: 'u' :: a :: b :: c :: d :: s =>
    match codeUnit? a b c d, lead with
    | none, _ => none
    | some u, some l =>
      if isTrailing u then readString readable none (pairChar l u :: acc) s
      else readString false none acc s
    | some u, none =>
      if isLeading u then readString readable (some u) acc s
      else if isTrailing u then readString false none acc s
      else readString readable none (Char.ofNat u :: acc) s
  | '\\' :: c :: s =>
    match escaped? c with
    | some e => readString (readable && lead.isNone) none (e :: acc) s
    | none => none
  | c :: s =>
    if c.toNat < 0x20 || c == '\\' then none
    else readString (readable && lead.isNone) none (c :: acc) s
  | [] => none

/-- Digits at the front, and what follows them. -/
def readDigits (s : List Char) : List Char × List Char :=
  (s.takeWhile Char.isDigit, s.dropWhile Char.isDigit)

/-- At least one digit at the front, and what follows. -/
def readDigits1? (s : List Char) : Option (List Char × List Char) :=
  match readDigits s with
  | ([], _) => none
  | r => some r

/-- The digits before the point: one zero, or digits that do not start with it. -/
def readWhole? : List Char → Option (List Char × List Char)
  | '0' :: s => if (s.head?.map Char.isDigit).getD false then none else some (['0'], s)
  | s => readDigits1? s

/-- The sign in front of a number. -/
def readMinus : List Char → Bool × List Char
  | '-' :: s => (true, s)
  | s => (false, s)

/-- The sign of an exponent. -/
def readSign : List Char → Bool × List Char
  | '-' :: s => (true, s)
  | '+' :: s => (false, s)
  | s => (false, s)

/-- The digits behind a point, if one follows. -/
def readFraction? : List Char → Option (Option (List Char) × List Char)
  | '.' :: s => (readDigits1? s).map fun p => (some p.1, p.2)
  | s => some (none, s)

/-- The exponent, if one follows. -/
def readExponent? : List Char → Option (Option (Bool × List Char) × List Char)
  | c :: s =>
    if c == 'e' || c == 'E' then
      (readDigits1? (readSign s).2).map fun p => (some ((readSign s).1, p.1), p.2)
    else some (none, c :: s)
  | [] => some (none, [])

/-- A number at the front, as written, and what follows. -/
def readNumber? (s : List Char) : Option (NumberText × List Char) := do
  let (whole, r) ← readWhole? (readMinus s).2
  let (fraction, r) ← readFraction? r
  let (exponent, r) ← readExponent? r
  return (⟨(readMinus s).1, whole, fraction, exponent⟩, r)

/-- A number as the document has it. -/
def NumberText.written (t : NumberText) : Written := (t.value?.map Json.written).getD .unreadable

/-! ## Documents -/

namespace Written

mutual

/-- A value at the front of the text, after blanks, and what follows it. -/
def read : Nat → List Char → Option (Written × List Char)
  | 0, _ => none
  | fuel + 1, s =>
    match skipSpace s with
    | 'n' :: 'u' :: 'l' :: 'l' :: r => some (.null, r)
    | 't' :: 'r' :: 'u' :: 'e' :: r => some (.bool true, r)
    | 'f' :: 'a' :: 'l' :: 's' :: 'e' :: r => some (.bool false, r)
    | '"' :: r =>
      match readString true none [] r with
      | some (some t, r) => some (.string t, r)
      | some (none, r) => some (.unreadable, r)
      | none => none
    | '[' :: r =>
      match skipSpace r with
      | ']' :: r => some (.array [], r)
      | r => readItems fuel [] r
    | '{' :: r =>
      match skipSpace r with
      | '}' :: r => some (.object [], r)
      | r => readMembers fuel (some []) r
    | r => (readNumber? r).map fun p => (p.1.written, p.2)

/-- Items up to the closing bracket, the earlier ones in `acc`, last first. -/
def readItems : Nat → List Written → List Char → Option (Written × List Char)
  | 0, _, _ => none
  | fuel + 1, acc, s =>
    match read fuel s with
    | none => none
    | some (v, r) =>
      match skipSpace r with
      | ',' :: r => readItems fuel (v :: acc) r
      | ']' :: r => some (.array (v :: acc).reverse, r)
      | _ => none

/-- Members up to the closing brace, the earlier ones in `acc`, last first; a name that denotes no
string leaves an object that cannot be read. -/
def readMembers :
    Nat → Option (List (String × Written)) → List Char → Option (Written × List Char)
  | 0, _, _ => none
  | fuel + 1, acc, s =>
    match skipSpace s with
    | '"' :: r =>
      match readString true none [] r with
      | none => none
      | some (name, r) =>
        match skipSpace r with
        | ':' :: r =>
          match read fuel r with
          | none => none
          | some (v, r) =>
            let acc := acc.bind fun ms => name.map fun k => (k, v) :: ms
            match skipSpace r with
            | ',' :: r => readMembers fuel acc r
            | '}' :: r => some ((acc.map fun ms => object ms.reverse).getD unreadable, r)
            | _ => none
        | _ => none
    | _ => none

end

/-- The document that a whole text writes. -/
def ofText? (text : String) : Option Written :=
  let s := text.toList
  match read (s.length + 1) s with
  | some (v, r) => if skipSpace r = [] then some v else none
  | none => none

end Written

/-- The value that a whole text denotes. -/
def ofText? (text : String) : Option Json :=
  (Written.ofText? text).bind (Written.value? Written.maxDepth)

end TreeRules.Json
