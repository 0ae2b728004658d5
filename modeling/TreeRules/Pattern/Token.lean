import TreeRules.Pattern.Bracket
import TreeRules.Pattern.Modes
import TreeRules.Text.Alphanumeric

/-!
# Pattern/Token — the marks a pattern is made of

A pattern is read from left to right into tokens: atoms, which match at one place, repetitions,
bars, and the two ends of groups.  Only the question whether blanks are ignored is carried along,
as groups change it and give it back.
-/

namespace TreeRules.Pattern

/-- What matches at one place. -/
inductive Atom where
  | escape (e : Escape)
  | dot
  | bracket (b : Bracket)

/-- A mark of a pattern. -/
inductive Token where
  | atom (a : Atom)
  /-- What stands before it, a number of times; without `most` there is no upper bound. -/
  | repeated (least : Nat) (most : Option Nat)
  | bar
  /-- A group opens, perhaps with a name or with switches thrown inside. -/
  | opened (name : Option (List Char)) (changes : FlagChanges)
  | closed
  /-- Switches thrown for the rest of the group. -/
  | switched (changes : FlagChanges)

namespace Token

/-! ## Repetitions -/

/-- The digits that follow; between them blanks and comments may be ignored, and `inComment` says
that a comment has begun. -/
def digits (ignoring inComment : Bool) : List Char → List Char × List Char
  | [] => ([], [])
  | c :: s =>
    if inComment then digits ignoring (c != '\n') s
    else if c.isDigit then
      let (more, rest) := digits ignoring false s
      (c :: more, rest)
    else if ignoring && Text.isBlank c then digits ignoring false s
    else if ignoring && c == '#' then digits ignoring true s
    else ([], c :: s)

/-- A number of a counted repetition, with the blanks around it. -/
def count (ignoring : Bool) (s : List Char) : Option (Nat × List Char) :=
  let (shown, rest) := digits ignoring false (s.dropWhile Text.isBlank)
  let n := Literal.natOfDigits shown
  if shown = [] ∨ 0x100000000 ≤ n then none else some (n, rest.dropWhile Text.isBlank)

/-- A repetition mark may be followed by a question mark, which changes only what it prefers. -/
def preference : List Char → List Char
  | '?' :: s => s
  | s => s

/-- A counted repetition, after its opening brace. -/
def counted (ignoring : Bool) (s : List Char) : Option (Token × List Char) := do
  let (least, rest) ← count ignoring (Layout.skip ignoring s)
  match rest with
  | '\x7d' :: rest =>
    return (repeated least (some least), preference (Layout.skip ignoring rest))
  | ',' :: rest =>
    match Layout.skip ignoring rest with
    | '\x7d' :: rest => return (repeated least none, preference (Layout.skip ignoring rest))
    | rest => do
      let (most, rest) ← count ignoring rest
      match rest with
      | '\x7d' :: rest =>
        if least ≤ most then
          some (repeated least (some most), preference (Layout.skip ignoring rest))
        else none
      | _ => none
  | _ => none

/-! ## Groups -/

/-- A switch is thrown at most once in one place, and a hyphen, which throws those after it to off,
stands once and not last. -/
def switches (thrown : FlagChanges) (off : Bool) (last : Bool) :
    List Char → Option (FlagChanges × List Char)
  | [] => none
  | c :: s =>
    if c = ':' ∨ c = ')' then if last then none else some (thrown.reverse, c :: s)
    else if c = '-' then if off then none else switches thrown true true s
    else do
      let flag ← Flag.ofLetter? c
      if thrown.any (·.1 == flag) then none else switches ((flag, !off) :: thrown) off false s

/-- A group's name, up to the bracket that ends it. -/
def groupName (s : List Char) : Option (List Char × List Char) :=
  let name := s.takeWhile (· != '>')
  match name, s.drop name.length with
  | first :: more, '>' :: rest =>
    if (first == '_' || Text.Property.isAlphabetic first) &&
        more.all fun c => c == '_' || c == '.' || c == '[' || c == ']' || Text.isAlphanumeric c
    then some (name, rest) else none
  | _, _ => none

/-- What an opening parenthesis begins: a group, or switches for the rest of the group around. -/
def parenthesis (ignoring : Bool) (s : List Char) : Option (Token × List Char) :=
  match Layout.skip ignoring s with
  | '?' :: '=' :: _ | '?' :: '!' :: _ | '?' :: '<' :: '=' :: _ | '?' :: '<' :: '!' :: _ => none
  | '?' :: 'P' :: '<' :: rest | '?' :: '<' :: rest =>
    (groupName rest).map fun (name, rest) => (opened (some name) [], rest)
  | '?' :: rest => do
    let (changes, rest) ← switches [] false false rest
    match rest with
    | ':' :: rest => return (opened none changes, rest)
    | ')' :: rest => if changes = [] then none else return (switched changes, rest)
    | _ => none
  | rest => some (opened none [], rest)

/-! ## Reading -/

/-- The token that begins with a character, and what follows. -/
def next (ignoring : Bool) (c : Char) (s : List Char) : Option (Token × List Char) :=
  match c with
  | '(' => parenthesis ignoring s
  | ')' => some (closed, s)
  | '|' => some (bar, s)
  | '[' => (Bracket.read ignoring s).map fun (b, rest) => (atom (.bracket b), rest)
  | '?' => some (repeated 0 (some 1), preference s)
  | '*' => some (repeated 0 none, preference s)
  | '+' => some (repeated 1 none, preference s)
  | '\x7b' => counted ignoring s
  | '\\' => (Escape.read ignoring s).map fun (e, rest) => (atom (.escape e), rest)
  | '.' => some (atom .dot, s)
  | '^' => some (atom (.escape (.assertion .lineStart)), s)
  | '$' => some (atom (.escape (.assertion .lineEnd)), s)
  | c => some (atom (.escape (.literal ⟨c, false⟩)), s)

/-- Whether blanks are ignored once switches are thrown. -/
def ignoringAfter (ignoring : Bool) (changes : FlagChanges) : Bool :=
  (changes.lookup .ignoreBlanks).getD ignoring

/-- Whether blanks are ignored after a token, here and in the groups around; none if a group is
closed that was never opened. -/
def settle (ignoring : Bool) (outer : List Bool) : Token → Option (Bool × List Bool)
  | opened _ changes => some (ignoringAfter ignoring changes, ignoring :: outer)
  | switched changes => some (ignoringAfter ignoring changes, outer)
  | closed =>
    match outer with
    | [] => none
    | before :: outer => some (before, outer)
  | _ => some (ignoring, outer)

/-- The tokens of a pattern inside the groups `outer`, which all have to be closed; every token
takes at least one character. -/
def scanFrom : Nat → Bool → List Bool → List Char → Option (List Token)
  | 0, _, _, _ => none
  | fuel + 1, ignoring, outer, s =>
    match Layout.skip ignoring s with
    | [] => if outer = [] then some [] else none
    | c :: rest => do
      let (token, rest) ← next ignoring c rest
      let (ignoring, outer) ← settle ignoring outer token
      return token :: (← scanFrom fuel ignoring outer rest)

/-- The name a group opens with, if it has one. -/
def name? : Token → Option (List Char)
  | opened name _ => name
  | _ => none

/-- The tokens of a whole pattern, in which no two groups have one name. -/
def scan (ignoring : Bool) (s : List Char) : Option (List Token) := do
  let tokens ← scanFrom (s.length + 1) ignoring [] s
  if (tokens.filterMap name?).Nodup then some tokens else none

end Token

end TreeRules.Pattern
