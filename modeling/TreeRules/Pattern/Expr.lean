import TreeRules.Pattern.Backend
import TreeRules.Pattern.Phrase

/-!
# Pattern/Expr — what a pattern matches

In the modes in force, every part of the tree of a pattern becomes an expression over sets of
characters and conditions on places.  Where patterns are not read as Unicode, whatever could match
part of a character is refused.
-/

namespace TreeRules.Pattern

/-- A condition on the characters on both sides of a place. -/
inductive Look where
  | textStart
  | textEnd
  | lineStart
  | lineEnd
  | returnLineStart
  | returnLineEnd
  | wordEdge (ascii : Bool)
  | notWordEdge (ascii : Bool)
  | wordStart (ascii : Bool)
  | wordEnd (ascii : Bool)
  | wordStartHalf (ascii : Bool)
  | wordEndHalf (ascii : Bool)
  deriving DecidableEq, Repr

/-- What a pattern matches. -/
inductive Expr where
  | empty
  | set (s : CharSet)
  | look (l : Look)
  | seq (e f : Expr)
  | alt (e f : Expr)
  | times (e : Expr) (least : Nat) (most : Option Nat)
  deriving DecidableEq, Repr

/-! ## Sets of characters -/

/-- The word characters of ASCII. -/
def CharSet.asciiWord : CharSet := .ranges [('0', '9'), ('A', 'Z'), ('_', '_'), ('a', 'z')]

/-- The set of a shorthand. -/
def Shorthand.set (unicode : Bool) : Shorthand → CharSet
  | .digit => if unicode then .categories [.nd] else .between '0' '9'
  | .blank => if unicode then .property .whiteSpace else .ranges [('\t', '\r'), (' ', ' ')]
  | .word => if unicode then .word else .asciiWord

/-- The condition of an assertion. -/
def Assertion.look (m : Modes) : Assertion → Look
  | .lineStart =>
    if !m.multiLine then .textStart else if m.crlf then .returnLineStart else .lineStart
  | .lineEnd => if !m.multiLine then .textEnd else if m.crlf then .returnLineEnd else .lineEnd
  | .textStart => .textStart
  | .textEnd => .textEnd
  | .wordEdge => .wordEdge !m.unicode
  | .notWordEdge => .notWordEdge !m.unicode
  | .wordStart => .wordStart !m.unicode
  | .wordEnd => .wordEnd !m.unicode
  | .wordStartHalf => .wordStartHalf !m.unicode
  | .wordEndHalf => .wordEndHalf !m.unicode

namespace Modes

/-- A set is closed under case where case is ignored. -/
def fold (m : Modes) (s : CharSet) : CharSet :=
  if m.ignoreCase then if m.unicode then .folded s else .asciiFolded s else s

/-- A set, closed under case where case is ignored, then complemented if that is asked; a complement
reaches beyond ASCII. -/
def foldNegate? (m : Modes) (negated : Bool) (s : CharSet) : Option CharSet :=
  if negated && !m.unicode then none else some ((m.fold s).negateIf negated)

/-- A character on its own; a byte beyond ASCII is refused. -/
def plain? (m : Modes) (c : PlainChar) : Option CharSet :=
  if !m.unicode && c.isByte && 128 ≤ c.char.toNat then none else some (.only c.char)

/-- A character in brackets, which has to be ASCII where patterns are not read as Unicode. -/
def bracketChar? (m : Modes) (c : PlainChar) : Option Char :=
  if !m.unicode && 128 ≤ c.char.toNat then none else some c.char

/-- The set of a class by name. -/
def property? (m : Modes) (negated : Bool) (name : PropertyName) : Option CharSet :=
  if m.unicode then do m.foldNegate? negated (← CharSet.named? name) else none

/-- The set of a shorthand, which is closed under case by itself. -/
def shorthand? (m : Modes) (negated : Bool) (kind : Shorthand) : Option CharSet :=
  if negated && !m.unicode then none else some ((kind.set m.unicode).negateIf negated)

end Modes

/-- Two sets combined. -/
def SetOperation.apply : SetOperation → CharSet → CharSet → CharSet
  | .intersection => .inter
  | .difference => .diff
  | .symmetricDifference => .symmetric

mutual

/-- The set that brackets hold. -/
def Bracket.set? (m : Modes) : Bracket → Option CharSet
  | .empty => some .empty
  | .plain c => (m.bracketChar? c).map .only
  | .range first last => do return .between (← m.bracketChar? first) (← m.bracketChar? last)
  | .ascii negated name => do m.foldNegate? negated (← CharSet.asciiNamed? name)
  | .property negated name => m.property? negated name
  | .shorthand negated kind => m.shorthand? negated kind
  | .union items => (Bracket.sets? m items).map .unions
  | .nested negated body => do m.foldNegate? negated (← body.set? m)
  | .combined operation left right => do
    return operation.apply (m.fold (← left.set? m)) (m.fold (← right.set? m))

def Bracket.sets? (m : Modes) : List Bracket → Option (List CharSet)
  | [] => some []
  | b :: rest => do return (← b.set? m) :: (← Bracket.sets? m rest)

end

/-! ## Expressions -/

/-- Any character but the end of a line, or any character at all. -/
def Modes.dot (m : Modes) : CharSet :=
  if m.dotAll then .any
  else if m.crlf then .complement (.ranges [('\n', '\n'), ('\r', '\r')])
  else .complement (.only '\n')

/-- The expression of an atom. -/
def Atom.expr? (m : Modes) : Atom → Option Expr
  | .dot => if m.unicode then some (.set m.dot) else none
  | .bracket b => (b.set? m).map .set
  | .escape (.literal c) => (m.plain? c).map fun s => .set (m.fold s)
  | .escape (.assertion a) => some (.look (a.look m))
  | .escape (.property negated name) => (m.property? negated name).map .set
  | .escape (.shorthand negated kind) => (m.shorthand? negated kind).map .set

mutual

/-- The expression of a phrase, and the modes in force after it. -/
def Phrase.expr? (m : Modes) : Phrase → Option (Expr × Modes)
  | .empty => some (.empty, m)
  | .switched changes => some (.empty, m.change changes)
  | .atom a => (a.expr? m).map (·, m)
  | .repeated least most body => do
    let (e, m) ← body.expr? m
    return (.times e least most, m)
  | .group changes body => do
    let (e, _) ← body.expr? (m.change changes)
    return (e, m)
  | .alternatives branches => Phrase.alternatives? m branches
  | .sequence parts => Phrase.sequence? m parts

/-- The expressions of branches; modes thrown in one branch hold in the next. -/
def Phrase.alternatives? (m : Modes) : List Phrase → Option (Expr × Modes)
  | [] => some (.set .empty, m)
  | p :: rest => do
    let (e, m) ← p.expr? m
    let (f, m) ← Phrase.alternatives? m rest
    return (.alt e f, m)

def Phrase.sequence? (m : Modes) : List Phrase → Option (Expr × Modes)
  | [] => some (.empty, m)
  | p :: rest => do
    let (e, m) ← p.expr? m
    let (f, m) ← Phrase.sequence? m rest
    return (.seq e f, m)

end

/-! ## Limits

A pattern may nest to some depth.  It is unfolded before it is used, every repetition written out,
and may then take ten mebibytes at most. -/

/-- The depth a pattern may have. -/
def Phrase.depthLimit : Nat := 250

namespace Expr

/-- Whether only the empty text can match. -/
def isWidthless : Expr → Bool
  | empty | look _ => true
  | set _ => false
  | seq e f | alt e f => e.isWidthless && f.isWidthless
  | times e _ most => e.isWidthless || most == some 0

/-- An estimate of the bytes of an unfolded expression: a step takes 32, and one over characters
beyond ASCII 60 more for every stretch of them. -/
def weight : Expr → Nat
  | empty => 32
  | set (.between a b) => if b.toNat < 128 ∨ a = b then 32 else 92
  | set s => 32 + 60 * s.stretches
  | look _ => 32
  | seq e f => e.weight + f.weight
  | alt e f => e.weight + f.weight + 32
  | times e least most =>
    if e.isWidthless then e.weight
    else
      match most with
      | some most => (most - least) * 32 + most * e.weight
      | none => 32 + (max least 1) * e.weight

def weightLimit : Nat := 10 * 1024 * 1024

/-- The expression of a pattern in the modes it begins in, or why there is none. -/
def compile (m : Modes) (source : List Char) : Except Refusal Expr :=
  match Phrase.parse m.ignoreBlanks source with
  | none => .error .invalid
  | some phrase =>
    if phrase.depth ≤ Phrase.depthLimit then
      match phrase.expr? m with
      | none => .error .invalid
      | some (e, _) => if e.weight ≤ weightLimit then .ok e else .error .overLimits
    else .error .overLimits

/-- The expression of a pattern in the modes it begins in. -/
def ofPattern? (m : Modes) (source : List Char) : Option Expr := (compile m source).toOption

end Expr

end TreeRules.Pattern
