import TreeRules.Pattern.Expr

/-!
# Pattern/Matching — where an expression matches

`Expr.Spans` says which stretches of a text an expression matches, given the characters on both
sides.  The search walks through the text once with the set of expressions that are still to be
matched: `accepts` asks whether one of them may end here, `step` takes it past a character.
-/

namespace TreeRules.Pattern

/-! ## Places -/

/-- Whether a word character stands there. -/
def isWordAt (ascii : Bool) (c : Option Char) : Bool :=
  c.any (if ascii then CharSet.asciiWord else CharSet.word).contains

/-- Whether the condition holds between two characters, or at an end of the text. -/
def Look.holds (before after : Option Char) : Look → Bool
  | textStart => before.isNone
  | textEnd => after.isNone
  | lineStart => before.all (· == '\n')
  | lineEnd => after.all (· == '\n')
  | returnLineStart => before.all fun c => c == '\n' || (c == '\r' && after != some '\n')
  | returnLineEnd => after.all fun c => c == '\r' || (c == '\n' && before != some '\r')
  | wordEdge a => isWordAt a before != isWordAt a after
  | notWordEdge a => isWordAt a before == isWordAt a after
  | wordStart a => !isWordAt a before && isWordAt a after
  | wordEnd a => isWordAt a before && !isWordAt a after
  | wordStartHalf a => !isWordAt a before
  | wordEndHalf a => !isWordAt a after

namespace Expr

/-! ## Stretches of text -/

/-- The expression matches the text between the two neighbours. -/
inductive Spans : Expr → Option Char → List Char → Option Char → Prop where
  | empty {b a} : Spans .empty b [] a
  | set {s c b a} : s.contains c = true → Spans (.set s) b [c] a
  | look {l b a} : l.holds b a = true → Spans (.look l) b [] a
  | seq {e f b u v a} : Spans e b u (v.head?.or a) → Spans f (u.getLast?.or b) v a →
      Spans (.seq e f) b (u ++ v) a
  | left {e f b u a} : Spans e b u a → Spans (.alt e f) b u a
  | right {e f b u a} : Spans f b u a → Spans (.alt e f) b u a
  | none {e most b a} : Spans (.times e 0 most) b [] a
  | more {e least most b u v a} : most ≠ some 0 → Spans e b u (v.head?.or a) →
      Spans (.times e (least - 1) (most.map (· - 1))) (u.getLast?.or b) v a →
      Spans (.times e least most) b (u ++ v) a

/-- Some stretch of the text is matched. -/
def Occurs (e : Expr) (text : List Char) : Prop :=
  ∃ p u s, text = p ++ u ++ s ∧ Spans e p.getLast? u s.head?

/-! ## One place at a time -/

/-- Whether the empty text is matched between two characters. -/
def accepts (before after : Option Char) : Expr → Bool
  | empty => true
  | set _ => false
  | look l => l.holds before after
  | seq e f => e.accepts before after && f.accepts before after
  | alt e f => e.accepts before after || f.accepts before after
  | times e least _ => least == 0 || e.accepts before after

/-- One expression before another; nothing before it is the other alone. -/
def followedBy (f : Expr) : Expr → Expr
  | empty => f
  | e => seq e f

/-- What is still to be matched after the character `c`; in a repetition, rounds that match nothing
may be left out. -/
def step (before : Option Char) (c : Char) : Expr → List Expr
  | empty | look _ => []
  | set s => if s.contains c then [empty] else []
  | seq e f =>
    (e.step before c).map (followedBy f) ++
      if e.accepts before (some c) then f.step before c else []
  | alt e f => e.step before c ++ f.step before c
  | times e least most =>
    if most = some 0 then []
    else
      let least := if e.accepts before (some c) then 0 else least - 1
      (e.step before c).map (followedBy (times e least (most.map (· - 1))))

/-- Whether a match that has begun, or begins from here on, comes to an end. -/
def searchFrom (e : Expr) : Option Char → List Expr → List Char → Bool
  | before, live, [] => (e :: live).any (·.accepts before none)
  | before, live, c :: rest =>
    let live := live.insert e
    live.any (·.accepts before (some c)) ||
      searchFrom e (some c) (live.flatMap (·.step before c)).eraseDups rest

/-- Whether the expression matches some stretch of the text. -/
def isFoundIn (e : Expr) (text : List Char) : Bool := e.searchFrom none [] text

/-- Patterns compiled to expressions. -/
def backend : Backend where
  Compiled := Expr
  compile := compile
  isFoundIn := isFoundIn
  Spans e before stretch after := e.Spans before.getLast? stretch after.head?

end Expr

end TreeRules.Pattern
