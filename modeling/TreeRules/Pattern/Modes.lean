/-!
# Pattern/Modes — the switches that change how a pattern is read

A pattern begins in some modes and may switch them inside, for the rest of a group or for a group
of its own: `(?i-s)` and `(?x:…)`.
-/

namespace TreeRules.Pattern

/-- A switch. -/
inductive Flag where
  | ignoreCase
  | multiLine
  | dotAll
  | unicode
  | swapGreed
  | crlf
  | ignoreBlanks
  deriving DecidableEq, Repr

/-- The switch that a letter names. -/
def Flag.ofLetter? : Char → Option Flag
  | 'i' => some .ignoreCase
  | 'm' => some .multiLine
  | 's' => some .dotAll
  | 'u' => some .unicode
  | 'U' => some .swapGreed
  | 'R' => some .crlf
  | 'x' => some .ignoreBlanks
  | _ => none

/-- Switches thrown at one place, with the position each is thrown to. -/
abbrev FlagChanges := List (Flag × Bool)

/-- The modes in force at a place of a pattern. -/
structure Modes where
  ignoreCase : Bool := false
  multiLine : Bool := false
  dotAll : Bool := false
  unicode : Bool := true
  crlf : Bool := false
  ignoreBlanks : Bool := false
  deriving DecidableEq, Repr

namespace Modes

/-- The modes with one switch thrown; what a repetition prefers makes no mode. -/
def set (m : Modes) : Flag → Bool → Modes
  | .ignoreCase, b => { m with ignoreCase := b }
  | .multiLine, b => { m with multiLine := b }
  | .dotAll, b => { m with dotAll := b }
  | .unicode, b => { m with unicode := b }
  | .swapGreed, _ => m
  | .crlf, b => { m with crlf := b }
  | .ignoreBlanks, b => { m with ignoreBlanks := b }

def change (m : Modes) (changes : FlagChanges) : Modes :=
  changes.foldl (fun m (flag, b) => m.set flag b) m

@[simp] theorem change_nil (m : Modes) : m.change [] = m := rfl

end Modes

end TreeRules.Pattern
