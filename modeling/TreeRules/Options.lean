import TreeRules.Json.Basic
import TreeRules.Number.Literal
import TreeRules.Text.Blank

/-!
# Options — the settings of a validator, loosely typed

Settings are any values under names.  A number may be given as its text, a flag is whatever counts
as true, and a single string stands for the list of it.
-/

namespace TreeRules

/-- Settings by name. -/
abbrev Options := Table Json

/-- What counts as true: anything but null, false, zero, and the empty string. -/
def Json.isTruthy : Json → Bool
  | .null => false
  | .bool b => b
  | .int n => n != 0
  | .float x => x != .nan && !x.eq .zero
  | .string s => s != ""
  | .array _ => true
  | .object _ => true

namespace Options

/-- A number, or a string that is a decimal literal of finite value between blanks. -/
def number? (o : Options) (name : String) : Option Binary64 :=
  match o.get? name with
  | some (.string s) => (Literal.decimal? (Text.trim s.toList)).filter (·.isFinite)
  | some v => v.number?
  | none => none

def flagOr (o : Options) (name : String) (default : Bool) : Bool :=
  ((o.get? name).map Json.isTruthy).getD default

def flag (o : Options) (name : String) : Bool := o.flagOr name false

def string? (o : Options) (name : String) : Option String := (o.get? name).bind Json.string?

/-- The strings of a list, or the one that is given; what is no string is passed over. -/
def strings (o : Options) (name : String) : List String :=
  match o.get? name with
  | some (.array items) => items.filterMap Json.string?
  | some (.string s) => [s]
  | _ => []

end Options

end TreeRules
