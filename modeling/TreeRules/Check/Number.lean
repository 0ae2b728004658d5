import TreeRules.Number.Multiple
import TreeRules.Options
import TreeRules.Pattern.Matching

/-!
# Check/Number — values that should be numbers

A value is a number when it is empty, a radix integer, a spelling of infinity or a decimal literal,
between blanks.  The bounds, the step and the refusal of exponents are asked only of a number.
-/

namespace TreeRules.Check.Number

/-! ## Kinds of failure -/

def kindNumber : String := "number"
def kindMin : String := "min"
def kindMax : String := "max"
def kindStep : String := "step"
def kindNoScientific : String := "noScientific"

/-- The message for each kind of failure. -/
def messages : Table String :=
  .ofList [
    (kindNumber, "The value is not a number."),
    (kindMin, "The value is smaller than the allowed minimum."),
    (kindMax, "The value is bigger than the allowed maximum."),
    (kindStep, "The value is not a multiple of the allowed step."),
    (kindNoScientific, "The value must not use scientific notation.")]

/-! ## Reading a number -/

/-- The radix that the first two characters announce. -/
def radix? : List Char → Option Nat
  | ['0', 'x'] => some 16
  | ['0', 'o'] => some 8
  | ['0', 'b'] => some 2
  | _ => none

/-- The number that a text without blanks around it denotes. -/
def ofToken? (t : List Char) : Option Binary64 :=
  if t = [] then some .zero
  else
    let lower := t.map Char.toLower
    match radix? (lower.take 2) with
    | some radix => (Literal.radixInteger? radix (lower.drop 2)).map .ofNat
    | none =>
      if t = "Infinity".toList || t = "+Infinity".toList then some (.infinite false)
      else if t = "-Infinity".toList then some (.infinite true)
      else Literal.decimal? t

/-- The number that a value denotes. -/
def ofText? (value : String) : Option Binary64 := ofToken? (Text.trim value.toList)

/-! ## Scientific notation -/

/-- A signed decimal with digits before or after its point, then a letter `e` and an exponent. -/
def scientificPattern : String := "^[+-]?(?:\\d+\\.?\\d*|\\.\\d+)[eE][+-]?\\d+$"

/-- What the pattern matches; its digits are those of every script. -/
def scientific? : Option Pattern.Expr := Pattern.Expr.ofPattern? {} scientificPattern.toList

/-- The pattern is found in the text. -/
def isScientific (t : List Char) : Bool := scientific?.any (·.isFoundIn t)

/-! ## The check -/

/-- The kind, if the test fails. -/
def failing (kind : String) (fails : Bool) : List String := if fails then [kind] else []

/-- The number lies below the bound, or at it when the bound itself is excluded. -/
def below (number : Binary64) (options : Options) : Bool :=
  match options.number? "min" with
  | none => false
  | some bound => number.lt bound || (!options.flagOr "inclusiveMin" true && number.eq bound)

/-- The number lies above the bound, or at it when the bound itself is excluded. -/
def above (number : Binary64) (options : Options) : Bool :=
  match options.number? "max" with
  | none => false
  | some bound => bound.lt number || (!options.flagOr "inclusiveMax" true && number.eq bound)

/-- The number is no multiple of the step, of either sign; a step of zero asks nothing. -/
def offStep (number : Binary64) (options : Options) : Bool :=
  match options.number? "step" with
  | none => false
  | some s => !s.eq .zero && !number.isMultipleOf s.abs

/-- What is wrong with a value as a number. -/
def check (value : String) (options : Options) : List String :=
  match ofText? value with
  | none => [kindNumber]
  | some number =>
    failing kindMin (below number options) ++
      failing kindMax (above number options) ++
      failing kindStep (offStep number options) ++
      failing kindNoScientific
        (options.flag "noScientific" && isScientific (Text.trim value.toList))

end TreeRules.Check.Number
