import TreeRules.Check.Number

/-!
# Check/Range — values that should be ranges of numbers

A range is a lower bound, a separator and an upper bound.  The separator is taken where it first
stands after some text that does not end in the letter `e`, so neither a leading sign nor the sign
of an exponent cuts; an open-ended range may leave one bound away.
-/

namespace TreeRules.Check.Range

/-! ## Kinds of failure -/

def kindRange : String := "range"
def kindNoSpaces : String := "noSpaces"

/-- The message for each kind of failure, those of the bounds among them. -/
def messages : Table String :=
  (Number.messages.insert kindRange "The value is not a valid range.").insert kindNoSpaces
    "The range must not contain spaces."

/-! ## Splitting -/

/-- Whether the text ends in the letter of an exponent, blanks aside. -/
def endsInExponentLetter (s : List Char) : Bool :=
  match (Text.trimEnd s).getLast? with
  | some c => c == 'e' || c == 'E'
  | none => false

/-- The first occurrence of the separator in `rest` that may cut, occurrences being taken from the
left without overlap; `before` is what stands in front of `rest`. -/
def cut? (separator : List Char) (before : List Char) (rest : List Char) :
    Option (List Char × List Char) :=
  match _h : rest with
  | [] => none
  | c :: s =>
    if separator.isPrefixOf (c :: s) && 0 < separator.length then
      if !before.isEmpty && !endsInExponentLetter before then
        some (before, (c :: s).drop separator.length)
      else
        cut? separator (before ++ separator) ((c :: s).drop separator.length)
    else cut? separator (before ++ [c]) s
termination_by rest.length
decreasing_by
  · next hp _ =>
    simp only [Bool.and_eq_true, decide_eq_true_eq] at hp
    simp only [List.length_drop, List.length_cons]
    omega
  · simp

/-- The texts of the two bounds; an open-ended range may start with the separator. -/
def bounds? (text separator : List Char) (openEnded : Bool) : Option (List Char × List Char) :=
  match cut? separator [] text with
  | some b => some b
  | none =>
    if openEnded && separator.isPrefixOf text then some ([], text.drop separator.length) else none

/-! ## The check -/

/-- What is wrong with one bound, and its number if it has one. -/
def checkBound (text : List Char) (openEnded : Bool) (options : Options) :
    List String × Option Binary64 :=
  let bound := Text.trim text
  if bound = [] then (Number.failing kindRange (!openEnded), none)
  else
    let kinds := Number.check (String.ofList bound) options
    (kinds, if kinds.contains Number.kindNumber then none else Number.ofToken? bound)

/-- The kinds in order of their first occurrence. -/
def distinct (kinds : List String) : List String := kinds.eraseDups

/-- What is wrong with a value as a range. -/
def check (value : String) (options : Options) : List String :=
  let text := value.toList
  let spaces := Number.failing kindNoSpaces (options.flag "noSpaces" && text.any Text.isBlank)
  let separator := ((options.string? "separator").filter (· ≠ "")).getD "-"
  let openEnded := options.flag "openEnded"
  match bounds? (Text.trim text) separator.toList openEnded with
  | none => spaces ++ [kindRange]
  | some (lower, upper) =>
    if Text.isBlankText lower && Text.isBlankText upper then spaces ++ [kindRange]
    else
      let (lowerKinds, low) := checkBound lower openEnded options
      let (upperKinds, high) := checkBound upper openEnded options
      let reversed := match low, high with
        | some low, some high => high.lt low
        | _, _ => false
      distinct (spaces ++ lowerKinds ++ upperKinds ++ Number.failing kindRange reversed)

end TreeRules.Check.Range
