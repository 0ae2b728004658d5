import TreeRules.Json.Printer
import TreeRules.Options
import TreeRules.Path.Resolver

/-!
# Check/Equality — values that should, or should not, be the same

The paths of the option `targets` lead to the nodes whose values are compared.  `all` means that
every value is the same, `some` that two of them are; each is the other's opposite number, so the
two checks run one comparison.
-/

namespace TreeRules.Check.Equality

/-- How many of the values have to be the same. -/
inductive Extent where
  | all
  | some
  deriving DecidableEq, Repr

namespace Extent

def name : Extent → String
  | all => "all"
  | some => "some"

def ofName? (s : String) : Option Extent := [all, .some].find? fun e => e.name == s

def flipped : Extent → Extent
  | all => some
  | some => all

/-- The extent that the options ask for; without one, or with an unknown one, `all`. -/
def ofOptions (options : Options) : Logged Extent :=
  match options.get? "equalityType" with
  | none => pure all
  | .some v =>
    match v.string?.bind ofName? with
    | .some e => pure e
    | none => do
      Logged.report .warn .equality
        ("Unknown equalityType " ++ v.compact ++ ", comparing with 'all'")
      return all

/-- Whether values are the same to this extent. -/
def holdsOf (values : List String) : Extent → Bool
  | all => values.all fun v => values.head?.all (· == v)
  | some => decide ¬ values.Nodup

end Extent

/-- Whether the values of the nodes compare equal; fewer than two never do. -/
def compare (d : Document) (nodes : List Nat) (extent : Extent) : Bool :=
  2 ≤ nodes.length && extent.holdsOf (nodes.map d.value)

/-! ## Kinds of failure -/

def kindAreNotEqual : String := "areNotEqual"
def kindMustNotEqual : String := "mustNotEqual"

def messagesOfMustNotBeEqual : Table String :=
  Table.ofList [(kindAreNotEqual, "The compared values must not be equal.")]

def messagesOfMustBeEqual : Table String :=
  Table.ofList [(kindMustNotEqual, "The compared values must be equal.")]

/-! ## The checks -/

/-- The nodes that one target leads to; a target that leads nowhere is reported and left out. -/
def reached (d : Document) (n : Nat) (target : String) : StateT Resolver Logged (List Nat) := do
  match ← Resolver.resolveFrom d n target with
  | .ok nodes => return nodes
  | .error e =>
    Logged.report .warn .equality
      ("Skipping target '" ++ target ++ "' of " ++ d.describe n ++ ": " ++ e.message)
    return []

/-- The nodes to be compared, target by target. -/
def targets (d : Document) (n : Nat) (options : Options) : StateT Resolver Logged (List Nat) := do
  let paths := options.strings "targets"
  if paths = [] then
    Logged.report .warn .equality ("Equality check on " ++ d.describe n ++ " has no 'targets'")
  return (← paths.mapM (reached d n)).flatten

/-- Whether the targets compare equal to the extent given. -/
def areEqual (d : Document) (n : Nat) (options : Options) (extent : Extent) :
    StateT Resolver Logged Bool := do
  let nodes ← targets d n options
  Logged.report .trace .equality
    (d.describe n ++ " comparing " ++ toString nodes.length ++ " node(s) with '" ++
      extent.name ++ "'")
  return compare d nodes extent

/-- Fails where the targets compare equal. -/
def mustNotBeEqual (d : Document) (n : Nat) (options : Options) :
    StateT Resolver Logged (List String) := do
  if ← areEqual d n options (← Extent.ofOptions options) then return [kindAreNotEqual]
  return []

/-- Fails where the targets do not compare equal to the flipped extent. -/
def mustBeEqual (d : Document) (n : Nat) (options : Options) :
    StateT Resolver Logged (List String) := do
  if ← areEqual d n options (← Extent.ofOptions options).flipped then return []
  return [kindMustNotEqual]

end TreeRules.Check.Equality
