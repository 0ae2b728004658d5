import TreeRules.Json.Basic
import TreeRules.Rule.Basic

/-!
# Rule/Outcome — what running a rule on a node leaves behind

Every failure is a record marked with the binding it came from; a binding that could not run is a
diagnostic instead.  Whether the node passes is read off the records and the bindings that ran.
-/

namespace TreeRules

/-- One failure of one node. -/
structure Record where
  severity : String
  message : String
  node : Nat
  element : String
  validator : String
  kind : String
  binding : Nat
  deriving DecidableEq, Repr

namespace Record

def isError (r : Record) : Bool := r.severity == "error"

/-- A record as it is shown. -/
def text (r : Record) : String :=
  "[" ++ r.severity ++ "] " ++ r.element ++ ": " ++ r.message ++ " (" ++ r.validator ++ "/" ++
    r.kind ++ ")"

def toJson (r : Record) : Json :=
  .object
    [
      ("type", .string r.severity), ("message", .string r.message), ("node", .int r.node),
      ("element", .string r.element), ("validator", .string r.validator),
      ("errorType", .string r.kind), ("binding", .int r.binding)
    ]

end Record

/-- A fault of the rule itself, met while it ran. -/
inductive Diagnostic where
  | unknownValidator (binding : Nat) (name : String)
  deriving DecidableEq, Repr

def Diagnostic.text : Diagnostic → String
  | unknownValidator binding name =>
    "binding " ++ toString binding ++ ": '" ++ name ++ "' is not a registered validator"

/-- What running a rule leaves behind; `ran` are the bindings that ran. -/
structure Outcome where
  records : List Record
  diagnostics : List Diagnostic
  ran : List Nat
  deriving DecidableEq, Repr

namespace Outcome

def empty : Outcome := ⟨[], [], []⟩

/-- Two outcomes, one after the other. -/
def append (a b : Outcome) : Outcome :=
  ⟨a.records ++ b.records, a.diagnostics ++ b.diagnostics, a.ran ++ b.ran⟩

instance : Append Outcome := ⟨append⟩

@[simp] theorem records_append (a b : Outcome) : (a ++ b).records = a.records ++ b.records := rfl

@[simp] theorem diagnostics_append (a b : Outcome) :
    (a ++ b).diagnostics = a.diagnostics ++ b.diagnostics := rfl

@[simp] theorem ran_append (a b : Outcome) : (a ++ b).ran = a.ran ++ b.ran := rfl

/-- A binding that ran and left no record. -/
def isContent (o : Outcome) (binding : Nat) : Bool :=
  o.ran.contains binding && !o.records.any (·.binding == binding)

/-- With `and` there must be no record at all; with `or` one content binding is enough, and a rule
of which no binding ran passes. -/
def passes (o : Outcome) : Combination → Bool
  | .and => o.records.isEmpty
  | .or => o.ran.isEmpty || o.ran.any o.isContent

end Outcome

end TreeRules
