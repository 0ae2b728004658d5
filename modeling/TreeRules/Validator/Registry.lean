import TreeRules.Validator.Basic

/-!
# Validator/Registry — validators under their names

A name is registered once and stays.  Each comes with messages for the kinds of failure it
reports, which a rule may override.
-/

namespace TreeRules

/-- A validator and its messages by kind. -/
structure Registration where
  validator : Validator
  messages : Table String

/-- Why a validator was not registered. -/
inductive RegistrationError where
  | invalidName (name : String)
  | alreadyRegistered (name : String)
  deriving DecidableEq, Repr

def RegistrationError.message : RegistrationError → String
  | invalidName name => "Invalid validator name: '" ++ name ++ "'"
  | alreadyRegistered name => "Validator already registered: " ++ name

/-- Validators in the order in which they were registered. -/
abbrev Registry := Table Registration

namespace Registry

/-- A name is not empty and holds no blanks. -/
def isName (name : String) : Bool := name != "" && !name.toList.any Text.isBlank

/-- The registry with one more validator, if the name is free. -/
def add? (r : Registry) (name : String) (entry : Registration) :
    Except RegistrationError Registry :=
  if !isName name then .error (.invalidName name)
  else if r.contains name then .error (.alreadyRegistered name)
  else .ok (r.insert name entry)

/-- Registers a validator, and says so. -/
def register (name : String) (entry : Registration) :
    StateT Registry Logged (Except RegistrationError Unit) := fun r =>
  match r.add? name entry with
  | .error e => return (.error e, r)
  | .ok r => do
    Logged.report .debug .registry ("Registered validator '" ++ name ++ "'")
    return (.ok (), r)

/-- Registers a validator for a caller who only asks whether that worked. -/
def tryRegister (name : String) (entry : Registration) : StateT Registry Logged Bool := do
  match ← register name entry with
  | .ok () => return true
  | .error e =>
    Logged.report .warn .registry e.message
    return false

/-- The message of a validator for a kind of failure. -/
def message? (r : Registry) (name kind : String) : Option String :=
  (r.get? name).bind (·.messages.get? kind)

/-! ## Built-in validators -/

/-- The validators that come with the library. -/
def builtins : List (String × Registration) :=
  [
    ("number", ⟨.number, Check.Number.messages⟩),
    ("range", ⟨.range, Check.Range.messages⟩),
    ("pattern", ⟨.pattern, Check.Pattern.messages⟩),
    ("mustNotBeEqual", ⟨.mustNotBeEqual, Check.Equality.messagesOfMustNotBeEqual⟩),
    ("mustBeEqual", ⟨.mustBeEqual, Check.Equality.messagesOfMustBeEqual⟩)
  ]

/-- Registers one built-in validator; a name that is taken is left alone. -/
def registerBuiltin (name : String) (entry : Registration) : StateT Registry Logged Unit := do
  match ← register name entry with
  | .ok () => return
  | .error (.alreadyRegistered name) =>
    Logged.report .debug .validators
      ("Built-in '" ++ name ++ "' already registered, keeping existing")
  | .error e => Logged.report .warn .validators e.message

/-- Registers the built-in validators whose names are free. -/
def registerBuiltins : StateT Registry Logged Unit :=
  builtins.forM fun (name, entry) => registerBuiltin name entry

/-- The built-in validators alone. -/
def withBuiltins : Logged Registry := do
  let ((), r) ← registerBuiltins .empty
  return r

end Registry

end TreeRules
