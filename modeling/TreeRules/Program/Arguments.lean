import TreeRules.Notice

/-!
# Program/Arguments — what the command line asks for

Options have a long name and a letter; a value stands in the next argument, after an equals sign,
or right after the letter.  Letters without a value may be run together.  Arguments are taken from
left to right, so a request for the version counts unless a mistake came before it.
-/

namespace TreeRules

/-- How the report is written. -/
inductive OutputFormat where
  | text
  | json
  deriving DecidableEq, Repr

def OutputFormat.ofName? (name : String) : Option OutputFormat :=
  if name = "text" then some .text else if name = "json" then some .json else none

/-- What the command line asks for, if nothing but the version or help is asked. -/
structure Arguments where
  document : String
  rules : String
  config : Option String
  event : Option String
  format : OutputFormat
  verbosity : Nat
  plainLog : Bool
  deriving DecidableEq, Repr

/-- Why the command line is not obeyed. -/
inductive UsageStop where
  | help
  | version
  | mistake
  deriving DecidableEq, Repr

namespace Arguments

/-! ## Options -/

/-- An option with a value. -/
inductive Setting where
  | document
  | rules
  | config
  | event
  | format
  deriving DecidableEq, Repr

/-- An option. -/
inductive Choice where
  | setting (s : Setting)
  | verbose
  | plainLog
  | help
  | version
  deriving DecidableEq, Repr

def Choice.ofName? : String → Option Choice
  | "document" => some (.setting .document)
  | "rules" => some (.setting .rules)
  | "config" => some (.setting .config)
  | "event" => some (.setting .event)
  | "format" => some (.setting .format)
  | "verbose" => some .verbose
  | "env-log" => some .plainLog
  | "help" => some .help
  | "version" => some .version
  | _ => none

def Choice.ofLetter? : Char → Option Choice
  | 'd' => some (.setting .document)
  | 'r' => some (.setting .rules)
  | 'c' => some (.setting .config)
  | 'e' => some (.setting .event)
  | 'f' => some (.setting .format)
  | 'v' => some .verbose
  | 'h' => some .help
  | 'V' => some .version
  | _ => none

/-! ## Taking options -/

/-- The options taken so far. -/
structure Draft where
  document : Option String := none
  rules : Option String := none
  config : Option String := none
  event : Option String := none
  format : Option OutputFormat := none
  verbosity : Nat := 0
  plainLog : Bool := false

/-- A value that is not given yet; the name of a file is not empty. -/
def pathInto (old : Option String) (value : String) : Except UsageStop (Option String) :=
  if old.isSome ∨ value = "" then .error .mistake else .ok (some value)

/-- The draft with an option that has a value. -/
def Draft.assign (d : Draft) (s : Setting) (value : String) : Except UsageStop Draft :=
  match s with
  | .document => do return { d with document := ← pathInto d.document value }
  | .rules => do return { d with rules := ← pathInto d.rules value }
  | .config => do return { d with config := ← pathInto d.config value }
  | .event => if d.event.isSome then .error .mistake else .ok { d with event := some value }
  | .format =>
    match d.format, OutputFormat.ofName? value with
    | none, some format => .ok { d with format := some format }
    | _, _ => .error .mistake

/-- The draft with an option that has no value; counting stops at 255. -/
def Draft.choose (d : Draft) : Choice → Except UsageStop Draft
  | .verbose => .ok { d with verbosity := min 255 (d.verbosity + 1) }
  | .plainLog => if d.plainLog then .error .mistake else .ok { d with plainLog := true }
  | .help => .error .help
  | .version => .error .version
  | .setting _ => .error .mistake

/-- What follows the letter of an option with a value, without an equals sign before it. -/
def attached? : List Char → Option String
  | [] => none
  | '=' :: value => some (String.ofList value)
  | value => some (String.ofList value)

/-- The draft with the options of letters run together, and the option that still waits for a
value. -/
def letters (d : Draft) : List Char → Except UsageStop (Draft × Option Setting)
  | [] => .ok (d, none)
  | c :: rest =>
    match Choice.ofLetter? c with
    | none => .error .mistake
    | some (.setting s) =>
      match attached? rest with
      | some value => return (← d.assign s value, none)
      | none => .ok (d, some s)
    | some choice => do letters (← d.choose choice) rest

/-- A long name and the value after its equals sign. -/
def splitValue (text : List Char) : String × Option String :=
  let name := text.takeWhile (· != '=')
  match text.drop name.length with
  | _ :: value => (String.ofList name, some (String.ofList value))
  | [] => (String.ofList name, none)

/-- The draft with an option of a long name, and the option that still waits for a value. -/
def long (d : Draft) (text : List Char) : Except UsageStop (Draft × Option Setting) :=
  let (name, value) := splitValue text
  match Choice.ofName? name, value with
  | some (.setting s), some value => do return (← d.assign s value, none)
  | some (.setting s), none => .ok (d, some s)
  | some choice, none => do return (← d.choose choice, none)
  | _, _ => .error .mistake

/-- The draft with all arguments, the first being the value of `waiting` unless it is an option. -/
def take (d : Draft) (waiting : Option Setting) : List String → Except UsageStop Draft
  | [] => if waiting.isSome then .error .mistake else .ok d
  | argument :: rest =>
    match argument.toList, waiting with
    | ['-', '-'], none => if rest = [] then .ok d else .error .mistake
    | '-' :: '-' :: text, none => do
      let (d, waiting) ← long d text
      take d waiting rest
    | '-' :: c :: text, none => do
      let (d, waiting) ← letters d (c :: text)
      take d waiting rest
    | '-' :: _ :: _, some _ => .error .mistake
    | _, some s => do take (← d.assign s argument) none rest
    | _, none => .error .mistake

/-- What the command line asks for; a document and rules are needed. -/
def parse (arguments : List String) : Except UsageStop Arguments := do
  let d ← take {} none arguments
  match d.document, d.rules with
  | some document, some rules =>
    return ⟨document, rules, d.config, d.event, d.format.getD .text, d.verbosity, d.plainLog⟩
  | _, _ => .error .mistake

end Arguments

end TreeRules
