import TreeRules.Document.Json
import TreeRules.Engine.Config
import TreeRules.Rule.File

/-!
# Program/Files — documents, rules and settings from files

What is found under a path is a text, something that is no text, or a directory.  Files of rules
and of settings are named `….json`; a document may have any name.
-/

namespace TreeRules

/-! ## Files -/

/-- What is found under a path. -/
inductive FileContent where
  | text (text : String)
  /-- Bytes that are not the encoding of a text. -/
  | noText
  | directory
  deriving DecidableEq, Repr

/-- What is found under the paths, if anything. -/
abbrev Files := String → Option FileContent

/-- Why nothing was read from what is there. -/
def FileContent.reason? : FileContent → Except String String
  | text t => .ok t
  | noText => .error "stream did not contain valid UTF-8"
  | directory => .error "Is a directory (os error 21)"

/-! ## Endings -/

/-- What follows the last point of a name that has something before it. -/
def nameEnding (name : List Char) : List Char :=
  let ending := (name.reverse.takeWhile (· != '.')).reverse
  if ending.length + 1 < name.length then ending else []

/-- The ending of the last name in a path; the directory above has none. -/
def pathEnding (path : String) : String :=
  let names := (path.toList.splitOnP (· == '/')).filter fun n => n ≠ [] ∧ n ≠ ['.']
  match names.getLast? with
  | some name => if name = ['.', '.'] then "" else String.ofList (nameEnding name)
  | none => ""

/-- Whether two letters agree but for the case of ASCII. -/
def isJsonEnding (ending : String) : Bool := ending.toList.map Char.toLower == "json".toList

/-! ## Loading -/

/-- The text of a JSON file of settings or rules. -/
def jsonText (files : Files) (path : String) : Except Fault String :=
  match files path with
  | none => .error (.notFound path)
  | some content =>
    let ending := pathEnding path
    if !isJsonEnding ending then .error (.unsupportedFormat ending)
    else content.reason?.mapError .unreadable

/-- The rules file under a path. -/
def RulesFile.load (files : Files) (path : String) : Except Fault RulesFile := do
  let text ← jsonText files path
  match RulesFile.ofText? text with
  | some file => .ok file
  | none => .error .malformed

/-- The settings under a path, if they make sense. -/
def EngineConfig.load (files : Files) (path : String) : Except Fault EngineConfig := do
  let text ← jsonText files path
  match EngineConfig.ofText? text with
  | some config => do
    config.validate
    return config
  | none => .error .malformed

/-- The document under a path, or what keeps it from being read. -/
def Document.load (files : Files) (path : String) : Except String Document :=
  let text : Except String String := match files path with
    | none => .error "No such file or directory (os error 2)"
    | some content => content.reason?
  match text with
  | .error reason => .error ("Document parse error: " ++ path ++ ": " ++ reason)
  | .ok text =>
    match Document.ofText? text with
    | some d => .ok d
    | none => .error "Document parse error: the text does not have the expected form"

end TreeRules
