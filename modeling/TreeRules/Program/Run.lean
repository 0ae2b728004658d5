import TreeRules.Engine.Basic
import TreeRules.Program.Arguments
import TreeRules.Program.Files
import TreeRules.Report.Json
import TreeRules.Report.Text

/-!
# Program/Run — one run of the program

Settings, document and rules are read in that order, every rule is bound, and each bound rule runs
on its nodes unless it listens for another event than the one asked for.  The run ends in 0 if the
report is valid, in 1 if it is not, and in 2 if there was nothing to report.
-/

namespace TreeRules

namespace Engine

/-- The entries that one bound rule adds to a report. -/
def reportRule (d : Document) (event : Option String) (id : Nat) :
    StateT Engine Logged (Except EngineError (List NodeReport)) := do
  match (← get).store.get? id with
  | none => return .ok []
  | some rule =>
    if event.any (· ≠ rule.event) then
      Logged.report .debug .program
        ("Skipping " ++ ruleText id ++ " (triggers on '" ++ rule.event ++ "')")
      return .ok []
    match ← validateRule d id with
    | .error e => return .error e
    | .ok outcomes =>
      return .ok <| outcomes.map fun (n, o) =>
        .ofOutcome id (d.describe n) rule.combination o

/-- The report on bound rules. -/
def reportRules (d : Document) (event : Option String) :
    List Nat → StateT Engine Logged (Except EngineError Report)
  | [] => return .ok .empty
  | id :: rest => do
    match ← reportRule d event id with
    | .error e => return .error e
    | .ok first =>
      match ← reportRules d event rest with
      | .error e => return .error e
      | .ok others => return .ok ⟨first ++ others.entries⟩

/-- The report on a document: every rule is bound and then run. -/
def report (d : Document) (rules : List Rule) (event : Option String) :
    StateT Engine Logged (Except EngineError Report) := do
  let bound ← bindRules d rules
  Logged.report .info .program
    (toString bound.length ++ " of " ++ toString (← get).store.ruleCount ++ " rule(s) bound")
  reportRules d event bound

end Engine

namespace Program

/-! ## What a run leaves behind -/

/-- What a run prints on both of its outputs, and how it ends. -/
structure Ending where
  code : Nat
  output : String
  messages : List String
  deriving DecidableEq, Repr

/-- What the program needs before it can work. -/
structure Input where
  config : EngineConfig
  document : Document
  rules : List Rule

/-- Everything that the arguments name, or what is missing. -/
def load (files : Files) (a : Arguments) : Except String Input := do
  let config ← match a.config with
    | some path =>
      (EngineConfig.load files path).mapError
        ("loading engine config " ++ path ++ ": " ++ ·.message)
    | none => pure EngineConfig.standard
  let document ← (Document.load files a.document).mapError
    ("loading document " ++ a.document ++ ": " ++ ·)
  let rules ← ((RulesFile.load files a.rules).bind (·.toRules)).mapError
    ("loading rules " ++ a.rules ++ ": " ++ ·.message)
  return ⟨config, document, rules⟩

/-- The report on the input. -/
def work (input : Input) (event : Option String) : Logged (Except EngineError Report) := do
  Logged.report .info .program
    (toString input.document.size ++ " element(s), " ++ toString input.rules.length ++ " rule(s)")
  let engine ← Engine.ofConfig input.config
  let (report, _) ← Engine.report input.document input.rules event engine
  return report

/-- A report as it is printed. -/
def output (styled : Bool) (format : OutputFormat) (r : Report) : String :=
  match format with
  | .text => r.text styled
  | .json => r.jsonText ++ "\n"

/-- A line about what kept the program from working. -/
def failureLine (styled : Bool) (text : String) : String :=
  Style.red.apply styled "[!]" ++ " " ++ text

/-- One run with given arguments. -/
def execute (files : Files) (styled : Bool) (a : Arguments) : Ending :=
  match load files a with
  | .error text => ⟨2, "", [failureLine styled text]⟩
  | .ok input =>
    let ⟨report, notices⟩ := work input a.event
    let limit := if a.plainLog then .warn else Level.ofVerbosity a.verbosity
    let lines := (notices.filter fun n => limit.shows n.level).map (·.line)
    match report with
    | .error e => ⟨2, "", lines ++ [failureLine styled e.message]⟩
    | .ok r => ⟨if r.isValid then 0 else 1, output styled a.format r, lines⟩

/-! ## The command line -/

def name : String := "vanadium"

def version : String := "2.0.0"

def usage : String :=
  "Rule-driven validation for element trees\n\n" ++
  "Usage: " ++ name ++ " [OPTIONS] --document <DOCUMENT> --rules <RULES>\n\n" ++
  "Options:\n" ++
  "  -d, --document <DOCUMENT>  Element tree as a JSON array of elements\n" ++
  "  -r, --rules <RULES>        Rule file\n" ++
  "  -c, --config <CONFIG>      Engine settings (fallback message, path cache)\n" ++
  "  -e, --event <EVENT>        Only run rules that trigger on this event\n" ++
  "  -f, --format <FORMAT>      text or json\n" ++
  "  -v, --verbose...           Show more notices\n" ++
  "      --env-log              Show warnings only\n" ++
  "  -h, --help                 Print help\n" ++
  "  -V, --version              Print version\n"

/-- One run of the program on a command line. -/
def run (files : Files) (styled : Bool) (arguments : List String) : Ending :=
  match Arguments.parse arguments with
  | .error .help => ⟨0, usage, []⟩
  | .error .version => ⟨0, name ++ " " ++ version ++ "\n", []⟩
  | .error .mistake => ⟨2, "", ["error: the command line is not understood", "", usage]⟩
  | .ok a => execute files styled a

end Program

end TreeRules
