import TreeRules.Report.Basic

/-!
# Report/Text — a report for a reader

The totals come first, then every entry that has something to say.  In colour, the words that
matter are set between escape sequences; a sequence inside such a word that ends all styles is
followed by the style again.
-/

namespace TreeRules

/-! ## Styles -/

/-- How a word is set off. -/
inductive Style where
  | bold
  | boldGreen
  | boldRed
  | red
  | yellow
  | blue
  | dimmed
  deriving DecidableEq, Repr

namespace Style

def codes : Style → String
  | bold => "1"
  | boldGreen => "1;32"
  | boldRed => "1;31"
  | red => "31"
  | yellow => "33"
  | blue => "34"
  | dimmed => "2"

/-- The sequence that ends all styles. -/
def reset : String := "\x1b[0m"

/-- The sequence that begins a style. -/
def start (s : Style) : String := "\x1b[" ++ s.codes ++ "m"

/-- A text in a style, if styles are shown. -/
def apply (shown : Bool) (s : Style) (text : String) : String :=
  if shown then
    s.start ++ String.intercalate (reset ++ s.start) (text.splitOn reset) ++ reset
  else text

/-- The style of a severity. -/
def ofSeverity (severity : String) : Style :=
  if severity = "error" then red else if severity = "warning" then yellow else blue

end Style

/-! ## Lines -/

/-- A count that is shown only if there is something to count. -/
def countLine (name : String) (count : Nat) : List String :=
  if count = 0 then [] else ["  " ++ name ++ ": " ++ toString count]

def Record.line (styled : Bool) (r : Record) : String :=
  "    - [" ++ (Style.ofSeverity r.severity).apply styled r.severity ++ "] " ++ r.message ++
    " (" ++ r.kind ++ ")"

namespace NodeReport

def status (e : NodeReport) : String := if e.passed then "PASS" else "FAIL"

/-- The style of a status. -/
def statusStyle (e : NodeReport) : Style := if e.passed then .boldGreen else .boldRed

/-- The line that an entry begins with. -/
def headLine (styled : Bool) (e : NodeReport) : String :=
  e.statusStyle.apply styled e.status ++ " " ++ e.element ++ " (" ++ ruleText e.rule ++ ", " ++
    e.combination.name ++ ")"

/-- The lines of an entry, none if nothing went wrong in it. -/
def lines (styled : Bool) (e : NodeReport) : List String :=
  if e.records = [] ∧ e.diagnostics = [] then []
  else
    ["", e.headLine styled] ++ e.records.map (·.line styled) ++
      e.diagnostics.map fun d => "    ! " ++ Style.dimmed.apply styled d

end NodeReport

namespace Summary

/-- The lines of the totals. -/
def lines (s : Summary) : List String :=
  [
    "Checked " ++ toString s.nodesChecked ++ " node(s), " ++ toString s.nodesFailed ++ " failed",
    "  Errors: " ++ toString s.errorCount,
    "  Warnings: " ++ toString s.warningCount
  ] ++ countLine "Other" s.otherCount ++ countLine "Config problems" s.diagnosticCount

end Summary

namespace TalliedReport

def lines (styled : Bool) (r : TalliedReport) : List String :=
  Style.bold.apply styled "=== Validation Report ===" :: r.summary.lines ++
    r.entries.flatMap (·.lines styled)

/-- The report as a text, each line ended. -/
def text (styled : Bool) (r : TalliedReport) : String :=
  String.join ((r.lines styled).map (· ++ "\n"))

end TalliedReport

/-- The text of a report whose totals are counted on the way. -/
def Report.text (styled : Bool) (r : Report) : String := r.tallied.text styled

end TreeRules
