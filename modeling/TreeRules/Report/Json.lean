import TreeRules.Json.Printer
import TreeRules.Report.Basic

/-!
# Report/Json — a report for a program

The verdict, the totals and every entry with its records.
-/

namespace TreeRules

def NodeReport.toJson (e : NodeReport) : Json :=
  .object
    [
      ("rule", .int e.rule), ("element", .string e.element),
      ("combination", .string e.combination.name), ("passed", .bool e.passed),
      ("records", .array (e.records.map (·.toJson))),
      ("diagnostics", .array (e.diagnostics.map .string))
    ]

/-- The totals. -/
def Summary.toJson (s : Summary) : Json :=
  .object
    [
      ("nodes_checked", .int s.nodesChecked), ("nodes_failed", .int s.nodesFailed),
      ("error_count", .int s.errorCount), ("warning_count", .int s.warningCount),
      ("other_count", .int s.otherCount), ("diagnostic_count", .int s.diagnosticCount)
    ]

def TalliedReport.toJson (r : TalliedReport) : Json :=
  .object
    [
      ("valid", .bool r.isValid), ("summary", r.summary.toJson),
      ("entries", .array (r.entries.map (·.toJson)))
    ]

/-- A report as JSON text, its totals counted on the way. -/
def Report.jsonText (r : Report) : String := r.tallied.toJson.pretty

end TreeRules
