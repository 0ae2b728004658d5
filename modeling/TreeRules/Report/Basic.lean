import TreeRules.Rule.Outcome

/-!
# Report/Basic — what a run over many nodes comes to

A report lists one entry per node and rule; the totals are counts over the entries.  It is valid
unless some entry failed with a record of severity `error`.  A report that is shown keeps its totals
beside the entries and adds to them as the entries come.
-/

namespace TreeRules

/-- The result of one rule on one node. -/
structure NodeReport where
  rule : Nat
  element : String
  combination : Combination
  passed : Bool
  records : List Record
  diagnostics : List String
  deriving DecidableEq, Repr

namespace NodeReport

def ofOutcome (rule : Nat) (element : String) (combination : Combination) (o : Outcome) :
    NodeReport :=
  ⟨rule, element, combination, o.passes combination, o.records, o.diagnostics.map (·.text)⟩

/-- Failed, with at least one record of severity `error`. -/
def isBlocking (r : NodeReport) : Bool := !r.passed && r.records.any (·.isError)

end NodeReport

/-- The entries in the order in which they were added. -/
structure Report where
  entries : List NodeReport
  deriving DecidableEq, Repr

namespace Report

def empty : Report := ⟨[]⟩

def add (r : Report) (entry : NodeReport) : Report := ⟨r.entries ++ [entry]⟩

def failures (r : Report) : List NodeReport := r.entries.filter (!·.passed)

def isValid (r : Report) : Bool := !r.entries.any (·.isBlocking)

/-! ## Totals -/

def nodesChecked (r : Report) : Nat := r.entries.length

def nodesFailed (r : Report) : Nat := r.failures.length

def records (r : Report) : List Record := r.entries.flatMap (·.records)

def errorCount (r : Report) : Nat := (r.records.filter (·.severity == "error")).length

def warningCount (r : Report) : Nat := (r.records.filter (·.severity == "warning")).length

/-- Records that are neither errors nor warnings. -/
def otherCount (r : Report) : Nat :=
  (r.records.filter fun x => x.severity != "error" && x.severity != "warning").length

def diagnosticCount (r : Report) : Nat := (r.entries.flatMap (·.diagnostics)).length

/-- Every record is counted once. -/
theorem length_records (r : Report) :
    r.records.length = r.errorCount + r.warningCount + r.otherCount := by
  simp only [errorCount, warningCount, otherCount]
  induction r.records with
  | nil => rfl
  | cons x rest ih =>
    by_cases he : x.severity = "error"
    · simp [he, ih]; omega
    · by_cases hw : x.severity = "warning" <;> simp [he, hw, ih] <;> omega

end Report

/-! ## Totals that are kept -/

/-- The totals of a report. -/
structure Summary where
  nodesChecked : Nat
  nodesFailed : Nat
  errorCount : Nat
  warningCount : Nat
  otherCount : Nat
  diagnosticCount : Nat
  deriving DecidableEq, Repr

namespace Summary

def zero : Summary := ⟨0, 0, 0, 0, 0, 0⟩

/-- One more record, counted by its severity. -/
def addRecord (s : Summary) (r : Record) : Summary :=
  if r.severity = "error" then { s with errorCount := s.errorCount + 1 }
  else if r.severity = "warning" then { s with warningCount := s.warningCount + 1 }
  else { s with otherCount := s.otherCount + 1 }

/-- One more entry with its records and diagnostics. -/
def add (s : Summary) (e : NodeReport) : Summary :=
  let checked := { s with nodesChecked := s.nodesChecked + 1 }
  let judged :=
    if e.passed then checked else { checked with nodesFailed := checked.nodesFailed + 1 }
  let counted := e.records.foldl addRecord judged
  { counted with diagnosticCount := counted.diagnosticCount + e.diagnostics.length }

end Summary

/-- A report with the totals that are kept beside its entries. -/
structure TalliedReport extends Report where
  summary : Summary
  deriving DecidableEq, Repr

namespace TalliedReport

def empty : TalliedReport := ⟨.empty, .zero⟩

/-- One more entry, at the end and in the totals. -/
def add (r : TalliedReport) (entry : NodeReport) : TalliedReport :=
  ⟨r.toReport.add entry, r.summary.add entry⟩

end TalliedReport

/-- The report with its entries added one after the other. -/
def Report.tallied (r : Report) : TalliedReport := r.entries.foldl .add .empty

end TreeRules
