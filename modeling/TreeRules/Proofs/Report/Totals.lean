import TreeRules.Program.Run
import TreeRules.Proofs.Engine.Combination
import TreeRules.Proofs.Program.Verdict

/-!
# Proofs/Report/Totals — a report counts what it lists, and shows every failure

A report keeps its totals beside its entries and adds to both.  What an entry adds to the totals is
what it adds to a recount of the entries (`Report.recount_add`), so the two agree after any number
of additions (`TalliedReport.Recounted.addAll`).

An entry is left out of the text if it has neither records nor diagnostics, whether it failed or
not.  It cannot have failed: an outcome without records passes, however its bindings combine.  So
the entries that are printed as failed are just as many as the totals say
(`TalliedReport.accounts_for_additions`).
-/

namespace TreeRules

/-! ## Counting anew -/

/-- The totals of a report, counted from its entries. -/
def Report.recount (r : Report) : Summary :=
  ⟨r.nodesChecked, r.nodesFailed, r.errorCount, r.warningCount, r.otherCount, r.diagnosticCount⟩

namespace Summary

/-- Records are counted by their severities, whatever was counted before. -/
theorem foldl_addRecord (records : List Record) (s : Summary) :
    records.foldl addRecord s =
      { s with
        errorCount := s.errorCount + (records.filter (·.severity == "error")).length
        warningCount := s.warningCount + (records.filter (·.severity == "warning")).length
        otherCount := s.otherCount +
          (records.filter fun x => x.severity != "error" && x.severity != "warning").length } := by
  induction records generalizing s with
  | nil => rfl
  | cons x rest ih =>
    rw [List.foldl_cons, ih, addRecord]
    by_cases he : x.severity = "error"
    · simp [he]; omega
    · by_cases hw : x.severity = "warning" <;> simp [he, hw] <;> omega

end Summary

namespace Report

variable (r : Report) (e : NodeReport)

theorem records_add : (r.add e).records = r.records ++ e.records := by
  rw [records, add, List.flatMap_append, List.flatMap_singleton]
  rfl

theorem failures_add : (r.add e).failures = r.failures ++ if e.passed then [] else [e] := by
  rw [failures, add, List.filter_append]
  cases he : e.passed <;> simp [failures, he]

/-- **An entry adds to the totals what it adds to a recount.** -/
theorem recount_add : (r.add e).recount = r.recount.add e := by
  have hchecked : (r.add e).nodesChecked = r.nodesChecked + 1 := List.length_append
  have hdiagnostics : (r.add e).diagnosticCount = r.diagnosticCount + e.diagnostics.length := by
    rw [diagnosticCount, add, List.flatMap_append, List.length_append, List.flatMap_singleton]
    rfl
  rw [recount, hchecked, hdiagnostics, nodesFailed, failures_add, errorCount, warningCount,
    otherCount, records_add, Summary.add, Summary.foldl_addRecord]
  cases e.passed <;> simp [recount, nodesFailed, errorCount, warningCount, otherCount]

end Report

/-! ## Adding outcomes -/

/-- A call that adds what a rule left behind on a node. -/
structure Addition where
  rule : Nat
  document : Document
  node : Nat
  combination : Combination
  outcome : Outcome

/-- The entry that is added. -/
def Addition.entry (a : Addition) : NodeReport :=
  .ofOutcome a.rule (a.document.describe a.node) a.combination a.outcome

namespace TalliedReport

/-- The report after calls one after the other. -/
def addAll (r : TalliedReport) (additions : List Addition) : TalliedReport :=
  additions.foldl (fun r a => r.add a.entry) r

/-- The totals are those of a recount. -/
def Recounted (r : TalliedReport) : Prop := r.summary = r.toReport.recount

theorem recounted_empty : empty.Recounted := rfl

/-- **The totals do not drift from the entries.** -/
theorem Recounted.add {r : TalliedReport} (h : r.Recounted) (e : NodeReport) :
    (r.add e).Recounted := by
  rw [Recounted] at h
  rw [Recounted, TalliedReport.add, Report.recount_add, h]

theorem Recounted.addAll {r : TalliedReport} (h : r.Recounted) (additions : List Addition) :
    (r.addAll additions).Recounted := by
  induction additions generalizing r with
  | nil => exact h
  | cons a rest ih => exact ih (h.add a.entry)

theorem entries_addAll (r : TalliedReport) (additions : List Addition) :
    (r.addAll additions).entries = r.entries ++ additions.map Addition.entry := by
  induction additions generalizing r with
  | nil => exact (List.append_nil _).symm
  | cons a rest ih =>
    rw [addAll, List.foldl_cons]
    exact (ih _).trans (List.append_assoc _ [a.entry] _)

end TalliedReport

/-! ## What is printed -/

/-- A word begins with the sequence of its style if styles are shown. -/
theorem Style.prefix_apply (shown : Bool) (s : Style) (text behind : String) :
    (if shown then s.start else text).toList <+: (s.apply shown text ++ behind).toList := by
  cases shown
  · rw [Style.apply, String.toList_append]
    exact List.prefix_append _ _
  · simp only [Style.apply, if_true, String.toList_append, List.append_assoc]
    exact List.prefix_append _ _

namespace NodeReport

variable {e : NodeReport}

theorem lines_eq_nil_iff (styled : Bool) :
    e.lines styled = [] ↔ e.records = [] ∧ e.diagnostics = [] := by
  rw [lines]
  split
  · next h => exact iff_of_true rfl h
  · next h => exact iff_of_false (List.cons_ne_nil _ _) h

/-- The entry is printed, and its first line behind the blank one begins with the word. -/
def opensWith (styled : Bool) (word : String) (e : NodeReport) : Bool :=
  match e.lines styled with
  | _ :: head :: _ => (word ++ " ").toList.isPrefixOf head.toList
  | _ => false

/-- The word that an entry which failed is printed with. -/
def failedWord (styled : Bool) : String := Style.boldRed.apply styled "FAIL"

/-- The line begins with the word for the verdict. -/
theorem prefix_headLine (styled : Bool) :
    (e.statusStyle.apply styled e.status ++ " ").toList <+: (e.headLine styled).toList := by
  simp only [headLine, String.toList_append, List.append_assoc]
  exact List.prefix_append_right_inj _ |>.2 (List.prefix_append _ _)

/-- The line tells by its word whether the entry failed. -/
theorem isPrefixOf_headLine (styled : Bool) :
    (failedWord styled ++ " ").toList.isPrefixOf (e.headLine styled).toList = !e.passed := by
  have hhead := e.prefix_headLine styled
  cases he : e.passed
  · rw [statusStyle, status, he] at hhead
    exact List.isPrefixOf_iff_prefix.2 hhead
  · rw [statusStyle, status, he] at hhead
    refine Bool.eq_false_iff.2 fun hprefix => ?_
    -- what the two words begin with is of one length, so they would begin alike
    have hfailed := (Style.prefix_apply styled .boldRed "FAIL" " ").trans
      (List.isPrefixOf_iff_prefix.1 hprefix)
    have hpassed := (Style.prefix_apply styled .boldGreen "PASS" " ").trans hhead
    have halike := List.prefix_of_prefix_length_le hfailed hpassed (by cases styled <;> decide)
    revert halike
    cases styled <;> decide

theorem opensWith_failedWord (styled : Bool) :
    e.opensWith styled (failedWord styled) = true ↔ e.lines styled ≠ [] ∧ e.passed = false := by
  rw [ne_eq, lines_eq_nil_iff, opensWith, lines]
  by_cases h : e.records = [] ∧ e.diagnostics = []
  · simp [h]
  · rw [if_neg h]
    simp only [List.cons_append, isPrefixOf_headLine, h, not_false_eq_true, true_and,
      Bool.not_eq_true']

end NodeReport

/-! ## Every failure is shown -/

/-- An entry is left out of the text only if its outcome left nothing behind, and such an outcome
passes. -/
theorem Addition.passed_of_lines_eq_nil {a : Addition} {styled : Bool}
    (h : a.entry.lines styled = []) : a.entry.passed = true :=
  Outcome.passes_of_records_eq_nil ((NodeReport.lines_eq_nil_iff styled).1 h).1 a.combination

namespace TalliedReport

/-- What a report says of the outcomes that were added to it. -/
structure AccountsFor (r : TalliedReport) (additions : List Addition) : Prop where
  /-- There is one entry for each call, in the order of the calls. -/
  entries : r.entries = additions.map Addition.entry
  /-- The entries alone, added once more, give the report that is shown. -/
  tallied : r.toReport.tallied = r
  nodesChecked : r.summary.nodesChecked = r.entries.length
  nodesFailed : r.summary.nodesFailed = r.failures.length
  errorCount : r.summary.errorCount = (r.records.filter (·.severity == "error")).length
  warningCount : r.summary.warningCount = (r.records.filter (·.severity == "warning")).length
  otherCount : r.summary.otherCount =
    (r.records.filter fun x => x.severity != "error" && x.severity != "warning").length
  length_records : r.records.length =
    r.summary.errorCount + r.summary.warningCount + r.summary.otherCount
  diagnosticCount : r.summary.diagnosticCount = (r.entries.flatMap (·.diagnostics)).length
  isValid_eq_false_iff : r.isValid = false ↔
    ∃ e ∈ r.entries, e.passed = false ∧ ∃ x ∈ e.records, x.severity = "error"
  isValid : r.summary.nodesFailed = 0 ∨ r.summary.errorCount = 0 → r.isValid = true
  /-- Behind the totals come the lines of the entries, in their order. -/
  lines : ∀ styled, r.lines styled =
    Style.bold.apply styled "=== Validation Report ===" ::
      (r.summary.lines ++ r.entries.flatMap (·.lines styled))
  leftOut : ∀ styled, ∀ e ∈ r.entries, e.lines styled = [] →
    e.passed = true ∧ e.records = [] ∧ e.diagnostics = []
  /-- The entries printed as failed are as many as the totals say. -/
  printed : ∀ styled,
    (r.entries.filter (·.opensWith styled (NodeReport.failedWord styled))).length =
      r.summary.nodesFailed

variable {r : TalliedReport} {additions : List Addition}

theorem tallied_addAll (additions : List Addition) :
    (empty.addAll additions).toReport.tallied = empty.addAll additions := by
  have hentries : (empty.addAll additions).entries = additions.map Addition.entry :=
    entries_addAll empty additions
  rw [Report.tallied, hentries, List.foldl_map, addAll]

/-- A report without failures, or without errors, has no entry that fails with an error. -/
theorem Recounted.isValid (h : r.Recounted)
    (hnone : r.summary.nodesFailed = 0 ∨ r.summary.errorCount = 0) : r.isValid = true := by
  rw [Recounted] at h
  rw [h] at hnone
  by_contra hinvalid
  obtain ⟨e, he, hfails, x, hx, herror⟩ :=
    Report.isValid_eq_false_iff.1 (Bool.eq_false_iff.2 hinvalid)
  obtain hfailed | herrors := hnone
  · have hmem : e ∈ r.failures := List.mem_filter.2 ⟨he, by rw [hfails]; rfl⟩
    exact List.ne_nil_of_mem hmem (List.length_eq_zero_iff.1 hfailed)
  · have hmem : x ∈ r.records.filter (·.severity == "error") :=
      List.mem_filter.2 ⟨List.mem_flatMap.2 ⟨e, he, hx⟩, beq_iff_eq.2 herror⟩
    exact List.ne_nil_of_mem hmem (List.length_eq_zero_iff.1 herrors)

/-- An entry is printed as failed just if it failed, since no failed one is left out. -/
theorem filter_opensWith (hentries : r.entries = additions.map Addition.entry) (styled : Bool) :
    r.entries.filter (·.opensWith styled (NodeReport.failedWord styled)) = r.failures := by
  refine List.filter_congr fun e he => ?_
  rw [hentries] at he
  obtain ⟨a, -, rfl⟩ := List.mem_map.1 he
  rw [Bool.eq_iff_iff, NodeReport.opensWith_failedWord, Bool.not_eq_true']
  refine and_iff_right_of_imp fun hfails hnil => ?_
  exact Bool.noConfusion (hfails.symm.trans (Addition.passed_of_lines_eq_nil hnil))

/-- **A report is consistent and hides no failure** after any calls, whatever outcomes were added:
the totals are counts over the entries, it is invalid just if some entry failed with an error, and
it is printed with as many failures as it has. -/
theorem accounts_for_additions (additions : List Addition) :
    (empty.addAll additions).AccountsFor additions := by
  have hrecounted : (empty.addAll additions).Recounted := recounted_empty.addAll additions
  have hentries : (empty.addAll additions).entries = additions.map Addition.entry :=
    entries_addAll empty additions
  have hsummary := hrecounted
  rw [Recounted, Report.recount] at hsummary
  constructor
  case entries => exact hentries
  case tallied => exact tallied_addAll additions
  case nodesChecked => exact congrArg (·.nodesChecked) hsummary
  case nodesFailed => exact congrArg (·.nodesFailed) hsummary
  case errorCount => exact congrArg (·.errorCount) hsummary
  case warningCount => exact congrArg (·.warningCount) hsummary
  case otherCount => exact congrArg (·.otherCount) hsummary
  case length_records =>
    rw [hsummary]
    exact Report.length_records _
  case diagnosticCount => exact congrArg (·.diagnosticCount) hsummary
  case isValid_eq_false_iff => exact Report.isValid_eq_false_iff
  case isValid => exact hrecounted.isValid
  case lines => exact fun styled => rfl
  case leftOut =>
    intro styled e he hnil
    rw [hentries] at he
    obtain ⟨a, -, rfl⟩ := List.mem_map.1 he
    exact ⟨Addition.passed_of_lines_eq_nil hnil, (NodeReport.lines_eq_nil_iff styled).1 hnil⟩
  case printed =>
    intro styled
    rw [filter_opensWith hentries]
    exact (congrArg (·.nodesFailed) hsummary).symm

end TalliedReport

end TreeRules
