import Mathlib.Data.List.Nodup
import Mathlib.Data.List.Perm.Subperm
import TreeRules.Program.Run
import TreeRules.Proofs.Engine.LastRule
import TreeRules.Proofs.Engine.Steady

/-!
# Proofs/Program/Verdict — what makes a run end in failure

A report is told by its visits: the nodes that the bound rules are run on, rule after rule and each
node with its rule (`RuleStore.visits`).  The store gives every node at most one rule, so no node is
visited twice, and the rule it is visited with is the last one that names it.  A steady engine
answers at each visit as it would have answered at the beginning (`Engine.yields_reportRules`), so
whether the report is valid is a question about single nodes and their last rules
(`Program.exists_verdict`).
-/

namespace TreeRules

/-! ## Visits -/

/-- Nothing is passed over if no event is asked for, or the one that is listened for. -/
theorem any_ne_eq_false_iff {event : Option String} {heard : String} :
    event.any (· ≠ heard) = false ↔ ∀ name ∈ event, heard = name := by
  cases event with
  | none => exact ⟨fun _ _ h => (nomatch h), fun _ => rfl⟩
  | some name =>
    rw [Option.any_some, decide_eq_false_iff_not, not_ne_iff]
    exact ⟨fun h _ hn => Option.some.inj hn ▸ h.symm, fun h => (h name rfl).symm⟩

/-- A node that a bound rule is run on. -/
structure Visit where
  id : Nat
  rule : Rule
  node : Nat

namespace RuleStore

/-- The visits of one rule, unless it listens for another event than the one asked for. -/
def visitsOf (s : RuleStore) (event : Option String) (id : Nat) : List Visit :=
  match s.get? id with
  | none => []
  | some rule =>
    if event.any (· ≠ rule.event) then [] else (s.nodesFor id).map (⟨id, rule, ·⟩)

/-- The visits of all rules in order. -/
def visits (s : RuleStore) (event : Option String) : List Visit :=
  (List.range s.ruleCount).flatMap (s.visitsOf event)

theorem mem_visitsOf_iff {s : RuleStore} {event : Option String} {id : Nat} {v : Visit} :
    v ∈ s.visitsOf event id ↔
      v.id = id ∧ s.ruleFor? v.node = some (v.id, v.rule) ∧
        ∀ name ∈ event, v.rule.event = name := by
  rw [visitsOf, ruleFor?_eq_some_iff]
  cases hr : s.get? id with
  | none =>
    refine ⟨fun h => absurd h List.not_mem_nil, ?_⟩
    rintro ⟨rfl, ⟨-, hv⟩, -⟩
    exact absurd (hr.symm.trans hv) (Option.some_ne_none v.rule).symm
  | some rule =>
    dsimp only
    cases he : event.any (· ≠ rule.event) with
    | true =>
      refine ⟨fun h => absurd h List.not_mem_nil, ?_⟩
      rintro ⟨rfl, ⟨-, hv⟩, hname⟩
      rw [← Option.some.inj (hr.symm.trans hv)] at hname
      exact absurd (he.symm.trans (any_ne_eq_false_iff.2 hname)) Bool.noConfusion
    | false =>
      rw [if_neg Bool.false_ne_true, List.mem_map]
      constructor
      · rintro ⟨n, hn, rfl⟩
        exact ⟨rfl, ⟨(mem_nodesFor_iff s n id).1 hn, hr⟩, any_ne_eq_false_iff.1 he⟩
      · obtain ⟨i, r, n⟩ := v
        rintro ⟨rfl, ⟨hn, hv⟩, -⟩
        obtain rfl : rule = r := Option.some.inj (hr.symm.trans hv)
        exact ⟨n, (mem_nodesFor_iff s n _).2 hn, rfl⟩

/-- A visit is a node with its rule, if that listens for the event. -/
theorem mem_visits_iff {s : RuleStore} {event : Option String} {v : Visit} :
    v ∈ s.visits event ↔
      s.ruleFor? v.node = some (v.id, v.rule) ∧ ∀ name ∈ event, v.rule.event = name := by
  rw [visits, List.mem_flatMap]
  constructor
  · rintro ⟨id, -, hv⟩
    exact (mem_visitsOf_iff.1 hv).2
  · intro h
    have hlt : v.id < s.ruleCount :=
      (Array.getElem?_eq_some_iff.1 (ruleFor?_eq_some_iff.1 h.1).2).1
    exact ⟨v.id, List.mem_range.2 hlt, mem_visitsOf_iff.2 ⟨rfl, h⟩⟩

/-- **No node is visited twice** — it has only one rule, and a rule has it only once. -/
theorem nodup_nodes_visits (s : RuleStore) (event : Option String) :
    ((s.visits event).map (·.node)).Nodup := by
  rw [visits, List.map_flatMap, List.nodup_flatMap]
  refine ⟨fun id _ => ?_, ?_⟩
  · rw [visitsOf]
    cases s.get? id with
    | none => exact List.nodup_nil
    | some rule =>
      dsimp only
      split
      · exact List.nodup_nil
      · rw [List.map_map]
        exact ((List.map_id' (s.nodesFor id)).symm ▸ (s.pairwise_nodesFor id).imp Nat.ne_of_lt)
  · refine List.nodup_range.imp fun {id id'} hne n hn hn' => ?_
    obtain ⟨v, hv, rfl⟩ := List.mem_map.1 hn
    obtain ⟨v', hv', heq⟩ := List.mem_map.1 hn'
    obtain ⟨rfl, hr, -⟩ := mem_visitsOf_iff.1 hv
    obtain ⟨rfl, hr', -⟩ := mem_visitsOf_iff.1 hv'
    rw [heq, hr, Option.some.injEq, Prod.mk.injEq] at hr'
    exact hne hr'.1

end RuleStore

/-! ## Reports -/

/-- A report is invalid just if some entry failed with a record of severity `error`. -/
theorem Report.isValid_eq_false_iff {report : Report} :
    report.isValid = false ↔ ∃ entry ∈ report.entries,
      entry.passed = false ∧ ∃ r ∈ entry.records, r.severity = "error" := by
  have hblocking : ∀ entry : NodeReport, entry.isBlocking = true ↔
      entry.passed = false ∧ ∃ r ∈ entry.records, r.severity = "error" := by
    intro entry
    rw [NodeReport.isBlocking, Bool.and_eq_true, Bool.not_eq_true', List.any_eq_true]
    exact and_congr_right fun _ => exists_congr fun r => and_congr_right fun _ => beq_iff_eq
  rw [isValid, Bool.not_eq_false', List.any_eq_true]
  exact exists_congr fun entry => and_congr_right fun _ => hblocking entry

namespace Engine

open Check.Pattern (Memory Independent Reached)

/-- The entry that a visit adds to a report if nothing has run before. -/
def entry (made : Engine) (d : Document) (v : Visit) : NodeReport :=
  .ofOutcome v.id (d.describe v.node) v.rule.combination (answer (execute d v.node v.rule) made)

section Reporting

variable {P : Memory → Prop} {made : Engine} {d : Document}

theorem yields_reportRule (hm : made.memories.Sound P)
    (h : ∀ id rule, made.store.get? id = some rule → ∀ b ∈ rule.bindings, ∀ value,
      Blind (Both P) made.registry value b) (event : Option String) (id : Nat) :
    Yields (Steady P made) (reportRule d event id)
      (.ok ((made.store.visitsOf event id).map (made.entry d))) := by
  refine yields_get fun e he => ?_
  rw [he.store, RuleStore.visitsOf]
  dsimp only
  cases hr : made.store.get? id with
  | none => exact yields_pure _
  | some rule =>
    dsimp only
    by_cases hskip : event.any (· ≠ rule.event) = true
    · rw [if_pos hskip, if_pos hskip]
      exact (yields_lift _).bind (yields_pure _)
    · rw [if_neg hskip, if_neg hskip, List.map_map]
      refine (yields_validateRule hm hr fun n b hb => h id rule hr b hb (d.value n)).bind ?_
      dsimp only
      rw [List.map_map]
      exact yields_pure _

theorem yields_reportRules (hm : made.memories.Sound P)
    (h : ∀ id rule, made.store.get? id = some rule → ∀ b ∈ rule.bindings, ∀ value,
      Blind (Both P) made.registry value b) (event : Option String) (ids : List Nat) :
    Yields (Steady P made) (reportRules d event ids)
      (.ok ⟨(ids.flatMap (made.store.visitsOf event)).map (made.entry d)⟩) := by
  induction ids with
  | nil => exact yields_pure _
  | cons id rest ih =>
    refine (yields_reportRule hm h event id).bind (ih.bind ?_)
    rw [List.flatMap_cons, List.map_append]
    exact yields_pure _

end Reporting

/-- **A report is the list of its visits**, each with what its rule leaves behind at the
beginning. -/
theorem answer_report (config : EngineConfig) (d : Document) {rules : List Rule}
    (event : Option String) (h : Independent (patternOptions rules)) :
    answer (report d rules event) (ofConfig config).value =
      .ok ⟨((RuleStore.ofBinds (d.bindsOf rules)).visits event).map
        ((ofConfig config).value.entry d)⟩ := by
  obtain ⟨ha, hs⟩ := bindRules_eq d rules (ofConfig config).value
  let made : Engine := { (ofConfig config).value with store := .ofBinds (d.bindsOf rules) }
  have hids : List.range' (ofConfig config).value.store.ruleCount (d.bindsOf rules).length =
      List.range made.store.ruleCount := by
    rw [RuleStore.ruleCount_ofBinds, List.range_eq_range']
    rfl
  have hsound : made.memories.Sound (Reached (patternOptions rules)) :=
    ⟨sound_resolverOf config, .empty⟩
  have hblind : ∀ id rule, made.store.get? id = some rule → ∀ b ∈ rule.bindings, ∀ value,
      Blind (Both (Reached (patternOptions rules))) made.registry value b := by
    intro id rule hrule b hb value
    rw [RuleStore.get?_ofBinds, Option.map_eq_some_iff] at hrule
    obtain ⟨bound, hbound, rfl⟩ := hrule
    exact blind_of_independent Registry.ownPattern_withBuiltins h
      (Document.rule_mem_of_mem_bindsOf (List.mem_of_getElem? hbound)) hb value
  have hreport := yields_reportRules (d := d) hsound hblind event (List.range made.store.ruleCount)
  rw [report, answer_bind, ha, hs, hids]
  exact (hreport made ⟨rfl, rfl, rfl, hsound⟩).1

end Engine

/-! ## Runs of the program -/

namespace Program

open Check.Pattern (Independent)

/-- What a rule leaves behind on a node of the input if nothing has run before. -/
def outcome (input : Input) (rule : Rule) (n : Nat) : Outcome :=
  answer (Engine.execute input.document n rule) (Engine.ofConfig input.config).value

/-- The visits of a run. -/
def visits (input : Input) (event : Option String) : List Visit :=
  (RuleStore.ofBinds (input.document.bindsOf input.rules)).visits event

/-- The node fails: its last rule listens for the event and does not let the node pass, with at
least one record of severity `error`. -/
def Blocked (input : Input) (event : Option String) (n : Nat) : Prop :=
  ∃ rule, input.document.lastRule? input.rules n = some rule ∧
    (∀ name ∈ event, rule.event = name) ∧
    (outcome input rule n).passes rule.combination = false ∧
    ∃ r ∈ (outcome input rule n).records, r.severity = "error"

/-- What is to be known of a run and its report. -/
structure Verdict (input : Input) (event : Option String) (report : Report) : Prop where
  value_work : (work input event).value = .ok report
  isValid_eq_false_iff : report.isValid = false ↔
    ∃ n, input.document.contains n = true ∧ Blocked input event n
  entries : report.entries =
    (visits input event).map ((Engine.ofConfig input.config).value.entry input.document)
  nodup : ((visits input event).map (·.node)).Nodup
  contains : ∀ v ∈ visits input event, input.document.contains v.node = true
  nodesChecked_le : report.nodesChecked ≤ input.document.size
  code : ∀ files styled a, load files a = .ok input → a.event = event →
    (execute files styled a).code = if report.isValid then 0 else 1

theorem exists_mem_visits_iff {input : Input} {event : Option String} {rule : Rule} {n : Nat} :
    (∃ v ∈ visits input event, v.rule = rule ∧ v.node = n) ↔
      input.document.lastRule? input.rules n = some rule ∧ ∀ name ∈ event, rule.event = name := by
  rw [← RuleStore.ruleFor?_bindsOf, Option.map_eq_some_iff]
  constructor
  · rintro ⟨v, hv, rfl, rfl⟩
    obtain ⟨hr, he⟩ := RuleStore.mem_visits_iff.1 hv
    exact ⟨⟨_, hr, rfl⟩, he⟩
  · rintro ⟨⟨⟨id, _⟩, hr, rfl⟩, he⟩
    exact ⟨⟨id, _, n⟩, RuleStore.mem_visits_iff.2 ⟨hr, he⟩, rfl, rfl⟩

theorem contains_of_mem_visits {input : Input} {event : Option String} {v : Visit}
    (h : v ∈ visits input event) : input.document.contains v.node = true :=
  Document.contains_of_names
    (Document.names_of_lastRule? (exists_mem_visits_iff.1 ⟨v, h, rfl, rfl⟩).1).2

/-- Elements are numbered up to the size of the document. -/
theorem length_visits_le (input : Input) (event : Option String) :
    (visits input event).length ≤ input.document.size := by
  have hsub : (visits input event).map (·.node) ⊆ List.range' 1 input.document.size := by
    intro n hn
    obtain ⟨v, hv, rfl⟩ := List.mem_map.1 hn
    have hc := contains_of_mem_visits hv
    rw [Document.contains, Bool.and_eq_true, decide_eq_true_eq, Document.hasNode,
      decide_eq_true_eq] at hc
    rw [List.mem_range'_1]
    have := Nat.pos_of_ne_zero hc.1
    omega
  have hle := (List.Nodup.subperm (RuleStore.nodup_nodes_visits _ event) hsub).length_le
  rwa [List.length_map, List.length_range'] at hle

/-- **The verdict of a run.**  The run reports on the input, and the report is invalid just if some
element is blocked by the last rule that names it.  No element is visited twice, and the run ends
in 0 or in 1 as the report is valid or not. -/
theorem exists_verdict (input : Input) (event : Option String)
    (h : Independent (Engine.patternOptions input.rules)) :
    ∃ report, Verdict input event report := by
  let report : Report :=
    ⟨(visits input event).map ((Engine.ofConfig input.config).value.entry input.document)⟩
  have hwork : (work input event).value = .ok report :=
    Engine.answer_report input.config input.document event h
  refine ⟨report, hwork, ?_, rfl, RuleStore.nodup_nodes_visits _ event,
    fun v hv => contains_of_mem_visits hv, ?_, ?_⟩
  · rw [Report.isValid_eq_false_iff]
    constructor
    · rintro ⟨entry, hentry, hfails, herror⟩
      obtain ⟨v, hv, rfl⟩ := List.mem_map.1 hentry
      obtain ⟨hlast, he⟩ := exists_mem_visits_iff.1 ⟨v, hv, rfl, rfl⟩
      exact ⟨v.node, contains_of_mem_visits hv, v.rule, hlast, he, hfails, herror⟩
    · rintro ⟨n, -, rule, hlast, he, hfails, herror⟩
      obtain ⟨v, hv, rfl, rfl⟩ := exists_mem_visits_iff.2 ⟨hlast, he⟩
      exact ⟨_, List.mem_map_of_mem hv, hfails, herror⟩
  · rw [Report.nodesChecked, List.length_map]
    exact length_visits_le input event
  · rintro files styled a hload rfl
    rw [execute, hload]
    dsimp only
    rw [hwork]

/-- The pattern is asked of both fields, but the second is left to a rule that only warns; so the
run fails for the first. -/
theorem verdict_of_two_fields :
    let options : Options := Table.empty.insert "pattern" (.string "a")
    let asked : Binding := ⟨"error", "pattern", options, .empty⟩
    let warned : Binding := ⟨"warning", "number", .empty, .empty⟩
    let field := (ElementSpec.ofTag "input").withValue "b"
    let input : Input := ⟨.standard, .ofSpecs [field, field],
      [{ Rule.ofTarget (.nodes [1, 2]) with bindings := [asked] },
        { Rule.ofTarget (.nodes [2]) with bindings := [warned] }]⟩
    Independent (Engine.patternOptions input.rules) ∧
      ∃ report, Verdict input none report ∧ report.isValid = false ∧ report.nodesFailed = 2 := by
  intro options asked warned field input
  have h : Independent (Engine.patternOptions input.rules) :=
    Check.Pattern.independent_singleton options
  obtain ⟨report, hreport⟩ := exists_verdict input none h
  have hvalue : (work input none).value.toOption.map (fun r => (r.isValid, r.nodesFailed)) =
      some (false, 2) := by decide +kernel
  rw [hreport.value_work] at hvalue
  exact ⟨h, report, hreport, Prod.mk.inj (Option.some.inj hvalue)⟩

end Program

end TreeRules
