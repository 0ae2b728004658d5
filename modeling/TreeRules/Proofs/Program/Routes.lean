import TreeRules.Proofs.Engine.Discreet
import TreeRules.Proofs.Program.Verdict

/-!
# Proofs/Program/Routes — the ways to a rule agree

A bound rule can be run by its node, by the event it listens for, by its number, and as a rule that
is given; the program runs all of them in a row.  Each way finds the rule by another route through
the store, but the store gives a node at most one rule and lists it under that rule once, and a
discreet engine answers for a rule and a node the same whenever it is asked.  So all of them agree
(`Session.RoutesAgree`), after any run of a session (`Session.routes_agree`).
-/

namespace TreeRules

open Check.Pattern (Independent)
open Engine (patternOptions)

namespace Session

/-! ## Listed nodes -/

/-- The nodes that are listed when a rule is run by its number, each with its outcome; none if there
is no such rule. -/
def listed (s : Session) (id : Nat) : List (Nat × Outcome) :=
  match answer (Engine.validateRule s.document id) s.engine with
  | .ok outcomes => outcomes
  | .error _ => []

/-- What a rule leaves behind on a node in the state of the session. -/
def outcome (s : Session) (rule : Rule) (n : Nat) : Outcome :=
  answer (Engine.execute s.document n rule) s.engine

theorem listed_of_get?_none {s : Session} {id : Nat} (hr : s.engine.store.get? id = none) :
    s.listed id = [] := by
  have ha : answer (Engine.validateRule s.document id) s.engine = .error (.unknownRule id) := by
    rw [Engine.validateRule, answer_bind, answer_get]
    dsimp only
    rw [hr]
    rfl
  rw [listed, ha]

section Discreet

variable {rules : List Rule} {s : Session} (h : s.engine.Discreet rules)
  (hi : Independent (patternOptions rules))

include h hi

theorem listed_of_get? {id : Nat} {rule : Rule} (hr : s.engine.store.get? id = some rule) :
    s.listed id = (s.engine.store.nodesFor id).map fun n => (n, s.outcome rule n) := by
  have hy := Engine.yields_validateRule (d := s.document) h.memories hr fun n =>
    h.blind hi (h.store id rule hr) _
  rw [listed, (hy s.engine h.steady).1]
  rfl

/-- A node is listed under its own rule, with what that rule leaves behind. -/
theorem mem_listed_iff {id n : Nat} {o : Outcome} :
    (n, o) ∈ s.listed id ↔
      ∃ rule, s.engine.store.ruleFor? n = some (id, rule) ∧ o = s.outcome rule n := by
  cases hr : s.engine.store.get? id with
  | none =>
    rw [listed_of_get?_none hr]
    refine ⟨fun hmem => absurd hmem List.not_mem_nil, ?_⟩
    rintro ⟨rule, hrule, -⟩
    exact absurd (hr.symm.trans (RuleStore.ruleFor?_eq_some_iff.1 hrule).2)
      (Option.some_ne_none rule).symm
  | some rule =>
    rw [listed_of_get? h hi hr, List.mem_map]
    constructor
    · rintro ⟨m, hm, heq⟩
      obtain ⟨rfl, rfl⟩ := Prod.mk.inj heq
      exact ⟨rule, RuleStore.ruleFor?_eq_some_iff.2 ⟨(RuleStore.mem_nodesFor_iff _ m id).1 hm, hr⟩,
        rfl⟩
    · rintro ⟨rule', hrule, rfl⟩
      obtain ⟨hn, hr'⟩ := RuleStore.ruleFor?_eq_some_iff.1 hrule
      obtain rfl : rule = rule' := Option.some.inj (hr.symm.trans hr')
      exact ⟨n, (RuleStore.mem_nodesFor_iff _ n id).2 hn, rfl⟩

/-- **A bound node is listed once**, under its rule and under no other. -/
theorem filter_listed {n id : Nat} {rule : Rule}
    (hr : s.engine.store.ruleFor? n = some (id, rule)) (id' : Nat) :
    (s.listed id').filter (·.1 = n) = if id' = id then [(n, s.outcome rule n)] else [] := by
  obtain ⟨hn, hget⟩ := RuleStore.ruleFor?_eq_some_iff.1 hr
  split
  · next heq =>
    subst heq
    have hnodup : (s.engine.store.nodesFor id').Nodup :=
      (s.engine.store.pairwise_nodesFor id').imp Nat.ne_of_lt
    have hone : (s.engine.store.nodesFor id').filter (· = n) = [n] := by
      have hmem : n ∈ s.engine.store.nodesFor id' := (RuleStore.mem_nodesFor_iff _ n id').2 hn
      rw [List.filter_eq, List.count_eq_one_of_mem hnodup hmem]
      rfl
    rw [listed_of_get? h hi hget, List.filter_map]
    exact congrArg _ hone
  · next hne =>
    refine List.filter_eq_nil_iff.2 fun ⟨m, o⟩ hmem => ?_
    obtain ⟨rule', hr', -⟩ := (mem_listed_iff h hi).1 hmem
    rw [decide_eq_true_eq]
    rintro rfl
    exact hne (Prod.mk.inj (Option.some.inj (hr'.symm.trans hr))).1

/-- A node that no rule lists has no rule. -/
theorem forall_notMem_listed_iff {n : Nat} :
    (∀ id o, (n, o) ∉ s.listed id) ↔ s.engine.store.ruleFor? n = none := by
  constructor
  · intro hno
    cases hr : s.engine.store.ruleFor? n with
    | none => rfl
    | some r => exact absurd ((mem_listed_iff h hi).2 ⟨r.2, hr, rfl⟩) (hno r.1 _)
  · intro hr id o hmem
    obtain ⟨rule, hrule, -⟩ := (mem_listed_iff h hi).1 hmem
    exact absurd (hr.symm.trans hrule) (Option.some_ne_none _).symm

/-! ## Answers -/

theorem answer_run_of_bound {n id : Nat} {rule : Rule}
    (hr : s.engine.store.ruleFor? n = some (id, rule)) :
    answer (Engine.run s.document n none) s.engine = .ok (s.outcome rule n) :=
  (Engine.yields_run h.memories hr (h.blind hi (h.rule_mem hr) _) s.engine h.steady).1

theorem answer_handleEvent_of_bound {n id : Nat} {rule : Rule}
    (hr : s.engine.store.ruleFor? n = some (id, rule)) (event : String) :
    answer (Engine.handleEvent s.document n event) s.engine =
      .ok (if rule.event = event then some (s.outcome rule n) else none) :=
  (Engine.yields_handleEvent h.memories hr (h.blind hi (h.rule_mem hr) _) event s.engine
    h.steady).1

omit hi in
theorem answer_run_of_unbound {n : Nat} (hr : s.engine.store.ruleFor? n = none) :
    answer (Engine.run s.document n none) s.engine =
      .error (.noRule (s.document.describe n)) :=
  (Engine.yields_run_none hr s.engine h.steady).1

omit hi in
theorem answer_handleEvent_of_unbound {n : Nat} (hr : s.engine.store.ruleFor? n = none)
    (event : String) :
    answer (Engine.handleEvent s.document n event) s.engine =
      .error (.noRule (s.document.describe n)) :=
  (Engine.yields_handleEvent_none hr event s.engine h.steady).1

/-- What the program reports on an event: its visits, each with what the rule leaves behind. -/
theorem answer_reportRules (event : Option String) :
    answer (Engine.reportRules s.document event (List.range s.engine.store.ruleCount)) s.engine =
      .ok ⟨(s.engine.store.visits event).map (s.engine.entry s.document)⟩ :=
  (Engine.yields_reportRules h.memories (fun id _ hr b hb value =>
    h.blind hi (h.store id _ hr) value b hb) event _ s.engine h.steady).1

end Discreet

/-! ## Agreement -/

/-- The ways to run a bound rule agree in the state of the session.

* A bound node has a rule and is listed once, under its number; with the same outcome the rule is
  run by the node, as a given rule, and by the event that it listens for, and by no other event.
* By node and by event there is no rule just for the nodes that no rule lists.
* Over all rules the program visits the nodes that have an outcome for its event, each once. -/
structure RoutesAgree (s : Session) : Prop where
  bound : ∀ n id, s.engine.store.attached? n = some id → ∃ rule o,
    s.engine.store.ruleFor? n = some (id, rule) ∧
    (∀ id', (s.listed id').filter (·.1 = n) = if id' = id then [(n, o)] else []) ∧
    answer (Engine.run s.document n none) s.engine = .ok o ∧
    answer (Engine.run s.document n (some rule)) s.engine = .ok o ∧
    ∀ event, answer (Engine.handleEvent s.document n event) s.engine =
      .ok (if rule.event = event then some o else none)
  unbound : ∀ n, (answer (Engine.run s.document n none) s.engine =
      .error (.noRule (s.document.describe n)) ↔ ∀ id o, (n, o) ∉ s.listed id) ∧
    ∀ event, answer (Engine.handleEvent s.document n event) s.engine =
      .error (.noRule (s.document.describe n)) ↔ ∀ id o, (n, o) ∉ s.listed id
  loop : ∀ event, ∃ visited : List (Visit × Outcome),
    answer (Engine.reportRules s.document (some event) (List.range s.engine.store.ruleCount))
      s.engine = .ok ⟨visited.map fun (v, o) =>
        .ofOutcome v.id (s.document.describe v.node) v.rule.combination o⟩ ∧
    (visited.map (·.1.node)).Nodup ∧
    ∀ n o, (∃ v, (v, o) ∈ visited ∧ v.node = n) ↔
      answer (Engine.handleEvent s.document n event) s.engine = .ok (some o)

/-- Discreet engines answer alike, whichever way they are asked. -/
theorem routesAgree_of_discreet {rules : List Rule} {s : Session} (h : s.engine.Discreet rules)
    (hi : Independent (patternOptions rules)) {bs : List BoundRule}
    (hs : s.engine.store = .ofBinds bs) : s.RoutesAgree where
  bound n id hn := by
    have hfor : (s.engine.store.ruleFor? n).map Prod.fst = some id := by
      rw [hs, RuleStore.ruleFor?_ofBinds, ← hs, hn]
    obtain ⟨⟨_, rule⟩, hr, rfl⟩ := Option.map_eq_some_iff.1 hfor
    exact ⟨rule, s.outcome rule n, hr, filter_listed h hi hr, answer_run_of_bound h hi hr,
      (Engine.yields_run_some h.memories (h.blind hi (h.rule_mem hr) _) s.engine h.steady).1,
      answer_handleEvent_of_bound h hi hr⟩
  unbound n := by
    rw [forall_notMem_listed_iff h hi]
    cases hr : s.engine.store.ruleFor? n with
    | none =>
      exact ⟨iff_of_true (answer_run_of_unbound h hr) rfl,
        fun event => iff_of_true (answer_handleEvent_of_unbound h hr event) rfl⟩
    | some r =>
      refine ⟨?_, fun event => ?_⟩
      · rw [answer_run_of_bound h hi hr]
        exact iff_of_false (fun he => nomatch he) (Option.some_ne_none r)
      · rw [answer_handleEvent_of_bound h hi hr]
        exact iff_of_false (fun he => nomatch he) (Option.some_ne_none r)
  loop event := by
    refine ⟨(s.engine.store.visits (some event)).map fun v => (v, s.outcome v.rule v.node), ?_, ?_,
      fun n o => ⟨?_, fun he => ?_⟩⟩
    · rw [answer_reportRules h hi, List.map_map]
      rfl
    · rw [List.map_map]
      exact RuleStore.nodup_nodes_visits _ _
    · rintro ⟨v, hv, rfl⟩
      obtain ⟨v', hv', heq⟩ := List.mem_map.1 hv
      obtain ⟨rfl, rfl⟩ := Prod.mk.inj heq
      obtain ⟨hr, hevent⟩ := RuleStore.mem_visits_iff.1 hv'
      rw [answer_handleEvent_of_bound h hi hr, if_pos (hevent event rfl)]
    · cases hr : s.engine.store.ruleFor? n with
      | none =>
        rw [answer_handleEvent_of_unbound h hr] at he
        exact nomatch he
      | some r =>
        obtain ⟨id, rule⟩ := r
        rw [answer_handleEvent_of_bound h hi hr] at he
        split at he
        · next hevent =>
          have hv : (⟨id, rule, n⟩ : Visit) ∈ s.engine.store.visits (some event) :=
            RuleStore.mem_visits_iff.2 ⟨hr, fun name hname => Option.some.inj hname ▸ hevent⟩
          obtain rfl : s.outcome rule n = o := Option.some.inj (Except.ok.inj he)
          exact ⟨_, List.mem_map.2 ⟨_, hv, rfl⟩, rfl⟩
        · exact nomatch he

/-- **The ways to run a bound rule agree**, after any run of a session in which nothing is
registered that remembers, and in which earlier checks for patterns do not show.  The program's
report is that of the session in which all rules are bound. -/
theorem routes_agree (config : EngineConfig) (d : Document) (ops : List Operation)
    (hpure : ∀ op ∈ ops, op.RegistersPure)
    (hi : Independent (patternOptions (ops.flatMap (·.rules)))) :
    let made : Session := ⟨(Engine.ofConfig config).value, d⟩
    (after (run ops) made).RoutesAgree ∧
    ∀ rules event, answer (Engine.report d rules event) made.engine =
      let s := after (run [.bindAll rules]) made
      answer (Engine.reportRules d event (List.range s.engine.store.ruleCount)) s.engine := by
  intro made
  have hrules : ∀ op ∈ ops, ∀ rule ∈ op.rules, rule ∈ ops.flatMap (·.rules) :=
    fun op hop rule hrule => List.mem_flatMap.2 ⟨op, hop, hrule⟩
  have hdiscreet := discreet_run hi hrules hpure (s := made) (Engine.discreet_ofConfig _ config)
  refine ⟨routesAgree_of_discreet hdiscreet hi (store_after_run_of_empty rfl ops),
    fun rules event => ?_⟩
  obtain ⟨ha, hs⟩ := Engine.bindRules_eq d rules made.engine
  have hafter : after (run [.bindAll rules]) made =
      { made with engine := after (Engine.bindRules d rules) made.engine } := by
    rw [after_run_cons, after_run_nil]
    rfl
  have hempty : made.engine.store.ruleCount = 0 := rfl
  have hids : List.range' made.engine.store.ruleCount (d.bindsOf rules).length =
      List.range (after (Engine.bindRules d rules) made.engine).store.ruleCount := by
    rw [hs, List.range_eq_range', RuleStore.ruleCount_foldl_bind, hempty, Nat.zero_add]
  rw [hafter, Engine.report, answer_bind, ha, hids]
  rfl

/-- A field is taken over by a rule that listens for another event and asks a validator that was
registered; each rule then lists one field. -/
theorem routes_agree_of_two_fields :
    let options : Options := Table.empty.insert "pattern" (.string "a")
    let asked : Binding := ⟨"error", "pattern", options, .empty⟩
    let empty : Registration :=
      ⟨.custom fun value _ _ _ => if value = "" then ["empty"] else [], .empty⟩
    let field := (ElementSpec.ofTag "input").withValue "b"
    let ops : List Operation := [
      .register "required" empty,
      .bindAll [
        { Rule.ofTarget (.nodes [1, 2]) with bindings := [asked] },
        { Rule.ofTarget (.nodes [2]) with event := "input", bindings := [.of "error" "required"] }],
      .run 1 none,
      .setValue 2 ""]
    let s := after (run ops) ⟨(Engine.ofConfig .standard).value, .ofSpecs [field, field]⟩
    (∀ op ∈ ops, op.RegistersPure) ∧ Independent (patternOptions (ops.flatMap (·.rules))) ∧
      s.RoutesAgree ∧
      (s.listed 0).map (fun p => (p.1, p.2.records.map (·.kind))) = [(1, ["pattern"])] ∧
      (s.listed 1).map (fun p => (p.1, p.2.records.map (·.kind))) = [(2, ["empty"])] := by
  intro options asked empty field ops s
  have hpure : ∀ op ∈ ops, op.RegistersPure := by
    simp only [ops, List.forall_mem_cons]
    exact ⟨(fun h => nomatch h), trivial, trivial, trivial, fun _ h => absurd h List.not_mem_nil⟩
  have hi : Independent (patternOptions (ops.flatMap (·.rules))) :=
    Check.Pattern.independent_singleton options
  exact ⟨hpure, hi, (routes_agree .standard _ ops hpure hi).1, by decide +kernel,
    by decide +kernel⟩

end Session

end TreeRules
