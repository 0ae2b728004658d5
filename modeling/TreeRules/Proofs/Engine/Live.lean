import TreeRules.Program.Run
import TreeRules.Proofs.Document.Growth
import TreeRules.Proofs.Engine.LastRule

/-!
# Proofs/Engine/Live — bound nodes stay elements, and numbers of rules stay good

A store and a document are two states that change apart: rules and bound nodes are never taken
back, and elements only come to the end.  A store is `Live` in a document if its bound nodes are
elements there and have a rule.  A bind keeps it so because a target names elements only, and the
document keeps it so because it only grows (`Session.live_step`).  So nothing that is looked up
while rules run is missing (`Session.Reliable`), after any run of a session
(`Session.reliable_after_run`): a number beyond the document is in no table, and when an element
gets that number it begins without a rule.
-/

namespace TreeRules

/-! ## Documents only grow -/

namespace Document

/-- No operation takes an element away. -/
theorem size_le_next (d : Document) (op : Operation) : d.size ≤ (d.next op).size := by
  cases op with
  | append parent spec =>
    rw [next]
    cases h : d.append? parent spec with
    | none => exact Nat.le_refl _
    | some r =>
      rw [append?] at h
      split at h
      · obtain rfl := Option.some.inj h
        simp only [Option.map_some, Option.getD_some, size, extend, Array.size_append]
        exact Nat.le_add_right _ _
      · exact absurd h (Option.some_ne_none r).symm
  | setValue n value =>
    rw [next]
    cases h : d.setValue? n value with
    | none => exact Nat.le_refl _
    | some d' => exact (valueSet_of_setValue? h).size.ge
  | _ => exact Nat.le_refl _

theorem contains_of_size_le {d d' : Document} (h : d.size ≤ d'.size) {n : Nat}
    (hn : d.contains n = true) : d'.contains n = true := by
  rw [contains_eq_true_iff] at hn ⊢
  exact ⟨hn.1, hn.2.trans h⟩

/-- The binds of an operation name elements. -/
theorem contains_of_mem_bindsIn {d : Document} {op : Operation} {b : BoundRule}
    (hb : b ∈ d.bindsIn op) {n : Nat} (hn : n ∈ b.nodes) : d.contains n = true := by
  have hof : ∀ rules, b ∈ d.bindsOf rules → d.contains n = true := by
    intro rules hmem
    obtain ⟨rule, -, hrule⟩ := List.mem_filterMap.1 hmem
    obtain ⟨nodes, hnodes, rfl⟩ := Option.map_eq_some_iff.1 hrule
    exact contains_of_named hnodes hn
  cases op with
  | bind rule => exact hof [rule] hb
  | bindAll rules => exact hof rules hb
  | _ => exact absurd hb List.not_mem_nil

end Document

/-! ## Live stores -/

namespace RuleStore

/-- Bound nodes are elements of the document, and the rule that a node is bound to is there. -/
structure Live (s : RuleStore) (d : Document) : Prop where
  contains : ∀ n id, s.attached? n = some id → d.contains n = true
  lt_ruleCount : ∀ n id, s.attached? n = some id → id < s.ruleCount

/-- The numbers that have been handed out have rules, and no others. -/
theorem exists_get?_iff {s : RuleStore} {id : Nat} :
    (∃ rule, s.get? id = some rule) ↔ id < s.ruleCount := by
  rw [get?, ← Option.isSome_iff_exists, isSome_getElem?, ruleCount]

theorem live_empty (d : Document) : empty.Live d where
  contains _ id h := absurd h (Option.some_ne_none id).symm
  lt_ruleCount _ id h := absurd h (Option.some_ne_none id).symm

namespace Live

variable {s : RuleStore} {d d' : Document} {n id : Nat}

theorem grow (h : s.Live d) (hd : d.size ≤ d'.size) : s.Live d' where
  contains n id hn := Document.contains_of_size_le hd (h.contains n id hn)
  lt_ruleCount := h.lt_ruleCount

/-- A bind to elements keeps the store alive. -/
theorem bind (h : s.Live d) {b : BoundRule} (hb : ∀ n ∈ b.nodes, d.contains n = true) :
    (s.bind b).Live d := by
  refine ⟨fun n id hn => ?_, fun n id hn => ?_⟩
  · rw [attached?_bind] at hn
    split at hn
    · next hmem => exact hb n hmem
    · exact h.contains n id hn
  · rw [attached?_bind] at hn
    rw [ruleCount_bind]
    split at hn
    · exact Option.some.inj hn ▸ Nat.lt_succ_self _
    · exact Nat.lt_succ_of_lt (h.lt_ruleCount n id hn)

theorem foldl_bind (h : s.Live d) {bs : List BoundRule}
    (hbs : ∀ b ∈ bs, ∀ n ∈ b.nodes, d.contains n = true) : (bs.foldl RuleStore.bind s).Live d := by
  induction bs generalizing s with
  | nil => exact h
  | cons b rest ih =>
    rw [List.foldl_cons]
    exact ih (h.bind (hbs b List.mem_cons_self)) fun c hc => hbs c (List.mem_cons_of_mem b hc)

/-- A node that is bound has a rule. -/
theorem exists_ruleFor? (h : s.Live d) (hn : s.attached? n = some id) :
    ∃ rule, s.ruleFor? n = some (id, rule) := by
  obtain ⟨rule, hrule⟩ := exists_get?_iff.2 (h.lt_ruleCount n id hn)
  exact ⟨rule, ruleFor?_eq_some_iff.2 ⟨hn, hrule⟩⟩

/-- In a live store a node that a rule is attached to has that rule. -/
theorem ruleFor?_eq_none_iff (h : s.Live d) : s.ruleFor? n = none ↔ s.attached? n = none := by
  cases hn : s.attached? n with
  | none =>
    rw [ruleFor?, hn]
    exact ⟨fun _ => rfl, fun _ => rfl⟩
  | some id =>
    obtain ⟨rule, hrule⟩ := h.exists_ruleFor? hn
    rw [hrule]
    exact ⟨fun he => absurd he (Option.some_ne_none _), fun he => absurd he (Option.some_ne_none _)⟩

/-- What is no element is not bound. -/
theorem attached?_eq_none (h : s.Live d) (hn : d.contains n = false) : s.attached? n = none := by
  by_contra hne
  obtain ⟨id, hid⟩ := Option.ne_none_iff_exists'.1 hne
  exact absurd (h.contains n id hid) (hn ▸ Bool.false_ne_true)

end Live

/-- Binds leave a node without a rule if it had none and none of them names it. -/
theorem attached?_foldl_bind_eq_none {s : RuleStore} {bs : List BoundRule} {n : Nat} :
    (bs.foldl bind s).attached? n = none ↔ s.attached? n = none ∧ ∀ b ∈ bs, n ∉ b.nodes := by
  induction bs generalizing s with
  | nil => exact ⟨fun h => ⟨h, fun b hb => absurd hb List.not_mem_nil⟩, fun h => h.1⟩
  | cons b rest ih =>
    rw [List.foldl_cons, ih, attached?_bind, List.forall_mem_cons]
    split
    · next hn => exact ⟨fun h => absurd h.1 (Option.some_ne_none _), fun h => absurd hn h.2.1⟩
    · next hn => exact ⟨fun h => ⟨h.1, hn, h.2⟩, fun h => ⟨h.1, h.2.2⟩⟩

theorem attached?_of_mem_bound {s : RuleStore} {n id : Nat} (h : (n, id) ∈ s.bound) :
    s.attached? n = some id := by
  rw [← mem_nodesFor_iff, nodesFor, List.mem_map]
  exact ⟨(n, id), List.mem_filter.2 ⟨h, beq_iff_eq.2 rfl⟩, rfl⟩

end RuleStore

/-! ## Running rules by number -/

namespace Engine

variable {d : Document} {e : Engine} {id : Nat}

/-- A number that there is a rule for is answered. -/
theorem exists_answer_validateRule (d : Document) (h : id < e.store.ruleCount) :
    ∃ outcomes, answer (validateRule d id) e = .ok outcomes := by
  obtain ⟨rule, hrule⟩ := RuleStore.exists_get?_iff.2 h
  rw [validateRule, answer_bind, answer_get, after_get]
  dsimp only
  rw [hrule]
  exact ⟨_, rfl⟩

/-- A number that has not been handed out is reported as unknown. -/
theorem answer_validateRule_of_unknown (d : Document) (h : ¬ id < e.store.ruleCount) :
    answer (validateRule d id) e = .error (.unknownRule id) := by
  have hnone : e.store.get? id = none := Option.eq_none_iff_forall_ne_some.2 fun rule hrule =>
    h (RuleStore.exists_get?_iff.1 ⟨rule, hrule⟩)
  rw [validateRule, answer_bind, answer_get, after_get]
  dsimp only
  rw [hnone]
  rfl

/-! ### The loop of a report -/

namespace Carried

variable {R : Engine → Engine → Prop}

theorem reportRule (h : Carried R d) (event : Option String) (id : Nat) :
    Agree R (reportRule d event id) (reportRule d event id) := by
  refine agree_get fun e e' he => ?_
  rw [h.store e e' he]
  dsimp only
  cases e'.store.get? id with
  | none => exact agree_pure _
  | some rule =>
    dsimp only
    split
    · exact (agree_lift rfl).bind fun _ => agree_pure _
    · refine (h.validateRule id).bind fun r => ?_
      cases r with
      | ok outcomes => exact agree_pure _
      | error error => exact agree_pure _

theorem reportRules (h : Carried R d) (event : Option String) (ids : List Nat) :
    Agree R (reportRules d event ids) (reportRules d event ids) := by
  induction ids with
  | nil => exact agree_pure _
  | cons id rest ih =>
    refine (h.reportRule event id).bind fun first => ?_
    cases first with
    | error error => exact agree_pure _
    | ok first =>
      refine ih.bind fun others => ?_
      cases others with
      | ok others => exact agree_pure _
      | error error => exact agree_pure _

end Carried

/-- A report leaves the store alone. -/
theorem store_after_reportRules (d : Document) (event : Option String) (ids : List Nat)
    (e : Engine) : (after (reportRules d event ids) e).store = e.store :=
  ((carried_store e.store d).reportRules event ids).keeps e rfl

theorem exists_answer_reportRule (d : Document) (event : Option String)
    (h : id < e.store.ruleCount) : ∃ entries, answer (reportRule d event id) e = .ok entries := by
  obtain ⟨rule, hrule⟩ := RuleStore.exists_get?_iff.2 h
  rw [reportRule, answer_bind, answer_get, after_get]
  dsimp only
  rw [hrule]
  dsimp only
  split
  · exact ⟨_, rfl⟩
  · obtain ⟨outcomes, houtcomes⟩ := exists_answer_validateRule d h
    rw [answer_bind, houtcomes]
    exact ⟨_, rfl⟩

/-- A report on rules that are there is made. -/
theorem exists_answer_reportRules (d : Document) (event : Option String) {ids : List Nat}
    (h : ∀ id ∈ ids, id < e.store.ruleCount) :
    ∃ report, answer (reportRules d event ids) e = .ok report := by
  induction ids generalizing e with
  | nil => exact ⟨.empty, rfl⟩
  | cons id rest ih =>
    obtain ⟨first, hfirst⟩ := exists_answer_reportRule d event (h id List.mem_cons_self)
    have hstore : (after (reportRule d event id) e).store = e.store :=
      ((carried_store e.store d).reportRule event id).keeps e rfl
    obtain ⟨others, hothers⟩ := ih (e := after (reportRule d event id) e) fun i hi => by
      rw [hstore]
      exact h i (List.mem_cons_of_mem id hi)
    rw [reportRules, answer_bind, hfirst]
    dsimp only
    rw [answer_bind, hothers]
    exact ⟨_, rfl⟩

/-- The numbers that binding hands out are numbers of rules. -/
theorem lt_ruleCount_of_mem_bindRules {rules : List Rule}
    (h : id ∈ answer (bindRules d rules) e) :
    id < (after (bindRules d rules) e).store.ruleCount := by
  obtain ⟨ha, hs⟩ := bindRules_eq d rules e
  rw [ha, List.mem_range'_1] at h
  rw [hs]
  exact h.2.trans_eq (RuleStore.ruleCount_foldl_bind _ _).symm

end Engine

/-! ## Sessions -/

namespace Session

/-- **One operation keeps the store live** in the document that the operation leaves. -/
theorem live_step {s : Session} (h : s.engine.store.Live s.document) (op : Operation) :
    (after (step op) s).engine.store.Live (after (step op) s).document := by
  rw [(step_binds op s).2, document_after_step]
  exact (h.foldl_bind fun b hb n hn => Document.contains_of_mem_bindsIn hb hn).grow
    (s.document.size_le_next op)

/-- **A session that is alive stays alive**, whatever it is asked. -/
theorem live_run {s : Session} (h : s.engine.store.Live s.document) (ops : List Operation) :
    (after (run ops) s).engine.store.Live (after (run ops) s).document := by
  induction ops generalizing s with
  | nil => rwa [after_run_nil]
  | cons op rest ih =>
    rw [after_run_cons]
    exact ih (live_step h op)

/-- What can be relied on in a session, if `issued` are the numbers that binding has handed out.

* A node in the table is an element and has the rule that the table says.
* What is no element before something is appended has no rule then, and however the session goes
  on it has none until a bind names it.
* By an issued number a rule is run, and every other number is unknown.
* When a report comes to a rule that was bound for it, the rule is there and is run on its nodes;
  and so the report is made. -/
structure Reliable (s : Session) (issued : List Nat) : Prop where
  bound : ∀ n id, (n, id) ∈ s.engine.store.bound → n ≠ Document.root ∧ n ≤ s.document.size ∧
    s.document.contains n = true ∧ ∃ rule, s.engine.store.ruleFor? n = some (id, rule)
  fresh : ∀ parent spec n more, s.document.contains n = false →
    let grown := after (step (.append parent spec)) s
    ((after (run more) grown).engine.store.ruleFor? n = none ↔
      ∀ b ∈ grown.document.binds more, n ∉ b.nodes)
  known : ∀ id ∈ issued, ∃ outcomes,
    answer (Engine.validateRule s.document id) s.engine = .ok outcomes
  unknown : ∀ id, id ∉ issued →
    answer (Engine.validateRule s.document id) s.engine = .error (.unknownRule id)
  loop : ∀ rules event done id rest, let made := after (Engine.bindRules s.document rules) s.engine
    answer (Engine.bindRules s.document rules) s.engine = done ++ id :: rest →
    let reached := after (Engine.reportRules s.document event done) made
    (∃ rule, reached.store.get? id = some rule) ∧
      ∃ outcomes, answer (Engine.validateRule s.document id) reached = .ok outcomes
  reported : ∀ rules event, ∃ report,
    answer (Engine.report s.document rules event) s.engine = .ok report

theorem reliable_of_live {s : Session} (h : s.engine.store.Live s.document) {issued : List Nat}
    (hissued : issued = List.range s.engine.store.ruleCount) : s.Reliable issued where
  bound n id hmem := by
    have hn := RuleStore.attached?_of_mem_bound hmem
    have hcontains := h.contains n id hn
    obtain ⟨hpos, hle⟩ := Document.contains_eq_true_iff.1 hcontains
    exact ⟨hpos.ne', hle, hcontains, h.exists_ruleFor? hn⟩
  fresh parent spec n more := by
    intro hold grown
    have hgrown : grown.engine.store.Live grown.document := live_step h _
    have hnone : grown.engine.store.attached? n = none := by
      rw [(step_binds (.append parent spec) s).2]
      exact h.attached?_eq_none hold
    rw [(live_run hgrown more).ruleFor?_eq_none_iff, (run_binds more grown).2,
      RuleStore.attached?_foldl_bind_eq_none]
    exact and_iff_right hnone
  known id hid := by
    rw [hissued, List.mem_range] at hid
    exact Engine.exists_answer_validateRule _ hid
  unknown id hid := by
    rw [hissued, List.mem_range] at hid
    exact Engine.answer_validateRule_of_unknown _ hid
  loop rules event done id rest := by
    intro made hids reached
    have hlt : id < reached.store.ruleCount := by
      rw [Engine.store_after_reportRules]
      exact Engine.lt_ruleCount_of_mem_bindRules
        (hids ▸ List.mem_append_right done List.mem_cons_self)
    exact ⟨RuleStore.exists_get?_iff.2 hlt, Engine.exists_answer_validateRule _ hlt⟩
  reported rules event := by
    have hids : ∀ id ∈ answer (Engine.bindRules s.document rules) s.engine,
        id < (after (Engine.bindRules s.document rules) s.engine).store.ruleCount :=
      fun id hid => Engine.lt_ruleCount_of_mem_bindRules hid
    exact Engine.exists_answer_reportRules s.document event hids

/-- **Bound nodes are elements, and issued numbers work**, after any run of a session whose engine
began without rules. -/
theorem reliable_after_run (config : EngineConfig) (registry : Registry) (memories : Memories)
    (d : Document) (ops : List Operation) :
    let s : Session := ⟨⟨config, registry, .empty, memories⟩, d⟩
    (after (run ops) s).Reliable ((answer (run ops) s).flatMap Answer.ids) := by
  intro s
  have hcount : (after (run ops) s).engine.store.ruleCount = (d.binds ops).length := by
    rw [store_after_run_of_empty rfl, RuleStore.ruleCount_ofBinds]
  have hlive : s.engine.store.Live s.document := RuleStore.live_empty d
  refine reliable_of_live (live_run hlive ops) ?_
  rw [(run_binds ops s).1, hcount, List.range_eq_range']
  rfl

end Session

end TreeRules
