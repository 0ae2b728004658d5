import Mathlib.Data.List.Induction
import Mathlib.Order.Bounds.Basic
import TreeRules.Proofs.Document.Below
import TreeRules.Proofs.Engine.Session

/-!
# Proofs/Engine/Binding — the last successful bind of a node wins

What binding does to a store is said by one function on stores, `RuleStore.bind`: the rule comes
last, and all of its nodes go over to it.  Every bind that succeeds is that function, every other
operation leaves the store alone, so the store after a run is the fold of `RuleStore.bind` over the
binds of the run (`Session.run_binds`) — and of a fold the last word on a node is read off by
induction from the right (`RuleStore.shows_ofBinds`).
-/

namespace TreeRules

/-! ## Targets -/

namespace Document

/-- A target that names no nodes: a selector that cannot be read, or a list with a node that is no
element. -/
def Unbindable (d : Document) : RuleTarget → Prop
  | .selector source => ∃ e, SelectorList.parse source = .error e
  | .nodes nodes => ∃ n ∈ nodes, d.contains n = false

/-- A target names nothing just if it cannot be bound. -/
theorem named?_eq_none_iff (d : Document) (target : RuleTarget) :
    d.named? target = none ↔ d.Unbindable target := by
  cases target with
  | selector source =>
    rw [named?, Unbindable]
    cases SelectorList.parse source <;> simp
  | nodes nodes =>
    rw [named?, Unbindable]
    simp

theorem bindsOf_append (d : Document) (xs ys : List Rule) :
    d.bindsOf (xs ++ ys) = d.bindsOf xs ++ d.bindsOf ys := List.filterMap_append

theorem bindsOf_cons_some {d : Document} {rule : Rule} {nodes : List Nat}
    (h : d.named? rule.target = some nodes) (rest : List Rule) :
    d.bindsOf (rule :: rest) = ⟨rule, nodes⟩ :: d.bindsOf rest :=
  List.filterMap_cons_some (by rw [h]; rfl)

theorem bindsOf_cons_none {d : Document} {rule : Rule} (h : d.named? rule.target = none)
    (rest : List Rule) : d.bindsOf (rule :: rest) = d.bindsOf rest :=
  List.filterMap_cons_none (by rw [h]; rfl)

theorem rule_mem_of_mem_bindsOf {d : Document} {rules : List Rule} {b : BoundRule}
    (h : b ∈ d.bindsOf rules) : b.rule ∈ rules := by
  obtain ⟨rule, hrule, hb⟩ := List.mem_filterMap.1 h
  obtain ⟨nodes, -, rfl⟩ := Option.map_eq_some_iff.1 hb
  exact hrule

end Document

/-- The nodes that the engine binds are those that the target names. -/
theorem Engine.toOption_nodesOf (d : Document) (target : RuleTarget) :
    (nodesOf d target).toOption = d.named? target := by
  cases target with
  | selector source =>
    rw [nodesOf, Document.named?, Document.query, Document.selectorFor,
      if_pos d.hasNode_root]
    cases SelectorList.parse source <;> rfl
  | nodes nodes =>
    rw [nodesOf, Document.named?]
    cases h : nodes.find? fun n => !d.contains n with
    | none =>
      rw [if_pos]
      · rfl
      · simpa using h
    | some missing =>
      have hm : d.contains missing = false := by simpa using List.find?_some h
      rw [if_neg]
      · rfl
      · exact fun hall => by
          rw [List.all_eq_true.1 hall missing (List.mem_of_find?_eq_some h)] at hm
          exact Bool.noConfusion hm

/-! ## Stores -/

namespace RuleStore

/-- The store with one more rule, to which all of the nodes are bound. -/
def bind (s : RuleStore) (b : BoundRule) : RuleStore :=
  b.nodes.foldl (fun t n => t.attach n s.ruleCount) (s.add b.rule).1

theorem rules_foldl_attach (id : Nat) (ns : List Nat) (s : RuleStore) :
    (ns.foldl (fun t n => t.attach n id) s).rules = s.rules := by
  induction ns generalizing s with
  | nil => rfl
  | cons n rest ih => rw [List.foldl_cons, ih, rules_attach]

/-- A rule that is attached to nodes takes them over and no others. -/
theorem attached?_foldl_attach (id m : Nat) (ns : List Nat) (s : RuleStore) :
    (ns.foldl (fun t n => t.attach n id) s).attached? m =
      if m ∈ ns then some id else s.attached? m := by
  induction ns generalizing s with
  | nil => simp
  | cons n rest ih =>
    rw [List.foldl_cons, ih, attached?_attach]
    by_cases hr : m ∈ rest
    · rw [if_pos hr, if_pos (List.mem_cons_of_mem n hr)]
    · rw [if_neg hr]
      by_cases hn : m = n <;> simp [hn, hr]

@[simp] theorem rules_bind (s : RuleStore) (b : BoundRule) :
    (s.bind b).rules = s.rules.push b.rule := rules_foldl_attach _ _ _

@[simp] theorem ruleCount_bind (s : RuleStore) (b : BoundRule) :
    (s.bind b).ruleCount = s.ruleCount + 1 := by
  rw [ruleCount, rules_bind, Array.size_push, ruleCount]

theorem ruleCount_foldl_bind (s : RuleStore) (bs : List BoundRule) :
    (bs.foldl bind s).ruleCount = s.ruleCount + bs.length := by
  induction bs generalizing s with
  | nil => rfl
  | cons b rest ih => rw [List.foldl_cons, ih, ruleCount_bind, List.length_cons]; omega

/-- **A bind takes over its nodes**, with the next number. -/
theorem attached?_bind (s : RuleStore) (b : BoundRule) (n : Nat) :
    (s.bind b).attached? n = if n ∈ b.nodes then some s.ruleCount else s.attached? n := by
  rw [bind, attached?_foldl_attach, attached?_add]

/-- Rules that have been bound stay what they are. -/
theorem get?_bind (s : RuleStore) (b : BoundRule) (i : Nat) :
    (s.bind b).get? i = if i = s.ruleCount then some b.rule else s.get? i := by
  rw [get?, rules_bind, Array.getElem?_push, ruleCount, get?]

/-- The store of binds that were made one after the other. -/
def ofBinds (bs : List BoundRule) : RuleStore := bs.foldl bind empty

theorem ofBinds_append_singleton (bs : List BoundRule) (b : BoundRule) :
    ofBinds (bs ++ [b]) = (ofBinds bs).bind b := by
  rw [ofBinds, List.foldl_append, ofBinds, List.foldl_cons, List.foldl_nil]

/-- The rules of the store are those that were bound, in order. -/
theorem rules_ofBinds (bs : List BoundRule) :
    (ofBinds bs).rules = (bs.map (·.rule)).toArray := by
  induction bs using List.reverseRecOn with
  | nil => rfl
  | append_singleton bs b ih =>
    rw [ofBinds_append_singleton, rules_bind, ih, List.map_append, List.push_toArray]
    rfl

theorem ruleCount_ofBinds (bs : List BoundRule) : (ofBinds bs).ruleCount = bs.length := by
  rw [ruleCount, rules_ofBinds, List.size_toArray, List.length_map]

/-- **The number of a rule is its place among the binds.** -/
theorem get?_ofBinds (bs : List BoundRule) (i : Nat) :
    (ofBinds bs).get? i = bs[i]?.map (·.rule) := by
  rw [get?, rules_ofBinds, List.getElem?_toArray, List.getElem?_map]

end RuleStore

/-! ## The last word on a node -/

/-- The places in a history of the binds that name a node. -/
def placesOf (n : Nat) (bs : List BoundRule) : Set Nat := {i | ∃ b, bs[i]? = some b ∧ n ∈ b.nodes}

theorem lt_length_of_mem_placesOf {n i : Nat} {bs : List BoundRule} (h : i ∈ placesOf n bs) :
    i < bs.length := by
  obtain ⟨b, hb, -⟩ := h
  exact (List.getElem?_eq_some_iff.1 hb).1

/-- A further bind is a place of a node if it names it. -/
theorem mem_placesOf_append_singleton {n i : Nat} {bs : List BoundRule} {b : BoundRule} :
    i ∈ placesOf n (bs ++ [b]) ↔ i ∈ placesOf n bs ∨ i = bs.length ∧ n ∈ b.nodes := by
  constructor
  · rintro ⟨c, hc, hn⟩
    rcases Nat.lt_trichotomy i bs.length with hi | rfl | hi
    · rw [List.getElem?_append_left hi] at hc
      exact .inl ⟨c, hc, hn⟩
    · rw [List.getElem?_concat_length, Option.some.injEq] at hc
      exact .inr ⟨rfl, hc ▸ hn⟩
    · rw [List.getElem?_eq_none (by rw [List.length_append, List.length_singleton]; omega)] at hc
      exact absurd hc (Option.some_ne_none c).symm
  · rintro (h | ⟨rfl, hn⟩)
    · have hi := lt_length_of_mem_placesOf h
      obtain ⟨c, hc, hn⟩ := h
      exact ⟨c, by rw [List.getElem?_append_left hi, hc], hn⟩
    · exact ⟨b, List.getElem?_concat_length, hn⟩

namespace RuleStore

/-- **The last bind wins** — a bind that names the node is later than all before it, and one that
does not changes nothing for the node. -/
theorem attached?_ofBinds {n i : Nat} {bs : List BoundRule} :
    (ofBinds bs).attached? n = some i ↔ IsGreatest (placesOf n bs) i := by
  induction bs using List.reverseRecOn generalizing i with
  | nil =>
    constructor
    · exact fun h => absurd h (Option.some_ne_none i).symm
    · exact fun h => absurd (lt_length_of_mem_placesOf h.1) (Nat.not_lt_zero i)
  | append_singleton bs b ih =>
    rw [ofBinds_append_singleton, attached?_bind, ruleCount_ofBinds]
    by_cases hn : n ∈ b.nodes
    · have hlast : IsGreatest (placesOf n (bs ++ [b])) bs.length := by
        refine ⟨mem_placesOf_append_singleton.2 (.inr ⟨rfl, hn⟩), fun j hj => ?_⟩
        have := lt_length_of_mem_placesOf hj
        rw [List.length_append, List.length_singleton] at this
        omega
      rw [if_pos hn, Option.some.injEq]
      exact ⟨fun h => h ▸ hlast, fun h => hlast.unique h⟩
    · have hsame : placesOf n (bs ++ [b]) = placesOf n bs := by
        ext j
        rw [mem_placesOf_append_singleton]
        exact ⟨fun h => h.elim id fun h => absurd h.2 hn, .inl⟩
      rw [if_neg hn, ih, hsame]

/-- A node that no bind has named has no rule. -/
theorem attached?_ofBinds_eq_none {n : Nat} {bs : List BoundRule} :
    (ofBinds bs).attached? n = none ↔ ∀ b ∈ bs, n ∉ b.nodes := by
  induction bs using List.reverseRecOn with
  | nil => exact ⟨fun _ b hb => absurd hb List.not_mem_nil, fun _ => rfl⟩
  | append_singleton bs b ih =>
    rw [ofBinds_append_singleton, attached?_bind]
    by_cases hn : n ∈ b.nodes
    · rw [if_pos hn]
      exact ⟨fun h => absurd h (Option.some_ne_none _),
        fun h => absurd hn (h b (List.mem_append_right bs List.mem_cons_self))⟩
    · rw [if_neg hn, ih]
      refine ⟨fun h c hc => ?_, fun h c hc => h c (List.mem_append_left [b] hc)⟩
      rcases List.mem_append.1 hc with hc | hc
      · exact h c hc
      · exact List.mem_singleton.1 hc ▸ hn

/-- A node that is attached has a rule to it. -/
theorem ruleFor?_ofBinds (n : Nat) (bs : List BoundRule) :
    ((ofBinds bs).ruleFor? n).map Prod.fst = (ofBinds bs).attached? n := by
  cases h : (ofBinds bs).attached? n with
  | none => rw [ruleFor?, h]; rfl
  | some i =>
    obtain ⟨b, hb, -⟩ := (attached?_ofBinds.1 h).1
    have hr : (ofBinds bs).get? i = some b.rule := by rw [get?_ofBinds, hb]; rfl
    rw [ruleFor?, h, Option.bind_eq_bind, Option.bind_some, hr]
    rfl

/-- A store shows a history of binds: its rules in order, and each node bound to the last of them
that names it. -/
structure Shows (s : RuleStore) (bs : List BoundRule) : Prop where
  ruleCount : s.ruleCount = bs.length
  get? : ∀ i, s.get? i = bs[i]?.map (·.rule)
  bound : ∀ n i, (s.ruleFor? n).map Prod.fst = some i ↔ IsGreatest (placesOf n bs) i
  unbound : ∀ n, (s.ruleFor? n).map Prod.fst = none ↔ ∀ b ∈ bs, n ∉ b.nodes

theorem shows_ofBinds (bs : List BoundRule) : (ofBinds bs).Shows bs where
  ruleCount := ruleCount_ofBinds bs
  get? := get?_ofBinds bs
  bound n i := by rw [ruleFor?_ofBinds, attached?_ofBinds]
  unbound n := by rw [ruleFor?_ofBinds, attached?_ofBinds_eq_none]

end RuleStore

/-! ## What the engine does -/

namespace Engine

theorem value_attachAll (id : Nat) (ns : List Nat) (s : RuleStore) :
    (attachAll id ns s).value = ns.foldl (fun t n => t.attach n id) s := by
  induction ns generalizing s with
  | nil => rfl
  | cons n rest ih =>
    rw [attachAll, List.foldl_cons, ← ih]
    cases s.attached? n <;> rfl

/-- A bind that succeeds hands out the next number. -/
theorem value_bindRule_ok {d : Document} {rule : Rule} {nodes : List Nat}
    (h : nodesOf d rule.target = .ok nodes) (e : Engine) :
    (bindRule d rule e).value =
      (.ok e.store.ruleCount, { e with store := e.store.bind ⟨rule, nodes⟩ }) := by
  have hv : (bindRule d rule e).value = (.ok e.store.ruleCount,
      { e with store := (attachAll e.store.ruleCount nodes (e.store.add rule).1).value }) := by
    simp only [bindRule, h]
    split <;> rfl
  rw [hv, value_attachAll]
  rfl

/-- A bind that fails changes nothing. -/
theorem value_bindRule_error {d : Document} {rule : Rule} {error : EngineError}
    (h : nodesOf d rule.target = .error error) (e : Engine) :
    (bindRule d rule e).value = (.error error, e) := by
  simp only [bindRule, h]
  rfl

/-- A target that names nodes: the rule gets the next number and the nodes go over to it. -/
theorem bindRule_of_named {d : Document} {rule : Rule} {nodes : List Nat}
    (h : d.named? rule.target = some nodes) (e : Engine) :
    answer (bindRule d rule) e = .ok e.store.ruleCount ∧
      after (bindRule d rule) e = { e with store := e.store.bind ⟨rule, nodes⟩ } := by
  have := toOption_nodesOf d rule.target
  rw [h] at this
  cases hc : nodesOf d rule.target with
  | error error => rw [hc] at this; exact absurd this (Option.some_ne_none nodes).symm
  | ok found =>
    rw [hc] at this
    rw [answer, after, value_bindRule_ok hc, Option.some.inj this]
    exact ⟨rfl, rfl⟩

/-- A target that names none: nothing has happened. -/
theorem bindRule_of_unnamed {d : Document} {rule : Rule} (h : d.named? rule.target = none)
    (e : Engine) :
    (∃ error, answer (bindRule d rule) e = .error error) ∧ after (bindRule d rule) e = e := by
  have := toOption_nodesOf d rule.target
  rw [h] at this
  cases hc : nodesOf d rule.target with
  | ok nodes => rw [hc] at this; exact absurd this (Option.some_ne_none nodes)
  | error error =>
    rw [answer, after, value_bindRule_error hc]
    exact ⟨⟨error, rfl⟩, rfl⟩

/-- Binding a list of rules: those that can be bound are numbered on, the others leave no trace. -/
theorem bindRulesFrom_eq (d : Document) (index : Nat) (rules : List Rule) (e : Engine) :
    answer (bindRulesFrom d index rules) e =
        List.range' e.store.ruleCount (d.bindsOf rules).length ∧
      after (bindRulesFrom d index rules) e =
        { e with store := (d.bindsOf rules).foldl RuleStore.bind e.store } := by
  induction rules generalizing index e with
  | nil => exact ⟨rfl, rfl⟩
  | cons rule rest ih =>
    rw [bindRulesFrom, answer_bind, after_bind]
    cases h : d.named? rule.target with
    | some nodes =>
      obtain ⟨ha, hs⟩ := bindRule_of_named h e
      obtain ⟨iha, ihs⟩ := ih (index + 1) { e with store := e.store.bind ⟨rule, nodes⟩ }
      rw [ha, hs, Document.bindsOf_cons_some h, List.length_cons, List.range'_succ,
        List.foldl_cons]
      simp only [answer_bind, after_bind, answer_pure, after_pure, iha, ihs,
        RuleStore.ruleCount_bind, and_self]
    | none =>
      obtain ⟨⟨error, ha⟩, hs⟩ := bindRule_of_unnamed h e
      rw [ha, hs, Document.bindsOf_cons_none h]
      exact ih (index + 1) e

/-- The numbers that are handed out go on from those there are. -/
theorem bindRules_eq (d : Document) (rules : List Rule) (e : Engine) :
    answer (bindRules d rules) e = List.range' e.store.ruleCount (d.bindsOf rules).length ∧
      after (bindRules d rules) e =
        { e with store := (d.bindsOf rules).foldl RuleStore.bind e.store } :=
  bindRulesFrom_eq d 0 rules e

/-! ### Running rules -/

/-- A relation between engines with the same rules that running a rule does not break. -/
structure Carried (R : Engine → Engine → Prop) (d : Document) : Prop where
  store : ∀ e e', R e e' → e.store = e'.store
  execute : ∀ n rule, Agree R (execute d n rule) (execute d n rule)

namespace Carried

variable {R : Engine → Engine → Prop} {d : Document}

theorem boundRule (h : Carried R d) (n : Nat) : Agree R (boundRule d n) (boundRule d n) := by
  refine agree_get fun e e' he => ?_
  rw [h.store e e' he]
  cases e'.store.ruleFor? n with
  | some r => exact agree_pure _
  | none => exact (agree_lift rfl).bind fun _ => agree_pure _

/-- Runs agree, with a rule of their own or with that of the node. -/
theorem run (h : Carried R d) (n : Nat) (rule : Option Rule) :
    Agree R (run d n rule) (run d n rule) := by
  cases rule with
  | some rule => exact (h.execute n rule).bind fun _ => agree_pure _
  | none =>
    refine (h.boundRule n).bind fun r => ?_
    cases r with
    | ok rule => exact (h.execute n rule).bind fun _ => agree_pure _
    | error e => exact agree_pure _

theorem validate (h : Carried R d) (n : Nat) (rule : Option Rule) :
    Agree R (validate d n rule) (validate d n rule) :=
  (h.run n rule).bind fun _ => agree_pure _

theorem handleEvent (h : Carried R d) (n : Nat) (event : String) :
    Agree R (handleEvent d n event) (handleEvent d n event) := by
  refine (h.boundRule n).bind fun r => ?_
  cases r with
  | error e => exact agree_pure _
  | ok rule =>
    dsimp only
    split
    · exact (h.execute n rule).bind fun _ => agree_pure _
    · exact (agree_lift rfl).bind fun _ => agree_pure _

theorem validateRule (h : Carried R d) (id : Nat) :
    Agree R (validateRule d id) (validateRule d id) := by
  refine agree_get fun e e' he => ?_
  rw [h.store e e' he]
  dsimp only
  cases e'.store.get? id with
  | none => exact agree_pure _
  | some rule =>
    refine Agree.bind (Agree.mapM fun n _ => ?_) fun _ => agree_pure _
    exact (h.execute n rule).bind fun _ => agree_pure _

end Carried

/-- Running rules keeps what does not look at the memories. -/
theorem carried_of_memories {P : Engine → Prop} (hP : ∀ e m, P e → P { e with memories := m })
    (d : Document) : Carried (fun e e' => e = e' ∧ P e) d where
  store _ _ h := congrArg Engine.store h.1
  execute n rule := by
    rintro e _ ⟨rfl, h⟩
    exact ⟨rfl, rfl, hP e _ h⟩

/-- Running rules leaves the store alone. -/
theorem carried_store (store : RuleStore) (d : Document) :
    Carried (fun e e' => e = e' ∧ e.store = store) d := carried_of_memories (fun _ _ h => h) d

end Engine

/-! ## What a session does -/

namespace Session

/-- **One operation binds what the document says it binds** — the store is extended by just those
binds, and their numbers are handed out in order. -/
theorem step_binds (op : Operation) (s : Session) :
    (answer (step op) s).ids =
        List.range' s.engine.store.ruleCount (s.document.bindsIn op).length ∧
      (after (step op) s).engine.store =
        (s.document.bindsIn op).foldl RuleStore.bind s.engine.store := by
  have hrun := Engine.carried_store s.engine.store s.document
  cases op with
  | bind rule =>
    change (Answer.bound (answer (Engine.bindRule s.document rule) s.engine)).ids = _ ∧
      (after (Engine.bindRule s.document rule) s.engine).store = _
    rw [Document.bindsIn]
    cases h : s.document.named? rule.target with
    | some nodes =>
      obtain ⟨ha, hs⟩ := Engine.bindRule_of_named h s.engine
      rw [ha, hs, Document.bindsOf_cons_some h]
      exact ⟨rfl, rfl⟩
    | none =>
      obtain ⟨⟨error, ha⟩, hs⟩ := Engine.bindRule_of_unnamed h s.engine
      rw [ha, hs, Document.bindsOf_cons_none h]
      exact ⟨rfl, rfl⟩
  | bindAll rules => exact (Engine.bindRules_eq s.document rules s.engine).imp id (congrArg _)
  | append parent spec => exact ⟨rfl, congrArg Engine.store (engine_after_revise _ s)⟩
  | setValue n value => exact ⟨rfl, congrArg Engine.store (engine_after_revise _ s)⟩
  | register name entry => exact ⟨rfl, rfl⟩
  | resolve start path => exact ⟨rfl, rfl⟩
  | run n rule => exact ⟨rfl, ((hrun.run n rule).keeps) _ rfl⟩
  | validate n rule => exact ⟨rfl, ((hrun.validate n rule).keeps) _ rfl⟩
  | event n event => exact ⟨rfl, ((hrun.handleEvent n event).keeps) _ rfl⟩
  | validateRule id => exact ⟨rfl, ((hrun.validateRule id).keeps) _ rfl⟩

/-- The store after a run is the fold of the binds of the run, and their numbers come in order. -/
theorem run_binds (ops : List Operation) (s : Session) :
    (answer (run ops) s).flatMap Answer.ids =
        List.range' s.engine.store.ruleCount (s.document.binds ops).length ∧
      (after (run ops) s).engine.store =
        (s.document.binds ops).foldl RuleStore.bind s.engine.store := by
  induction ops generalizing s with
  | nil =>
    rw [answer_run_nil, after_run_nil]
    exact ⟨rfl, rfl⟩
  | cons op rest ih =>
    obtain ⟨ha, hs⟩ := step_binds op s
    obtain ⟨iha, ihs⟩ := ih (after (step op) s)
    rw [answer_run_cons, after_run_cons, List.flatMap_cons, ha, iha, ihs, document_after_step, hs,
      Document.binds, List.foldl_append, List.length_append, RuleStore.ruleCount_foldl_bind,
      List.range'_append_1]
    exact ⟨rfl, rfl⟩

/-- The run of a session whose engine has no rules yet. -/
theorem store_after_run_of_empty {s : Session} (h : s.engine.store = .empty)
    (ops : List Operation) :
    (after (run ops) s).engine.store = .ofBinds (s.document.binds ops) := by
  rw [(run_binds ops s).2, h, RuleStore.ofBinds]

/-- **The last successful bind wins.**  From an engine without rules, after any run:

* the store shows the binds of the run that succeeded, each on the document as it stood;
* they were numbered from `0` on in the order in which they were made, and the next operation goes
  on from there;
* a rule keeps its number whatever follows;
* a bind fails just if its target is unbindable, and then the engine is as it was, also if the rule
  stands in the middle of a list. -/
theorem last_successful_bind_wins (config : EngineConfig) (registry : Registry)
    (memories : Memories) (d : Document) (ops : List Operation) :
    let s : Session := ⟨⟨config, registry, .empty, memories⟩, d⟩
    let s' := after (run ops) s
    s'.engine.store.Shows (d.binds ops) ∧
    (answer (run ops) s).flatMap Answer.ids = List.range (d.binds ops).length ∧
    (∀ op, (answer (step op) s').ids =
      List.range' (d.binds ops).length (s'.document.bindsIn op).length) ∧
    (∀ more i b, (d.binds ops)[i]? = some b →
      (after (run more) s').engine.store.get? i = some b.rule) ∧
    (∀ rule, (∃ error, answer (Engine.bindRule s'.document rule) s'.engine = .error error) ↔
      s'.document.Unbindable rule.target) ∧
    (∀ rule before rest, s'.document.Unbindable rule.target →
      after (Engine.bindRule s'.document rule) s'.engine = s'.engine ∧
      answer (Engine.bindRules s'.document (before ++ rule :: rest)) s'.engine =
        answer (Engine.bindRules s'.document (before ++ rest)) s'.engine ∧
      after (Engine.bindRules s'.document (before ++ rule :: rest)) s'.engine =
        after (Engine.bindRules s'.document (before ++ rest)) s'.engine) := by
  intro s s'
  have hstore : s'.engine.store = .ofBinds (d.binds ops) := store_after_run_of_empty rfl ops
  have hcount : s'.engine.store.ruleCount = (d.binds ops).length := by
    rw [hstore, RuleStore.ruleCount_ofBinds]
  refine ⟨hstore ▸ RuleStore.shows_ofBinds _, ?_, fun op => ?_, fun more i b hb => ?_,
    fun rule => ?_, fun rule before rest h => ?_⟩
  · rw [(run_binds ops s).1, List.range_eq_range']
    rfl
  · rw [(step_binds op s').1, hcount]
  · have hmore : (after (run more) s').engine.store =
        .ofBinds (d.binds ops ++ s'.document.binds more) := by
      rw [(run_binds more s').2, hstore, RuleStore.ofBinds, RuleStore.ofBinds, List.foldl_append]
    rw [hmore, RuleStore.get?_ofBinds, List.getElem?_append_left (List.getElem?_eq_some_iff.1 hb).1,
      hb]
    rfl
  · rw [← Document.named?_eq_none_iff]
    cases h : s'.document.named? rule.target with
    | some nodes =>
      rw [(Engine.bindRule_of_named h s'.engine).1]
      exact ⟨fun ⟨_, he⟩ => (nomatch he), fun hn => absurd hn (Option.some_ne_none nodes)⟩
    | none => exact ⟨fun _ => rfl, fun _ => (Engine.bindRule_of_unnamed h s'.engine).1⟩
  · rw [← Document.named?_eq_none_iff] at h
    have hbinds : s'.document.bindsOf (before ++ rule :: rest) =
        s'.document.bindsOf (before ++ rest) := by
      rw [Document.bindsOf_append, Document.bindsOf_cons_none h, ← Document.bindsOf_append]
    obtain ⟨ha, hs⟩ := Engine.bindRules_eq s'.document (before ++ rule :: rest) s'.engine
    obtain ⟨ha', hs'⟩ := Engine.bindRules_eq s'.document (before ++ rest) s'.engine
    rw [ha, ha', hs, hs', hbinds]
    exact ⟨(Engine.bindRule_of_unnamed h s'.engine).2, rfl, rfl⟩

end Session

end TreeRules
