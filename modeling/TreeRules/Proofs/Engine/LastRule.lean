import TreeRules.Proofs.Engine.Binding

/-!
# Proofs/Engine/LastRule — the rule of a node is the last rule that names it

For a list of rules bound to one document the history of binds need not be spoken of: among the
rules whose target names a node, the last one is the rule of the node (`ruleFor?_bindsOf`).  A node
that is named is an element.
-/

namespace TreeRules

namespace Document

/-! ## Named nodes are elements -/

/-- What a target names are elements, whether a selector finds them or they are listed. -/
theorem contains_of_named {d : Document} {target : RuleTarget} {nodes : List Nat}
    (h : d.named? target = some nodes) {n : Nat} (hn : n ∈ nodes) : d.contains n = true := by
  cases target with
  | selector source =>
    rw [named?] at h
    cases hs : SelectorList.parse source with
    | error e => rw [hs] at h; exact absurd h (Option.some_ne_none nodes).symm
    | ok l =>
      rw [hs] at h
      rw [← Option.some.inj h] at hn
      exact contains_of_mem_descendants root (List.mem_filter.1 hn).1
  | nodes listed =>
    rw [named?] at h
    split at h
    · next hall => exact List.all_eq_true.1 hall n (Option.some.inj h ▸ hn)
    · exact absurd h (Option.some_ne_none nodes).symm

/-! ## The last rule -/

/-- Whether the target of a rule can be read and names the node. -/
def names (d : Document) (n : Nat) (rule : Rule) : Bool :=
  (d.named? rule.target).any (·.contains n)

/-- The last rule of a list that names a node. -/
def lastRule? (d : Document) (rules : List Rule) (n : Nat) : Option Rule :=
  (rules.filter (d.names n)).getLast?

/-- A rule at the end takes over the nodes that it names. -/
theorem lastRule?_append_singleton (d : Document) (rules : List Rule) (rule : Rule) (n : Nat) :
    d.lastRule? (rules ++ [rule]) n =
      if d.names n rule then some rule else d.lastRule? rules n := by
  rw [lastRule?, List.filter_append]
  cases h : d.names n rule with
  | true =>
    rw [List.filter_cons_of_pos h, List.filter_nil]
    exact List.getLast?_concat
  | false =>
    rw [List.filter_cons_of_neg (by rw [h]; exact Bool.false_ne_true), List.filter_nil,
      List.append_nil]
    rfl

theorem names_of_lastRule? {d : Document} {rules : List Rule} {n : Nat} {rule : Rule}
    (h : d.lastRule? rules n = some rule) : rule ∈ rules ∧ d.names n rule = true :=
  List.mem_filter.1 (List.mem_of_getLast? h)

theorem contains_of_names {d : Document} {n : Nat} {rule : Rule} (h : d.names n rule = true) :
    d.contains n = true := by
  obtain ⟨nodes, hnodes, hn⟩ := (Option.any_eq_true _ _).1 h
  exact contains_of_named hnodes (List.contains_iff_mem.1 hn)

end Document

namespace RuleStore

/-- The rule of a node is found by the number that is attached to it. -/
theorem ruleFor?_eq_some_iff {s : RuleStore} {n id : Nat} {rule : Rule} :
    s.ruleFor? n = some (id, rule) ↔ s.attached? n = some id ∧ s.get? id = some rule := by
  simp only [ruleFor?, Option.bind_eq_bind, Option.bind_eq_some_iff, Option.pure_def,
    Option.some.injEq, Prod.mk.injEq]
  constructor
  · rintro ⟨i, hi, r, hr, rfl, rfl⟩
    exact ⟨hi, hr⟩
  · rintro ⟨hi, hr⟩
    exact ⟨id, hi, rule, hr, rfl, rfl⟩

/-- A further bind gives its rule to the nodes that it names and to no other. -/
theorem ruleFor?_ofBinds_append_singleton (bs : List BoundRule) (b : BoundRule) (n : Nat) :
    (ofBinds (bs ++ [b])).ruleFor? n =
      if n ∈ b.nodes then some (bs.length, b.rule) else (ofBinds bs).ruleFor? n := by
  rw [ofBinds_append_singleton]
  split
  · next hn =>
    refine ruleFor?_eq_some_iff.2 ⟨?_, ?_⟩
    · rw [attached?_bind, if_pos hn, ruleCount_ofBinds]
    · rw [get?_bind, ruleCount_ofBinds, if_pos rfl]
  · next hn =>
    have ha : ((ofBinds bs).bind b).attached? n = (ofBinds bs).attached? n := by
      rw [attached?_bind, if_neg hn]
    cases h : (ofBinds bs).attached? n with
    | none =>
      rw [ruleFor?, ruleFor?, ha, h]
      rfl
    | some i =>
      -- the number of a node's rule is an old one
      have hi : i ≠ bs.length := Nat.ne_of_lt (lt_length_of_mem_placesOf (attached?_ofBinds.1 h).1)
      rw [ruleFor?, ruleFor?, ha, h, Option.bind_eq_bind, Option.bind_some, get?_bind,
        ruleCount_ofBinds, if_neg hi]
      rfl

/-- **The rule of a node is the last rule that names it.** -/
theorem ruleFor?_bindsOf (d : Document) (rules : List Rule) (n : Nat) :
    ((ofBinds (d.bindsOf rules)).ruleFor? n).map Prod.snd = d.lastRule? rules n := by
  induction rules using List.reverseRecOn with
  | nil => rfl
  | append_singleton rules rule ih =>
    rw [Document.bindsOf_append, Document.lastRule?_append_singleton, ← ih, Document.names]
    cases h : d.named? rule.target with
    | none =>
      rw [Document.bindsOf_cons_none h]
      exact congrArg (fun bs => ((ofBinds bs).ruleFor? n).map Prod.snd) (List.append_nil _)
    | some nodes =>
      have hone : d.bindsOf [rule] = [⟨rule, nodes⟩] := Document.bindsOf_cons_some h []
      rw [hone, ruleFor?_ofBinds_append_singleton, Option.any_some]
      by_cases hn : n ∈ nodes
      · rw [if_pos hn, if_pos (List.contains_iff_mem.2 hn)]
        rfl
      · rw [if_neg hn, if_neg (fun h => hn (List.contains_iff_mem.1 h))]

end RuleStore

end TreeRules
