import TreeRules.Rule.Basic

/-!
# Rule/Store — rules and the nodes they are bound to

Rules are only added, so a rule's number is its position.  A node is bound to one rule at a time,
the last one attached to it; the bound nodes are kept in increasing order.
-/

namespace TreeRules

/-! ## Nodes and their rules -/

namespace Attachments

/-- The rule of a node is replaced, or takes the node's place in the order. -/
def put (n r : Nat) : List (Nat × Nat) → List (Nat × Nat)
  | [] => [(n, r)]
  | (m, s) :: rest =>
    if n < m then (n, r) :: (m, s) :: rest
    else if n = m then (n, r) :: rest
    else (m, s) :: put n r rest

/-- The nodes of the list are those it had, and this one. -/
theorem mem_fst_put {n r m : Nat} {es : List (Nat × Nat)} :
    m ∈ (put n r es).map Prod.fst ↔ m = n ∨ m ∈ es.map Prod.fst := by
  induction es with
  | nil => simp [put]
  | cons e rest ih =>
    obtain ⟨k, s⟩ := e
    rw [put]
    split
    · simp
    · split
      · next h => subst h; simp
      · simp only [List.map_cons, List.mem_cons, ih]
        exact ⟨fun h => h.elim (fun h => .inr (.inl h)) fun h => h.elim .inl fun h => .inr (.inr h),
          fun h => h.elim (fun h => .inr (.inl h)) fun h => h.elim .inl fun h => .inr (.inr h)⟩

/-- The list stays in order. -/
theorem pairwise_put {n r : Nat} {es : List (Nat × Nat)}
    (h : (es.map Prod.fst).Pairwise (· < ·)) : ((put n r es).map Prod.fst).Pairwise (· < ·) := by
  induction es with
  | nil => simp [put]
  | cons e rest ih =>
    obtain ⟨k, s⟩ := e
    rw [List.map_cons, List.pairwise_cons] at h
    rw [put]
    split
    · next hn =>
      rw [List.map_cons, List.map_cons, List.pairwise_cons, List.pairwise_cons]
      refine ⟨fun m hm => ?_, h⟩
      rcases List.mem_cons.1 hm with rfl | hm
      · exact hn
      · exact Nat.lt_trans hn (h.1 m hm)
    · split
      · next hn => subst hn; exact List.pairwise_cons.2 h
      · next hn hn' =>
        rw [List.map_cons, List.pairwise_cons]
        refine ⟨fun m hm => ?_, ih h.2⟩
        rcases mem_fst_put.1 hm with rfl | hm
        · simp only at hn hn' ⊢; omega
        · exact h.1 m hm

/-- Only this node has another rule. -/
theorem lookup_put (n r m : Nat) (es : List (Nat × Nat))
    (h : (es.map Prod.fst).Pairwise (· < ·)) :
    (put n r es).lookup m = if m = n then some r else es.lookup m := by
  induction es with
  | nil => rw [put, Entries.lookup_cons]
  | cons e rest ih =>
    obtain ⟨k, s⟩ := e
    rw [List.map_cons, List.pairwise_cons] at h
    rw [put]
    split
    · rw [Entries.lookup_cons]
    · split
      · next hn =>
        subst hn
        rw [Entries.lookup_cons, Entries.lookup_cons]
        split <;> rfl
      · next hn hn' =>
        rw [Entries.lookup_cons, Entries.lookup_cons, ih h.2]
        by_cases hm : m = k
        · subst hm
          rw [if_pos rfl, if_pos rfl, if_neg (Ne.symm hn')]
        · rw [if_neg hm, if_neg hm]

end Attachments

/-! ## The store -/

/-- Rules by number, and the rule of every bound node. -/
structure RuleStore where
  rules : Array Rule
  bound : List (Nat × Nat)
  increasing : (bound.map Prod.fst).Pairwise (· < ·)

namespace RuleStore

def empty : RuleStore := ⟨#[], [], by simp⟩

def ruleCount (s : RuleStore) : Nat := s.rules.size

def boundCount (s : RuleStore) : Nat := s.bound.length

/-- The store with one more rule, and the rule's number. -/
def add (s : RuleStore) (rule : Rule) : RuleStore × Nat :=
  ({ s with rules := s.rules.push rule }, s.ruleCount)

/-- The rule with a number. -/
def get? (s : RuleStore) (id : Nat) : Option Rule := s.rules[id]?

/-- The number of the rule that a node is bound to. -/
def attached? (s : RuleStore) (n : Nat) : Option Nat := s.bound.lookup n

/-- The node is bound to the rule and to no other. -/
def attach (s : RuleStore) (n id : Nat) : RuleStore :=
  { s with
    bound := Attachments.put n id s.bound
    increasing := Attachments.pairwise_put s.increasing }

/-- The rule that a node is bound to, with its number. -/
def ruleFor? (s : RuleStore) (n : Nat) : Option (Nat × Rule) := do
  let id ← s.attached? n
  return (id, ← s.get? id)

/-- The nodes bound to a rule, in increasing order. -/
def nodesFor (s : RuleStore) (id : Nat) : List Nat :=
  (s.bound.filter fun e => e.2 == id).map Prod.fst

@[simp] theorem attached?_attach (s : RuleStore) (n id m : Nat) :
    (s.attach n id).attached? m = if m = n then some id else s.attached? m :=
  Attachments.lookup_put n id m s.bound s.increasing

@[simp] theorem rules_attach (s : RuleStore) (n id : Nat) : (s.attach n id).rules = s.rules := rfl

@[simp] theorem attached?_add (s : RuleStore) (rule : Rule) (m : Nat) :
    (s.add rule).1.attached? m = s.attached? m := rfl

/-- The nodes of a rule come in order, and each of them once. -/
theorem pairwise_nodesFor (s : RuleStore) (id : Nat) : (s.nodesFor id).Pairwise (· < ·) :=
  s.increasing.sublist (List.filter_sublist.map Prod.fst)

/-- They are the nodes that the rule is attached to. -/
theorem mem_nodesFor_iff (s : RuleStore) (n id : Nat) :
    n ∈ s.nodesFor id ↔ s.attached? n = some id := by
  obtain ⟨_, es, h⟩ := s
  simp only [nodesFor, attached?, List.mem_map, List.mem_filter]
  induction es with
  | nil => simp
  | cons e rest ih =>
    obtain ⟨k, r⟩ := e
    rw [List.map_cons, List.pairwise_cons] at h
    by_cases hn : n = k
    · subst hn
      have hr : ∀ s, (n, s) ∉ rest := fun s hs =>
        Nat.lt_irrefl n (h.1 n (List.mem_map.2 ⟨(n, s), hs, rfl⟩))
      constructor
      · rintro ⟨⟨a, b⟩, ⟨hm, hb⟩, rfl⟩
        rcases List.mem_cons.1 hm with hm | hm
        · rw [Entries.lookup_cons, if_pos rfl, ← (Prod.mk.inj hm).2]
          exact congrArg some (beq_iff_eq.1 hb)
        · exact absurd hm (hr b)
      · intro hl
        rw [Entries.lookup_cons, if_pos rfl, Option.some.injEq] at hl
        exact ⟨(n, r), ⟨List.mem_cons_self, beq_iff_eq.2 hl⟩, rfl⟩
    · rw [Entries.lookup_cons, if_neg hn, ← ih h.2]
      simp only [List.mem_cons]
      constructor
      · rintro ⟨a, ⟨hm | hm, ha⟩, rfl⟩
        · exact absurd (by rw [hm]) hn
        · exact ⟨a, ⟨hm, ha⟩, rfl⟩
      · rintro ⟨a, ⟨hm, ha⟩, rfl⟩
        exact ⟨a, ⟨.inr hm, ha⟩, rfl⟩

end RuleStore

end TreeRules
