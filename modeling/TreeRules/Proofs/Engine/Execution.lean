import Mathlib.Data.List.Basic
import Mathlib.Data.List.Induction
import TreeRules.Engine.Basic
import TreeRules.Proofs.Validator.Memories

/-!
# Proofs/Engine/Execution — a rule's outcome is the ordered composition of its bindings

Bindings leave their outcomes one behind the other, each numbered by its place.  Two laws carry
everything: the bindings of a row run as those of its front and then those of its back
(`Engine.runBindings_append`), and numbering them from somewhere else only shifts the numbers
(`Engine.runBindings_shift`).  So one binding at a time can be taken off the end, and what it leaves
is known (`Engine.runBinding_known`, `Engine.runBinding_unknown`).
-/

namespace TreeRules

/-! ## Numbers of bindings -/

def Record.shift (k : Nat) (r : Record) : Record := { r with binding := r.binding + k }

def Diagnostic.shift (k : Nat) : Diagnostic → Diagnostic
  | unknownValidator i name => unknownValidator (i + k) name

/-- The record as it is numbered if there is one more binding at the place `k`. -/
def Record.skip (k : Nat) (r : Record) : Record := if k ≤ r.binding then r.shift 1 else r

/-- The outcome of the same bindings if there are `k` more before them. -/
def Outcome.shift (k : Nat) (o : Outcome) : Outcome :=
  ⟨o.records.map (·.shift k), o.diagnostics.map (·.shift k), o.ran.map (· + k)⟩

namespace Outcome

theorem ext {o o' : Outcome} (h : o.records = o'.records) (h' : o.diagnostics = o'.diagnostics)
    (h'' : o.ran = o'.ran) : o = o' := by
  cases o; cases o'; simp_all

@[simp] theorem records_shift (k : Nat) (o : Outcome) :
    (o.shift k).records = o.records.map (·.shift k) := rfl

theorem append_assoc (a b c : Outcome) : a ++ b ++ c = a ++ (b ++ c) :=
  ext (List.append_assoc _ _ _) (List.append_assoc _ _ _) (List.append_assoc _ _ _)

theorem append_empty (o : Outcome) : o ++ empty = o :=
  ext (List.append_nil _) (List.append_nil _) (List.append_nil _)

theorem shift_append (k : Nat) (a b : Outcome) : (a ++ b).shift k = a.shift k ++ b.shift k :=
  ext List.map_append List.map_append List.map_append

end Outcome

namespace Engine

variable (config : EngineConfig) (registry : Registry) (d : Document) (n : Nat)

/-! ## One binding -/

/-- The record of one failure.  The message is the binding's own for this kind, else that of the
validator, else the fallback. -/
def recordOf (entry : Registration) (index : Nat) (b : Binding) (kind : String) : Record where
  severity := b.severity
  message :=
    match b.messages.get? kind, entry.messages.get? kind with
    | some message, _ => message
    | none, some message => message
    | none, none => config.fallbackMessage
  node := n
  element := d.describe n
  validator := b.validator
  kind
  binding := index

theorem messageFor_eq (b : Binding) (entry : Registration) (kind : String) (index : Nat) :
    messageFor config b entry kind = (recordOf config d n entry index b kind).message := by
  rw [messageFor, recordOf]
  cases b.messages.get? kind <;> cases entry.messages.get? kind <;> rfl

/-- A binding whose validator is registered: one record for each kind that it returns. -/
theorem runBinding_known {b : Binding} {entry : Registration}
    (h : registry.get? b.validator = some entry) (index : Nat) (m : Memories) :
    let call := entry.validator.apply (d.value n) b.options d n
    answer (runBinding config registry d n index b) m =
        ⟨(answer call m).map (recordOf config d n entry index b), [], [index]⟩ ∧
      after (runBinding config registry d n index b) m = after call m := by
  rw [runBinding, h]
  refine ⟨Outcome.ext ?_ rfl rfl, rfl⟩
  refine List.map_congr_left fun kind _ => ?_
  rw [messageFor_eq config d n b entry kind index]
  rfl

/-- A binding whose validator is not: a diagnostic, and nothing is remembered. -/
theorem runBinding_unknown {b : Binding} (h : registry.get? b.validator = none) (index : Nat)
    (m : Memories) :
    answer (runBinding config registry d n index b) m =
        ⟨[], [.unknownValidator index b.validator], []⟩ ∧
      after (runBinding config registry d n index b) m = m := by
  rw [runBinding, h]
  exact ⟨rfl, rfl⟩

theorem runBinding_shift (b : Binding) (index k : Nat) (m : Memories) :
    answer (runBinding config registry d n (index + k) b) m =
        (answer (runBinding config registry d n index b) m).shift k ∧
      after (runBinding config registry d n (index + k) b) m =
        after (runBinding config registry d n index b) m := by
  cases h : registry.get? b.validator with
  | none =>
    obtain ⟨ha, hm⟩ := runBinding_unknown config registry d n h index m
    obtain ⟨ha', hm'⟩ := runBinding_unknown config registry d n h (index + k) m
    rw [ha, ha', hm, hm']
    exact ⟨rfl, rfl⟩
  | some entry =>
    obtain ⟨ha, hm⟩ := runBinding_known config registry d n h index m
    obtain ⟨ha', hm'⟩ := runBinding_known config registry d n h (index + k) m
    rw [ha, ha', hm, hm']
    exact ⟨Outcome.ext (by rw [Outcome.records_shift, List.map_map]; rfl) rfl rfl, rfl⟩

/-! ## Rows of bindings -/

theorem runBindings_append (index : Nat) (xs ys : List Binding) (m : Memories) :
    let first := runBindings config registry d n index xs
    let rest := runBindings config registry d n (index + xs.length) ys
    answer (runBindings config registry d n index (xs ++ ys)) m =
        answer first m ++ answer rest (after first m) ∧
      after (runBindings config registry d n index (xs ++ ys)) m = after rest (after first m) := by
  induction xs generalizing index m with
  | nil => exact ⟨rfl, rfl⟩
  | cons b xs ih =>
    obtain ⟨ha, hm⟩ := ih (index + 1) (after (runBinding config registry d n index b) m)
    simp only [List.cons_append, List.length_cons, runBindings, answer_bind, after_bind,
      answer_pure, after_pure, ha, hm, Outcome.append_assoc, Nat.add_assoc, Nat.add_comm 1,
      and_self]

theorem runBindings_shift (index k : Nat) (bs : List Binding) (m : Memories) :
    answer (runBindings config registry d n (index + k) bs) m =
        (answer (runBindings config registry d n index bs) m).shift k ∧
      after (runBindings config registry d n (index + k) bs) m =
        after (runBindings config registry d n index bs) m := by
  induction bs generalizing index m with
  | nil => exact ⟨rfl, rfl⟩
  | cons b bs ih =>
    obtain ⟨ha, hm⟩ := runBinding_shift config registry d n b index k m
    obtain ⟨iha, ihm⟩ := ih (index + 1) (after (runBinding config registry d n index b) m)
    rw [Nat.add_right_comm] at iha ihm
    simp only [runBindings, answer_bind, after_bind, answer_pure, after_pure, ha, hm, iha, ihm,
      Outcome.shift_append, and_self]

/-- The bindings after `xs`, numbered as they are in the whole row. -/
theorem runBindings_split (xs ys : List Binding) (m : Memories) :
    let first := runBindings config registry d n 0 xs
    let rest := runBindings config registry d n 0 ys
    answer (runBindings config registry d n 0 (xs ++ ys)) m =
        answer first m ++ (answer rest (after first m)).shift xs.length ∧
      after (runBindings config registry d n 0 (xs ++ ys)) m = after rest (after first m) := by
  intro first rest
  obtain ⟨ha, hm⟩ := runBindings_append config registry d n 0 xs ys m
  obtain ⟨hs, ht⟩ := runBindings_shift config registry d n 0 xs.length ys (after first m)
  rw [ha, hm, hs, ht]
  exact ⟨rfl, rfl⟩

/-- One binding more at the end. -/
theorem runBindings_append_singleton (bs : List Binding) (b : Binding) (m : Memories) :
    let first := runBindings config registry d n 0 bs
    let last := runBinding config registry d n bs.length b
    answer (runBindings config registry d n 0 (bs ++ [b])) m =
        answer first m ++ answer last (after first m) ∧
      after (runBindings config registry d n 0 (bs ++ [b])) m = after last (after first m) := by
  intro first last
  obtain ⟨ha, hm⟩ := runBindings_append config registry d n 0 bs [b] m
  rw [ha, hm, Nat.zero_add]
  refine ⟨congrArg _ ?_, rfl⟩
  exact Outcome.append_empty _

/-! ## The composition -/

/-- What a row of bindings leaves behind, told binding by binding: the places of the registered
validators, diagnostics for the others, and one record for each of the `kinds` that the validator
of a binding returns. -/
def composed (kinds : Nat → Binding → Registration → List String) (bs : List Binding) : Outcome :=
  let isKnown : Binding × Nat → Bool := fun (b, _) => registry.contains b.validator
  { ran := (bs.zipIdx.filter isKnown).map Prod.snd
    diagnostics :=
      (bs.zipIdx.filter (!isKnown ·)).map fun (b, i) => .unknownValidator i b.validator
    records := bs.zipIdx.flatMap fun (b, i) =>
      match registry.get? b.validator with
      | some entry => (kinds i b entry).map (recordOf config d n entry i b)
      | none => [] }

theorem composed_congr {kinds kinds' : Nat → Binding → Registration → List String}
    {bs : List Binding} (h : ∀ i b entry, bs[i]? = some b →
      registry.get? b.validator = some entry → kinds i b entry = kinds' i b entry) :
    composed config registry d n kinds bs = composed config registry d n kinds' bs := by
  refine Outcome.ext (List.flatMap_congr fun ⟨b, i⟩ hp => ?_) rfl rfl
  dsimp only
  cases hg : registry.get? b.validator with
  | none => rfl
  | some entry =>
    dsimp only
    rw [h i b entry (List.mk_mem_zipIdx_iff_getElem?.1 hp) hg]

theorem composed_append_singleton (kinds : Nat → Binding → Registration → List String)
    (bs : List Binding) (b : Binding) :
    composed config registry d n kinds (bs ++ [b]) = composed config registry d n kinds bs ++
      match registry.get? b.validator with
      | some entry =>
        ⟨(kinds bs.length b entry).map (recordOf config d n entry bs.length b), [], [bs.length]⟩
      | none => ⟨[], [.unknownValidator bs.length b.validator], []⟩ := by
  have hz : (bs ++ [b]).zipIdx = bs.zipIdx ++ [(b, bs.length)] := by
    rw [List.zipIdx_append, Nat.zero_add]
    rfl
  rw [composed, composed, hz]
  cases h : registry.get? b.validator with
  | none =>
    have hc : registry.contains b.validator = false := by rw [Table.contains, h]; rfl
    refine Outcome.ext ?_ ?_ ?_ <;> simp [h, hc]
  | some entry =>
    have hc : registry.contains b.validator = true := by rw [Table.contains, h]; rfl
    refine Outcome.ext ?_ ?_ ?_ <;> simp [h, hc]

/-- What the validator of a binding returns for a node, with the memories at the binding's place. -/
def kindsFrom (memories : Nat → Memories) (i : Nat) (b : Binding) (entry : Registration) :
    List String :=
  answer (entry.validator.apply (d.value n) b.options d n) (memories i)

/-- **The outcome of a row is composed of its bindings** — each validator is called with what the
bindings before it have left to be remembered. -/
theorem runBindings_eq_composed (bs : List Binding) (m : Memories) :
    answer (runBindings config registry d n 0 bs) m =
      composed config registry d n (kindsFrom d n fun i =>
        after (runBindings config registry d n 0 (bs.take i)) m) bs := by
  induction bs using List.reverseRecOn with
  | nil => rfl
  | append_singleton bs b ih =>
    -- the bindings before one of `bs` are the same in the longer row
    have hfront : ∀ i, i < bs.length → (bs ++ [b]).take i = bs.take i := fun i hi =>
      List.take_append_of_le_length (Nat.le_of_lt hi)
    rw [(runBindings_append_singleton config registry d n bs b m).1, ih,
      composed_append_singleton]
    refine congrArg₂ _ (composed_congr config registry d n fun i c entry hi _ => ?_) ?_
    · rw [kindsFrom, kindsFrom, hfront i (List.getElem?_eq_some_iff.1 hi).1]
    · cases h : registry.get? b.validator with
      | none => exact (runBinding_unknown config registry d n h bs.length _).1
      | some entry =>
        simp only [kindsFrom, List.take_left]
        exact (runBinding_known config registry d n h bs.length _).1

theorem binding_lt_of_mem_records {bs : List Binding} {m : Memories} {r : Record}
    (h : r ∈ (answer (runBindings config registry d n 0 bs) m).records) :
    r.binding < bs.length := by
  rw [runBindings_eq_composed, composed, List.mem_flatMap] at h
  obtain ⟨⟨b, i⟩, hb, hr⟩ := h
  cases hg : registry.get? b.validator with
  | none =>
    simp only [hg] at hr
    exact absurd hr List.not_mem_nil
  | some entry =>
    simp only [hg, List.mem_map] at hr
    obtain ⟨kind, -, rfl⟩ := hr
    exact (List.mem_zipIdx' hb).1

theorem runBindings_cons_unknown {b : Binding} (h : registry.get? b.validator = none)
    (bs : List Binding) (m : Memories) :
    (answer (runBindings config registry d n 0 (b :: bs)) m).records =
        (answer (runBindings config registry d n 0 bs) m).records.map (·.shift 1) ∧
      after (runBindings config registry d n 0 (b :: bs)) m =
        after (runBindings config registry d n 0 bs) m := by
  obtain ⟨ha, hm⟩ := runBinding_unknown config registry d n h 0 m
  obtain ⟨hs, ht⟩ := runBindings_shift config registry d n 0 1 bs m
  rw [runBindings, answer_bind, after_bind, answer_bind, after_bind, ha, hm, hs, ht]
  exact ⟨rfl, rfl⟩

/-- A binding whose validator is not registered leaves the records of the others as they are, but
for the numbers of those after it, and nothing to be remembered. -/
theorem runBindings_unknown {b : Binding} (h : registry.get? b.validator = none)
    (xs ys : List Binding) (m : Memories) :
    (answer (runBindings config registry d n 0 (xs ++ b :: ys)) m).records =
        (answer (runBindings config registry d n 0 (xs ++ ys)) m).records.map
          (·.skip xs.length) ∧
      after (runBindings config registry d n 0 (xs ++ b :: ys)) m =
        after (runBindings config registry d n 0 (xs ++ ys)) m := by
  obtain ⟨ha, hm⟩ := runBindings_split config registry d n xs (b :: ys) m
  obtain ⟨ha', hm'⟩ := runBindings_split config registry d n xs ys m
  obtain ⟨hr, ht⟩ := runBindings_cons_unknown config registry d n h ys
    (after (runBindings config registry d n 0 xs) m)
  refine ⟨?_, by rw [hm, hm', ht]⟩
  have hfront : ∀ r ∈ (answer (runBindings config registry d n 0 xs) m).records,
      r.skip xs.length = r := fun r hmem =>
    if_neg (Nat.not_le_of_lt (binding_lt_of_mem_records config registry d n hmem))
  have hback : ∀ r : Record, (r.shift xs.length).skip xs.length = (r.shift 1).shift xs.length := by
    intro r
    have hle : xs.length ≤ (r.shift xs.length).binding := Nat.le_add_left _ _
    rw [Record.skip, if_pos hle, Record.shift, Record.shift, Record.shift, Record.shift,
      Nat.add_right_comm]
  rw [ha, ha', Outcome.records_append, Outcome.records_append, Outcome.records_shift,
    Outcome.records_shift, hr, List.map_append, List.map_map, List.map_map,
    List.map_congr_left hfront, List.map_id']
  exact congrArg _ (List.map_congr_left fun r _ => (hback r).symm)

/-! ## What bindings can see -/

/-- A new engine keeps paths soundly. -/
theorem sound_resolverOf (config : EngineConfig) : (resolverOf config).Sound := by
  rw [resolverOf]
  split
  · exact Resolver.sound_some.2 (PathCache.sound_ofCapacity _)
  · exact Resolver.sound_uncached

section Seeing

variable {Q : Check.Pattern.Memory → Check.Pattern.Memory → Prop} {config config' : EngineConfig}
  {registry : Registry} {d : Document} {n : Nat}

/-- The pattern checks that a binding asks for do not show how the patterns are related. -/
def Blind (Q : Check.Pattern.Memory → Check.Pattern.Memory → Prop) (registry : Registry)
    (value : String) (b : Binding) : Prop :=
  ∀ entry, registry.get? b.validator = some entry → entry.validator = .pattern →
    Agree Q (Check.Pattern.check value b.options) (Check.Pattern.check value b.options)

/-- From the same patterns the pattern validator does the same. -/
theorem blind_eq (registry : Registry) (value : String) (b : Binding) : Blind Eq registry value b :=
  fun _ _ _ _ _ h => ⟨congrArg _ h, congrArg _ h⟩

/-- Of the settings a binding sees the fallback message alone. -/
theorem agree_runBinding (hc : config.fallbackMessage = config'.fallbackMessage) {b : Binding}
    (h : Blind Q registry (d.value n) b) (index : Nat) :
    Agree (Memories.Alike Q) (runBinding config registry d n index b)
      (runBinding config' registry d n index b) := by
  have hm : messageFor config = messageFor config' := by
    funext b entry kind
    rw [messageFor, messageFor, hc]
  rw [runBinding, runBinding, hm]
  cases hg : registry.get? b.validator with
  | none => exact (agree_lift rfl).bind fun _ => agree_pure _
  | some entry =>
    refine (Validator.agree_apply (h entry hg)).bind fun kinds => ?_
    exact (agree_lift rfl).bind fun _ => agree_pure _

theorem agree_runBindings (hc : config.fallbackMessage = config'.fallbackMessage)
    {bs : List Binding} (h : ∀ b ∈ bs, Blind Q registry (d.value n) b) (index : Nat) :
    Agree (Memories.Alike Q) (runBindings config registry d n index bs)
      (runBindings config' registry d n index bs) := by
  induction bs generalizing index with
  | nil => exact agree_pure _
  | cons b bs ih =>
    refine (agree_runBinding hc (h b List.mem_cons_self) index).bind fun first => ?_
    refine (ih (fun c hb => h c (List.mem_cons_of_mem b hb)) (index + 1)).bind fun others => ?_
    exact agree_pure _

theorem keeps_sound_runBindings {P : Check.Pattern.Memory → Prop} {bs : List Binding}
    (h : ∀ b ∈ bs, Blind (Both P) registry (d.value n) b) (index : Nat) :
    Keeps (Memories.Sound P) (runBindings config registry d n index bs) := fun m hm =>
  (Memories.alike_both_iff.1
    (agree_runBindings rfl h index m m (Memories.alike_both_iff.2 ⟨hm, hm⟩)).2).1

end Seeing

/-! ## Rules -/

/-- A node that is bound runs the rule it is bound to. -/
theorem answer_run_none {rule : Rule} {id : Nat} {e : Engine}
    (h : e.store.ruleFor? n = some (id, rule)) :
    answer (run d n none) e = .ok (answer (execute d n rule) e) := by
  have hb : answer (boundRule d n) e = .ok rule ∧ after (boundRule d n) e = e := by
    rw [boundRule, answer_bind, after_bind, answer_get, after_get, h]
    exact ⟨rfl, rfl⟩
  rw [run, answer_bind, hb.1, hb.2]
  rfl

/-- **A rule's outcome is the ordered composition of its bindings.**

* Told binding by binding: the places whose validators are registered, diagnostics for the others,
  and the records of each binding behind those of the bindings before it.  A validator is called on
  the value, the options and the node, with the memories that the bindings before it have left.
* A node without a rule of its own given runs the rule it is bound to.
* A row of bindings runs as its front and then its back, numbered on.
* Where the pattern validator cannot tell apart the memories that there are, every validator is
  called as if nothing had run before, and so the back of a row runs as it would alone.
* A binding whose validator is not registered leaves the records of the others as they are. -/
theorem run_is_composed (e : Engine) (d : Document) (n : Nat) (rule : Rule) :
    let row bs := execute d n { rule with bindings := bs }
    let before i := (after (row (rule.bindings.take i)) e).memories
    answer (run d n (some rule)) e =
      .ok (composed e.config e.registry d n (kindsFrom d n before) rule.bindings) ∧
    (∀ id, e.store.ruleFor? n = some (id, rule) →
      answer (run d n none) e = answer (run d n (some rule)) e) ∧
    (∀ xs ys, answer (row (xs ++ ys)) e =
        answer (row xs) e ++ (answer (row ys) (after (row xs) e)).shift xs.length ∧
      after (row (xs ++ ys)) e = after (row ys) (after (row xs) e)) ∧
    (∀ P, e.memories.Sound P → P .empty →
      (∀ b ∈ rule.bindings, Blind (Both P) e.registry (d.value n) b) →
      answer (run d n (some rule)) e = .ok
        (composed e.config e.registry d n (kindsFrom d n fun _ => .fresh .uncached) rule.bindings) ∧
      ∀ xs ys, rule.bindings = xs ++ ys →
        answer (row (xs ++ ys)) e = answer (row xs) e ++ (answer (row ys) e).shift xs.length) ∧
    (∀ xs b ys, e.registry.get? b.validator = none →
      (answer (row (xs ++ b :: ys)) e).records =
        (answer (row (xs ++ ys)) e).records.map (·.skip xs.length) ∧
      after (row (xs ++ b :: ys)) e = after (row (xs ++ ys)) e) := by
  intro row before
  have hcomposed := runBindings_eq_composed e.config e.registry d n rule.bindings e.memories
  have hsplit : ∀ xs ys, answer (row (xs ++ ys)) e =
      answer (row xs) e ++ (answer (row ys) (after (row xs) e)).shift xs.length :=
    fun xs ys => (runBindings_split e.config e.registry d n xs ys e.memories).1
  refine ⟨congrArg Except.ok hcomposed, fun id h => answer_run_none d n h, fun xs ys => ?_,
    fun P hm hempty hblind => ⟨congrArg Except.ok ?_, fun xs ys hxy => ?_⟩, fun xs b ys h => ?_⟩
  · have hm := (runBindings_split e.config e.registry d n xs ys e.memories).2
    exact ⟨hsplit xs ys, congrArg (fun m => { e with memories := m }) hm⟩
  · refine hcomposed.trans (composed_congr _ _ _ _ fun i b entry hb hg => ?_)
    -- the memories at each place are sound, and so are none
    have hbefore : (before i).Sound P :=
      keeps_sound_runBindings (fun c hc => hblind c (List.mem_of_mem_take hc)) 0 e.memories hm
    have hfresh : (Memories.fresh .uncached).Sound P := ⟨Resolver.sound_uncached, hempty⟩
    exact (Validator.agree_apply (hblind b (List.mem_of_getElem? hb) entry hg) _ _
      (Memories.alike_both_iff.2 ⟨hbefore, hfresh⟩)).1
  · have hx : ∀ b ∈ xs, Blind (Both P) e.registry (d.value n) b := fun b hb =>
      hblind b (hxy ▸ List.mem_append_left ys hb)
    have hy : ∀ b ∈ ys, Blind (Both P) e.registry (d.value n) b := fun b hb =>
      hblind b (hxy ▸ List.mem_append_right xs hb)
    have hrest : answer (row ys) (after (row xs) e) = answer (row ys) e :=
      (agree_runBindings rfl hy 0 _ _ (Memories.alike_both_iff.2
        ⟨keeps_sound_runBindings hx 0 e.memories hm, hm⟩)).1
    rw [hsplit, hrest]
  · obtain ⟨hr, hm⟩ := runBindings_unknown e.config e.registry d n h xs ys e.memories
    exact ⟨hr, congrArg (fun m => { e with memories := m }) hm⟩

end Engine

end TreeRules
