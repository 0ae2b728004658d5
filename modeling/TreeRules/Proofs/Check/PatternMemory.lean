import TreeRules.Check.Pattern
import TreeRules.Proofs.Simulation

/-!
# Proofs/Check/PatternMemory — when earlier patterns make no difference

A check for a pattern may find the pattern of an earlier check under its own text.  Whether that
shows depends on the options that are in use: they are `Independent` if every check answers from
any memory that they can lead to as it does from the empty one.  A memory holds under a text only
what a request with this text means (`Check.Pattern.Holds`), so it comes down to single pairs: none
may leave a pattern under the text of the other that answers differently
(`Check.Pattern.independent_iff`).
-/

namespace TreeRules.Pattern.Backend

open TreeRules.Check.Pattern

variable {B : Backend} {r : Request} {memory : B.Memory}

/-- A request that is not kept is compiled, and then kept if that succeeds. -/
theorem value_fetch_of_none (h : memory.get? r.key = none) :
    (B.fetch r memory).value =
      ((r.compiled B).toOption, ((r.compiled B).toOption.map (keep memory r.key)).getD memory) := by
  simp only [fetch, h]
  cases r.compiled B <;> rfl

theorem value_fetch_of_some {c : B.Compiled} (h : memory.get? r.key = some c) :
    (B.fetch r memory).value = (some c, memory) := by
  simp only [fetch, h]
  rfl

/-- A check is answered by what the memory has under the text of its request, or else by what the
request is compiled to. -/
theorem answer_check {options : Options} (hr : request? options = some r) (value : String)
    (memory : B.Memory) :
    answer (B.check value options) memory =
      B.verdict ((memory.get? r.key).or (r.compiled B).toOption) value := by
  have hfetch : answer (B.fetch r) memory = (memory.get? r.key).or (r.compiled B).toOption := by
    cases hg : memory.get? r.key with
    | none => rw [answer, value_fetch_of_none hg, Option.none_or]
    | some c => rw [answer, value_fetch_of_some hg, Option.some_or]
  rw [check, hr, ← hfetch]
  rfl

end TreeRules.Pattern.Backend

namespace TreeRules.Check.Pattern

open TreeRules.Pattern

/-- The memories that checks with the given options lead to, one after the other. -/
inductive Reached (os : List Options) : Memory → Prop
  | empty : Reached os .empty
  | check {memory : Memory} {options : Options} (value : String) :
      Reached os memory → options ∈ os → Reached os (after (check value options) memory)

/-- Earlier checks with these options do not show in later ones. -/
def Independent (os : List Options) : Prop :=
  ∀ memory, Reached os memory → ∀ options ∈ os, ∀ value,
    answer (check value options) memory = answer (check value options) .empty

/-- From memories that independent options have led to, their checks answer alike. -/
theorem Independent.agree_check {os : List Options} (h : Independent os) {options : Options}
    (ho : options ∈ os) (value : String) :
    Agree (Both (Reached os)) (check value options) (check value options) := fun m m' hm =>
  ⟨(h m hm.1 options ho value).trans (h m' hm.2 options ho value).symm,
    hm.1.check value ho, hm.2.check value ho⟩

/-! ## Texts that mean one pattern -/

/-- Under each text stands what some request of the options with this text means. -/
def Holds (os : List Options) (memory : Memory) : Prop :=
  ∀ key e, memory.get? key = some e →
    ∃ options ∈ os, ∃ r, request? options = some r ∧ r.key = key ∧ r.expr? = some e

theorem holds_keep {os : List Options} {memory : Memory} (h : Holds os memory) {options : Options}
    (ho : options ∈ os) {r : Request} (hr : request? options = some r)
    {e : Expr.backend.Compiled} (he : r.expr? = some e) : Holds os (keep memory r.key e) := by
  intro key e' hk
  have hbase : Holds os (if capacity ≤ memory.size then .empty else memory) := by
    split
    · exact fun key e' hk => absurd hk (Option.some_ne_none e').symm
    · exact h
  rw [keep, Table.get?_insert] at hk
  split at hk
  · next hkey => exact ⟨options, ho, r, hr, hkey.symm, he.trans hk⟩
  · exact hbase key e' hk

theorem keeps_holds_check (os : List Options) {options : Options} (ho : options ∈ os)
    (value : String) : Keeps (Holds os) (check value options) := by
  rw [check, Backend.check]
  cases hr : request? options with
  | none => exact (keeps_lift _).bind fun _ => keeps_pure _
  | some r =>
    refine Keeps.bind (fun memory h => ?_) fun _ => keeps_pure _
    cases hg : memory.get? r.key with
    | some e =>
      rw [after, Backend.value_fetch_of_some hg]
      exact h
    | none =>
      rw [after, Backend.value_fetch_of_none hg, ← Request.expr?]
      cases he : r.expr? with
      | none => exact h
      | some e => exact holds_keep h ho hr he

theorem Reached.holds {os : List Options} {memory : Memory} (h : Reached os memory) :
    Holds os memory := by
  induction h with
  | empty => exact fun key e hk => absurd hk (Option.some_ne_none e).symm
  | check value _ ho ih => exact keeps_holds_check os ho value _ ih

/-- A check is answered by what the memory has under the text of its request, or else by what the
request means. -/
theorem answer_check {options : Options} {r : Request} (hr : request? options = some r)
    (value : String) (memory : Memory) :
    answer (check value options) memory = verdict ((memory.get? r.key).or r.expr?) value :=
  Backend.answer_check hr value memory

/-- What `r'` may leave in the memory under the text of `r` answers as `r` does. -/
def Tolerates (r r' : Request) : Prop :=
  r.key = r'.key → ∀ e, r'.expr? = some e → ∀ value, verdict (some e) value = verdict r.expr? value

/-- **Options are independent just if their requests tolerate each other** — one check is enough to
leave a pattern that is not tolerated, and no check leaves anything else. -/
theorem independent_iff {os : List Options} :
    Independent os ↔ ∀ options ∈ os, ∀ options' ∈ os, ∀ r r', request? options = some r →
      request? options' = some r' → Tolerates r r' := by
  constructor
  · intro h options ho options' ho' r r' hr hr' hkey e he value
    have hkept : (after (check "" options') .empty).get? r.key = some e := by
      have hafter : after (check "" options') .empty = after (Expr.backend.fetch r') .empty := by
        rw [check, Backend.check, hr']
        rfl
      rw [hafter, after, Backend.value_fetch_of_none rfl, ← Request.expr?, he, hkey]
      exact (Table.get?_insert _ _ _ _).trans (if_pos rfl)
    have hsame := h _ (.check "" .empty ho') options ho value
    rw [answer_check hr, answer_check hr, hkept] at hsame
    exact hsame
  · intro h memory hm options ho value
    cases hr : request? options with
    | none =>
      rw [check, Backend.check, hr]
      rfl
    | some r =>
      rw [answer_check hr, answer_check hr]
      cases hg : memory.get? r.key with
      | none => rfl
      | some e =>
        obtain ⟨options', ho', r', hr', hkey, he⟩ := hm.holds r.key e hg
        exact h options ho options' ho' r r' hr hr' hkey.symm e he value

/-- **Options are independent if no two of their requests share a text** but not what it means. -/
theorem independent_of_key {os : List Options}
    (h : ∀ options ∈ os, ∀ options' ∈ os, ∀ r r', request? options = some r →
      request? options' = some r' → r.key = r'.key → r.expr? = r'.expr?) : Independent os :=
  independent_iff.2 fun options ho options' ho' r r' hr hr' hkey e he value => by
    rw [h options ho options' ho' r r' hr hr' hkey, he]

/-- One option set asks for one pattern. -/
theorem independent_singleton (options : Options) : Independent [options] :=
  independent_of_key fun o ho o' ho' r r' hr hr' _ => by
    rw [List.mem_singleton.1 ho] at hr
    rw [List.mem_singleton.1 ho', hr] at hr'
    rw [Option.some.inj hr']

end TreeRules.Check.Pattern
