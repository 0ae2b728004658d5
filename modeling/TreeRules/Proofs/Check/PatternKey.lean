import Mathlib.Data.List.Basic
import Mathlib.Data.List.Induction
import TreeRules.Proofs.Check.PatternMemory

/-!
# Proofs/Check/PatternKey — which requests are kept under one text

The text under which a pattern is kept is glued together from letters, extent and source with a NUL
between them, and nothing keeps a NUL out of the letters or the source.  So one text may be cut in
two ways: the NUL that ends the letters of one request then stands in the source of the other, or
right before it (`Request.Overlaps`).  No other two requests share a text (`Request.key_eq_iff`),
and earlier checks show in later ones just if two that share one match differently
(`earlier_checks_are_invisible_iff`).
-/

namespace TreeRules.Check.Pattern

open TreeRules.Pattern

/-! ## Cutting a text at a separator -/

/-- A cut with no separator before it is the first one there is — any other comes after it. -/
theorem cut_eq_cut_iff {α : Type} {x : α} {xs ys s t : List α} (hxs : x ∉ xs) :
    xs ++ x :: s = ys ++ x :: t ↔ ∃ v, ys ++ [x] = xs ++ x :: v ∧ s = v ++ t := by
  rw [List.append_cons xs, List.append_cons ys, List.append_eq_append_iff]
  constructor
  · rintro (⟨v, hv, hs⟩ | ⟨v, hv, ht⟩)
    · exact ⟨v, by rw [hv, ← List.append_cons], hs⟩
    · rcases List.eq_nil_or_concat v with rfl | ⟨w, y, rfl⟩
      · exact ⟨[], by rw [hv, List.append_nil], ht.symm⟩
      · -- an earlier cut would put a separator among `xs`
        rw [List.concat_eq_append, ← List.append_assoc] at hv
        have hmem : x ∈ ys ++ [x] ++ w := by simp
        exact absurd ((List.append_inj_left' hv rfl).symm ▸ hmem) hxs
  · rintro ⟨v, hv, rfl⟩
    exact .inl ⟨v, by rw [hv, ← List.append_cons], rfl⟩

namespace Request

/-- What stands between the parts of a key. -/
def separator : Char := '\x00'

/-- The extent as it stands in a key. -/
def extent (r : Request) : List Char := if r.whole then "true".toList else "false".toList

theorem separator_not_mem_extent (r : Request) : separator ∉ r.extent := by
  rw [extent]
  cases r.whole <;> decide

theorem toList_key (r : Request) :
    r.key.toList = r.letters.toList ++ separator :: (r.extent ++ separator :: r.source.toList) := by
  have hextent : (if r.whole then "true" else "false").toList = r.extent := by
    rw [extent]
    cases r.whole <;> rfl
  rw [key, String.toList_append, String.toList_append, String.toList_append, String.toList_append,
    hextent, List.append_assoc, List.append_assoc, List.append_assoc]
  rfl

/-- The letters of `r'` begin with the letters and the extent of `r`, and the source of `r` ends
with the extent and the source of `r'`: glued together, both make one text. -/
def Overlaps (r r' : Request) : Prop :=
  ∃ v, r'.letters.toList ++ [separator] =
      r.letters.toList ++ separator :: (r.extent ++ separator :: v) ∧
    r.source.toList = v ++ (r'.extent ++ separator :: r'.source.toList)

theorem Overlaps.key_eq {r r' : Request} (h : r.Overlaps r') : r.key = r'.key := by
  obtain ⟨v, hl, hs⟩ := h
  refine String.toList_injective ?_
  calc r.key.toList
      = r.letters.toList ++ separator :: (r.extent ++ separator :: v) ++
          (r'.extent ++ separator :: r'.source.toList) := by
        rw [toList_key, hs]; simp
    _ = r'.key.toList := by rw [← hl, toList_key, ← List.append_cons]

/-- Two requests with one text, the letters of the first ending where they do in the second, or
before. -/
theorem eq_or_overlaps {r r' : Request} {v : List Char}
    (hl : r'.letters.toList ++ [separator] = r.letters.toList ++ separator :: v)
    (hs : r.extent ++ separator :: r.source.toList =
      v ++ (r'.extent ++ separator :: r'.source.toList)) : r = r' ∨ r.Overlaps r' := by
  rcases List.eq_nil_or_concat v with rfl | ⟨w, y, rfl⟩
  · -- the letters are the same, and the extents tell themselves apart
    left
    have hrest : r.whole = r'.whole ∧ r.source.toList = r'.source.toList := by
      revert hs
      rw [extent, extent]
      cases r.whole <;> cases r'.whole <;> simp
    obtain ⟨source, letters, whole⟩ := r
    obtain ⟨source', letters', whole'⟩ := r'
    rw [mk.injEq]
    exact ⟨String.toList_injective hrest.2,
      String.toList_injective (List.append_cancel_right hl).symm, hrest.1⟩
  · right
    rw [List.concat_eq_append] at hl hs
    have hy : r'.letters.toList ++ [separator] = (r.letters.toList ++ separator :: w) ++ [y] := by
      rw [hl, List.append_assoc, List.cons_append]
    obtain rfl : separator = y := List.singleton_inj.1 (List.append_inj_right' hy rfl)
    rw [← List.append_cons] at hs
    obtain ⟨u, hw, hsource⟩ := (cut_eq_cut_iff r.separator_not_mem_extent).1 hs
    exact ⟨u, hw ▸ hl, hsource⟩

/-- **Requests share a text just if they are the same or overlap.** -/
theorem key_eq_iff {r r' : Request} :
    r.key = r'.key ↔ r = r' ∨ r.Overlaps r' ∨ r'.Overlaps r := by
  constructor
  · intro h
    have h := congrArg String.toList h
    rw [toList_key, toList_key, List.append_cons, List.append_cons r'.letters.toList,
      List.append_eq_append_iff] at h
    rcases h with ⟨v, hl, hs⟩ | ⟨v, hl, hs⟩
    · exact (eq_or_overlaps (hl.trans (List.append_cons _ _ _).symm) hs).imp_right .inl
    · exact (eq_or_overlaps (hl.trans (List.append_cons _ _ _).symm) hs).elim
        (fun h => .inl h.symm) fun h => .inr (.inr h)
  · rintro (rfl | h | h)
    · rfl
    · exact h.key_eq
    · exact h.key_eq.symm

/-- Requests overlap only if there is a NUL in the letters of one and in the source of the other. -/
theorem Overlaps.separator_mem {r r' : Request} (h : r.Overlaps r') :
    separator ∈ r'.letters.toList ∧ separator ∈ r.source.toList := by
  obtain ⟨v, hl, hs⟩ := h
  refine ⟨?_, by simp [hs]⟩
  have hcount := congrArg (List.count separator) hl
  simp only [List.count_append, List.count_cons_self, List.count_nil] at hcount
  exact List.count_pos_iff.1 (by omega)

/-- **No NUL, no shared text** — it is enough that the letters have none, or that the sources
have none. -/
theorem eq_of_key_eq {r r' : Request} (h : r.key = r'.key)
    (hfree : separator ∉ r.letters.toList ∧ separator ∉ r'.letters.toList ∨
      separator ∉ r.source.toList ∧ separator ∉ r'.source.toList) : r = r' := by
  rcases key_eq_iff.1 h with h | h | h
  · exact h
  · exact (hfree.elim (·.2 h.separator_mem.1) (·.1 h.separator_mem.2)).elim
  · exact (hfree.elim (·.1 h.separator_mem.1) (·.2 h.separator_mem.2)).elim

end Request

/-! ## Histories of checks -/

/-- Checks one after the other, each of a value with its options. -/
def checks (calls : List (String × Options)) : StateT Memory Logged (List (List String)) :=
  calls.mapM fun call => check call.1 call.2

theorem after_checks_append_singleton (calls : List (String × Options)) (value : String)
    (options : Options) (memory : Memory) :
    after (checks (calls ++ [(value, options)])) memory =
      after (check value options) (after (checks calls) memory) := by
  rw [checks, List.mapM_append]
  rfl

/-- What checks lead to is what a history of them leaves. -/
theorem reached_iff {os : List Options} {memory : Memory} :
    Reached os memory ↔
      ∃ calls, (∀ call ∈ calls, call.2 ∈ os) ∧ after (checks calls) .empty = memory := by
  constructor
  · intro h
    induction h with
    | empty => exact ⟨[], fun _ h => absurd h List.not_mem_nil, rfl⟩
    | @check memory options value _ ho ih =>
      obtain ⟨calls, hcalls, rfl⟩ := ih
      refine ⟨calls ++ [(value, options)], fun call hcall => ?_,
        after_checks_append_singleton calls value options .empty⟩
      rcases List.mem_append.1 hcall with hcall | hcall
      · exact hcalls call hcall
      · exact List.mem_singleton.1 hcall ▸ ho
  · rintro ⟨calls, hcalls, rfl⟩
    induction calls using List.reverseRecOn with
    | nil => exact .empty
    | append_singleton calls call ih =>
      rw [after_checks_append_singleton]
      exact .check call.1 (ih fun c hc => hcalls c (List.mem_append_left _ hc))
        (hcalls call (List.mem_append_right _ List.mem_cons_self))

/-- **When earlier checks are invisible.**  Of the options in use, for every history of checks and
every next check:

* the next check answers as it would from the empty memory, just if no request leaves a pattern
  under the text of another that answers differently;
* two requests share a text just if they are the same, or one goes on in its letters where the
  other already has its source;
* so if there is no NUL in any letters, or none in any source, earlier checks do not show. -/
theorem earlier_checks_are_invisible_iff (os : List Options) :
    let Invisible := ∀ calls : List (String × Options), (∀ call ∈ calls, call.2 ∈ os) →
      ∀ options ∈ os, ∀ value,
        answer (check value options) (after (checks calls) .empty) =
          answer (check value options) .empty
    (Invisible ↔ ∀ options ∈ os, ∀ options' ∈ os, ∀ r r', request? options = some r →
      request? options' = some r' → Tolerates r r') ∧
    (∀ r r' : Request, r.key = r'.key ↔ r = r' ∨ r.Overlaps r' ∨ r'.Overlaps r) ∧
    ((∀ options ∈ os, ∀ r, request? options = some r → Request.separator ∉ r.letters.toList) ∨
      (∀ options ∈ os, ∀ r, request? options = some r → Request.separator ∉ r.source.toList) →
      Invisible) := by
  intro Invisible
  have hinvisible : Invisible ↔ Independent os :=
    ⟨fun h memory hm => by
      obtain ⟨calls, hcalls, rfl⟩ := reached_iff.1 hm
      exact h calls hcalls,
    fun h calls hcalls => h _ (reached_iff.2 ⟨calls, hcalls, rfl⟩)⟩
  refine ⟨hinvisible.trans independent_iff, fun r r' => Request.key_eq_iff, fun hfree => ?_⟩
  refine hinvisible.2 (independent_of_key fun options ho options' ho' r r' hr hr' hkey => ?_)
  have hsame : r = r' := Request.eq_of_key_eq hkey <| hfree.imp
    (fun h => ⟨h options ho r hr, h options' ho' r' hr'⟩)
    (fun h => ⟨h options ho r hr, h options' ho' r' hr'⟩)
  rw [hsame]

/-- A NUL in the letters and one in a source: the pattern `b` is asked for after another has been
kept under its text, and is not found in `b`. -/
theorem kept_pattern_shows :
    let kept : Options := Table.empty.insert "pattern" (.string "false\x00b")
    let asked : Options :=
      (Table.empty.insert "pattern" (.string "b")).insert "flags" (.string "\x00false")
    answer (check "b" asked) .empty = [] ∧
      answer (check "b" asked) (after (checks [("a", kept)]) .empty) = [kindPattern] := by
  decide +kernel

end TreeRules.Check.Pattern
