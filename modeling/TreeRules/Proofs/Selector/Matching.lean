import TreeRules.Document.Spec
import TreeRules.Proofs.Document.Below
import TreeRules.Selector.Matching

/-!
# Proofs/Selector/Matching — matching a selector finds a row of elements if there is one

A selector asks for one element for each of its compounds, the last of them the node itself, each
linked to the next as the combinator between them says.  Matching goes from the right and tries
every ancestor that a link allows, so it succeeds exactly if there is such a `Row`, however many
ancestors fit the compound before and lead nowhere (`matches_iff_exists_row`).

The induction is on the selector, one compound taken off at the right end; a row loses its last
node with it (`row_joined_iff`).
-/

namespace TreeRules

/-- How an upper node stands to a lower one. -/
def Combinator.Links (k : Combinator) (d : Document) (upper lower : Nat) : Prop :=
  match k with
  | .child => d.parent? lower = some upper
  | .descendant => d.Below lower upper

namespace Selector

/-- Nodes for the compounds of a selector, from the left: each satisfies its compound, and each but
the last is linked to the next by the combinator between them. -/
structure Row (s : Selector) (d : Document) (es : List Nat) : Prop where
  length : es.length = s.compounds.length
  satisfies : ∀ (i : Nat) (c : Compound) (e : Nat),
    s.compounds[i]? = some c → es[i]? = some e → c.matches d e = true
  links : ∀ (i : Nat) (k : Combinator) (e e' : Nat),
    s.combinators[i]? = some k → es[i]? = some e → es[i + 1]? = some e' → k.Links d e e'

variable {s left : Selector} {k : Combinator} {c : Compound} {d : Document} {n : Nat}
  {es front : List Nat}

/-! ## Nodes of a row -/

/-- A compound is satisfied by elements only. -/
theorem contains_of_compound_matches (h : c.matches d n = true) : d.contains n = true := by
  rw [Document.contains_iff]
  cases he : d.element? n with
  | some e => rfl
  | none =>
    rw [Compound.matches, Document.tag?, he] at h
    exact absurd h Bool.false_ne_true

theorem contains_of_matches (h : s.matches d n = true) : d.contains n = true := by
  cases s with
  | single c => exact contains_of_compound_matches h
  | joined left k c =>
    cases k with
    | child => exact contains_of_compound_matches (Bool.and_eq_true_iff.1 h).1
    | descendant => exact contains_of_compound_matches (Bool.and_eq_true_iff.1 h).1

/-- The root is in no row. -/
theorem Row.contains (h : s.Row d es) {e : Nat} (he : e ∈ es) : d.contains e = true := by
  obtain ⟨i, hi⟩ := List.mem_iff_getElem?.1 he
  have hlt : i < s.compounds.length := h.length ▸ (List.getElem?_eq_some_iff.1 hi).1
  exact contains_of_compound_matches (h.satisfies i _ e (List.getElem?_eq_getElem hlt) hi)

theorem row_single_iff : (single c).Row d es ↔ ∃ n, es = [n] ∧ c.matches d n = true := by
  constructor
  · intro h
    obtain ⟨n, rfl⟩ := List.length_eq_one_iff.1 h.length
    exact ⟨n, rfl, h.satisfies 0 c n rfl rfl⟩
  · rintro ⟨n, rfl, hn⟩
    refine ⟨rfl, fun i c' e hc he => ?_, fun i k e e' hk => ?_⟩
    · obtain ⟨hi, rfl⟩ := List.getElem?_eq_some_iff.1 hc
      obtain rfl : i = 0 := Nat.lt_one_iff.1 hi
      exact Option.some.inj he ▸ hn
    · exact absurd hk (Option.some_ne_none k).symm

theorem compounds_joined (left : Selector) (k : Combinator) (c : Compound) :
    (joined left k c).compounds = left.compounds ++ [c] := rfl

theorem combinators_joined (left : Selector) (k : Combinator) (c : Compound) :
    (joined left k c).combinators = left.combinators ++ [k] := rfl

/-- A row of the left part is as long as one combinator more than that part has. -/
theorem Row.length_eq (h : s.Row d es) : es.length = s.combinators.length + 1 :=
  h.length.trans s.length_compounds

/-- The last node of a row is the one to which the combinators lead. -/
theorem Row.getLast?_eq (h : s.Row d es) : es.getLast? = es[s.combinators.length]? := by
  rw [List.getLast?_eq_getElem?, h.length_eq, Nat.add_sub_cancel]

/-- A row without its last node. -/
theorem Row.dropLast (h : (joined left k c).Row d (front ++ [n])) : left.Row d front := by
  have hlength : front.length = left.compounds.length := by
    simpa [compounds_joined] using h.length
  refine ⟨hlength, fun i c' e hc he => h.satisfies i c' e ?_ ?_,
    fun i k' e e' hk he he' => h.links i k' e e' ?_ ?_ ?_⟩
  · rw [compounds_joined, List.getElem?_append_left (List.getElem?_eq_some_iff.1 hc).1, hc]
  · rw [List.getElem?_append_left (List.getElem?_eq_some_iff.1 he).1, he]
  · rw [combinators_joined, List.getElem?_append_left (List.getElem?_eq_some_iff.1 hk).1, hk]
  · rw [List.getElem?_append_left (List.getElem?_eq_some_iff.1 he).1, he]
  · rw [List.getElem?_append_left (List.getElem?_eq_some_iff.1 he').1, he']

/-- A row with one node more. -/
theorem Row.joined {e : Nat} (h : left.Row d front) (he : front.getLast? = some e)
    (hlink : k.Links d e n) (hn : c.matches d n = true) :
    (joined left k c).Row d (front ++ [n]) := by
  have hlength : front.length = left.combinators.length + 1 := h.length_eq
  refine ⟨?_, fun i c' e' hc he' => ?_, fun i k' e' e'' hk he' he'' => ?_⟩
  · rw [compounds_joined, List.length_append, List.length_append, h.length,
      List.length_singleton, List.length_singleton]
  · rw [compounds_joined] at hc
    rcases Nat.lt_or_ge i front.length with hi | hi
    · rw [List.getElem?_append_left (h.length ▸ hi)] at hc
      rw [List.getElem?_append_left hi] at he'
      exact h.satisfies i c' e' hc he'
    · -- the new compound and the new node
      rw [List.getElem?_append_right (h.length ▸ hi), List.getElem?_singleton] at hc
      rw [List.getElem?_append_right hi, List.getElem?_singleton] at he'
      obtain ⟨-, hcompound⟩ := Option.ite_none_right_eq_some.1 hc
      obtain ⟨-, hnode⟩ := Option.ite_none_right_eq_some.1 he'
      exact Option.some.inj hcompound ▸ Option.some.inj hnode ▸ hn
  · rw [combinators_joined] at hk
    rcases Nat.lt_or_ge i left.combinators.length with hi | hi
    · rw [List.getElem?_append_left hi] at hk
      rw [List.getElem?_append_left (by omega)] at he' he''
      exact h.links i k' e' e'' hk he' he''
    · -- the new link, from the last node of the old row to the new node
      rw [List.getElem?_append_right hi, List.getElem?_singleton] at hk
      obtain ⟨hzero, hkind⟩ := Option.ite_none_right_eq_some.1 hk
      obtain rfl : i = left.combinators.length := by omega
      rw [List.getElem?_append_left (by omega), ← h.getLast?_eq, he] at he'
      rw [← hlength, List.getElem?_concat_length] at he''
      exact Option.some.inj hkind ▸ Option.some.inj he' ▸ Option.some.inj he'' ▸ hlink

/-- The last node of a row is one more link. -/
theorem row_joined_iff :
    (Selector.joined left k c).Row d (front ++ [n]) ↔
      left.Row d front ∧ (∃ e, front.getLast? = some e ∧ k.Links d e n) ∧ c.matches d n = true := by
  refine ⟨fun h => ?_, fun ⟨h, ⟨e, he, hlink⟩, hn⟩ => h.joined he hlink hn⟩
  have hleft : left.Row d front := h.dropLast
  have hlength : front.length = left.combinators.length + 1 := hleft.length_eq
  have hlast : (front ++ [n])[front.length]? = some n := List.getElem?_concat_length
  refine ⟨hleft, ?_, h.satisfies front.length c n ?_ hlast⟩
  · obtain ⟨e, he⟩ := List.getLast?_isSome.2 (List.ne_nil_of_length_eq_add_one hlength)
      |> Option.isSome_iff_exists.1
    refine ⟨e, he, h.links left.combinators.length k e n List.getElem?_concat_length ?_ ?_⟩
    · rw [List.getElem?_append_left (by omega), ← hleft.getLast?_eq, he]
    · rw [← hlength, hlast]
  · rw [compounds_joined, hleft.length, List.getElem?_concat_length]

/-! ## Matching -/

theorem matches_joined (left : Selector) (k : Combinator) (c : Compound) (d : Document) (n : Nat) :
    (Selector.joined left k c).matches d n = true ↔
      c.matches d n = true ∧ ∃ e, k.Links d e n ∧ left.matches d e = true := by
  cases k with
  | child =>
    rw [Selector.matches, Bool.and_eq_true, Option.any_eq_true]
    rfl
  | descendant =>
    rw [Selector.matches, Bool.and_eq_true, List.any_eq_true]
    simp only [Document.mem_ancestors_iff]
    rfl

/-- **Matching is complete backtracking.**  A node matches exactly if it ends a row, so trying
ancestors from the nearest up misses nothing.  There is no root in a row, and every climb is over
after as many steps as the number of the node says, and one more. -/
theorem matches_iff_exists_row (s : Selector) (d : Document) (n : Nat) :
    (s.matches d n = true ↔ ∃ es, s.Row d es ∧ es.getLast? = some n) ∧
    (∀ es, s.Row d es → ∀ e ∈ es, e ≠ Document.root ∧ d.contains e = true) ∧
    (fun x => x.bind d.parent?)^[n + 1] (some n) = none := by
  refine ⟨?_, fun es h e he => ?_, d.iterate_parent?_eq_none n⟩
  · induction s generalizing n with
    | single c =>
      constructor
      · intro h
        exact ⟨[n], row_single_iff.2 ⟨n, rfl, h⟩, rfl⟩
      · rintro ⟨es, h, hn⟩
        obtain ⟨m, rfl, hm⟩ := row_single_iff.1 h
        exact Option.some.inj hn ▸ hm
    | joined left k c ih =>
      rw [matches_joined]
      constructor
      · rintro ⟨hn, e, hlink, he⟩
        obtain ⟨front, hrow, hlast⟩ := (ih e).1 he
        exact ⟨front ++ [n], hrow.joined hlast hlink hn, List.getLast?_concat⟩
      · rintro ⟨es, h, hn⟩
        obtain ⟨front, rfl⟩ := List.getLast?_eq_some_iff.1 hn
        obtain ⟨hrow, ⟨e, he, hlink⟩, hc⟩ := row_joined_iff.1 h
        exact ⟨hc, e, hlink, (ih e).2 ⟨front, hrow, he⟩⟩
  · have hcontains : d.contains e = true := h.contains he
    refine ⟨?_, hcontains⟩
    rintro rfl
    exact absurd hcontains Bool.false_ne_true

/-- The box right above the input is no child of the form, but the box above that one is. -/
example :
    let compound (tag : String) : Compound := ⟨some tag, [], [], []⟩
    let box := (ElementSpec.ofTag "p").withChildren [ElementSpec.ofTag "input"]
    let form := (ElementSpec.ofTag "form").withChildren [(ElementSpec.ofTag "p").withChildren [box]]
    let s := joined (joined (single (compound "form")) .child (compound "p")) .descendant
      (compound "input")
    s.matches (Document.ofSpecs [form]) 4 = true := by
  decide +kernel

end Selector

/-- What matches a selector list is an element. -/
theorem SelectorList.contains_of_matches {l : SelectorList} {d : Document} {n : Nat}
    (h : l.matches d n = true) : d.contains n = true := by
  obtain ⟨s, -, hs⟩ := List.any_eq_true.1 h
  exact Selector.contains_of_matches hs

end TreeRules
