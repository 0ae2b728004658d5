import TreeRules.Proofs.Document.Query
import TreeRules.Proofs.Selector.Completeness

/-!
# Proofs/Selector/Union — a comma unites

A comma ends a selector wherever the text might have ended.  The grammar says so without looking at
a reader: a list before a comma and a list behind it are one list (`Selector.ListText.append`), so
what is read is known from reading the two alone.  An element satisfies the joined list if it
satisfies one of the two, and a query only keeps what matches of a list that is in order anyway, so
the answers for the two are merged and the order of the selectors does not show
(`SelectorList.comma_unites`).
-/

namespace TreeRules

/-! ## Texts -/

/-- Two lists with a comma between them are one list. -/
theorem Selector.ListText.append {s r : List Char} {ts us : List Selector}
    (hs : Selector.ListText s ts) (hr : Selector.ListText r us) :
    Selector.ListText (s ++ ',' :: r) (ts ++ us) := by
  induction hs with
  | last h => exact .more h hr
  | @more s s' t ts h _ ih =>
    rw [List.append_assoc]
    exact .more h ih

namespace SelectorList

open Selector (ListText)

variable {source A B : String} {a b l : SelectorList} {ts : List Selector}

theorem listText_of_parse (h : parse source = .ok l) : ListText source.toList l.selectors := by
  rw [parse] at h
  cases hselectors : Selector.selectors source.toList with
  | ok ts =>
    rw [hselectors] at h
    obtain rfl := Except.ok.inj h
    exact Selector.selectors_eq_ok_iff.1 hselectors
  | error e =>
    rw [hselectors] at h
    cases h

theorem parse_of_listText (h : ListText source.toList ts) : parse source = .ok ⟨source, ts⟩ := by
  rw [parse, Selector.selectors_eq_ok_iff.2 h]

/-- A comma is read as it is read between two selectors. -/
theorem parse_comma (hA : parse A = .ok a) (hB : parse B = .ok b) :
    parse (A ++ "," ++ B) = .ok ⟨A ++ "," ++ B, a.selectors ++ b.selectors⟩ := by
  refine parse_of_listText ?_
  have htext : (A ++ "," ++ B).toList = A.toList ++ ',' :: B.toList := by
    rw [String.toList_append, String.toList_append, List.append_assoc]
    rfl
  exact htext ▸ (listText_of_parse hA).append (listText_of_parse hB)

theorem matches_append (source : String) (d : Document) (n : Nat) :
    SelectorList.matches ⟨source, a.selectors ++ b.selectors⟩ d n =
      (a.matches d n || b.matches d n) := List.any_append

/-- **A comma unites**, whatever stands on its two sides.

* What is joined by a comma is read, as the selectors of the one and then those of the other.
* A node matches it if it matches one of the two.
* A query for it finds what a query for one of the two finds, each node once and in document order.
* So it makes no difference for a query which of the two comes first. -/
theorem comma_unites (hA : parse A = .ok a) (hB : parse B = .ok b) :
    parse (A ++ "," ++ B) = .ok ⟨A ++ "," ++ B, a.selectors ++ b.selectors⟩ ∧
    ∀ (d : Document) (n : Nat),
      (d.hasNode n = true →
        (∃ x y, d.matches n A = .ok x ∧ d.matches n B = .ok y ∧
          d.matches n (A ++ "," ++ B) = .ok (x || y)) ∧
        ∃ xs ys found, d.query n A = .ok xs ∧ d.query n B = .ok ys ∧
          d.query n (A ++ "," ++ B) = .ok found ∧ (∀ m, m ∈ found ↔ m ∈ xs ∨ m ∈ ys) ∧
          found.Nodup ∧ found.Pairwise d.Precedes) ∧
      d.query n (B ++ "," ++ A) = d.query n (A ++ "," ++ B) := by
  have hAB := parse_comma hA hB
  refine ⟨hAB, fun d n => ⟨fun hn => ⟨?_, ?_⟩, ?_⟩⟩
  · refine ⟨_, _, Document.matches_of_ok hn hA, Document.matches_of_ok hn hB, ?_⟩
    rw [Document.matches_of_ok hn hAB, matches_append]
  · have horder := (d.pairwise_descendants n).filter
      (SelectorList.matches ⟨A ++ "," ++ B, a.selectors ++ b.selectors⟩ d)
    refine ⟨_, _, _, Document.query_of_ok hn hA, Document.query_of_ok hn hB,
      Document.query_of_ok hn hAB, fun m => ?_, Document.nodup_of_pairwise horder, horder⟩
    rw [List.mem_filter, List.mem_filter, List.mem_filter, matches_append, Bool.or_eq_true,
      and_or_left]
  · cases hn : d.hasNode n with
    | false => rw [Document.query_of_missing hn, Document.query_of_missing hn]
    | true =>
      rw [Document.query_of_ok hn hAB, Document.query_of_ok hn (parse_comma hB hA)]
      refine congrArg Except.ok (List.filter_congr fun m _ => ?_)
      rw [matches_append, matches_append, Bool.or_comm]

/-- Both lists have commas of their own, and one of these stands between quotes. -/
theorem comma_unites_of_quoted :
    let a : SelectorList :=
      ⟨".a, b ", [.single ⟨none, [], ["a"], []⟩, .single ⟨some "b", [], [], []⟩]⟩
    let b : SelectorList := ⟨"[t='1,2']", [.single ⟨none, [], [], [⟨"t", some "1,2"⟩]⟩]⟩
    parse ".a, b " = .ok a ∧ parse "[t='1,2']" = .ok b ∧
      parse ".a, b ,[t='1,2']" = .ok ⟨".a, b ,[t='1,2']", a.selectors ++ b.selectors⟩ := by
  intro a b
  have hA : parse ".a, b " = .ok a := by decide +kernel
  have hB : parse "[t='1,2']" = .ok b := by decide +kernel
  exact ⟨hA, hB, (comma_unites hA hB).1⟩

end SelectorList

end TreeRules
