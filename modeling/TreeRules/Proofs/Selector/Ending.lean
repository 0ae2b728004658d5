import TreeRules.Proofs.Selector.Soundness

/-!
# Proofs/Selector/Ending — how a selector ends

The last character of a selector is that of a name, a star, a closing bracket or a blank: quotes
stand inside of brackets only.  So no selector ends in a brace, whatever its quotes hold
(`SelectorList.getLast?_of_parse`).
-/

namespace TreeRules.Selector

variable {s r : List Char} {m : Char}

/-- The text does not end in a closing brace. -/
def Unbraced (s : List Char) : Prop := s.getLast? ≠ some '\x7d'

theorem unbraced_nil : Unbraced [] := nofun

/-- Only the end counts, which is that of the second text unless nothing is in it. -/
theorem Unbraced.append (hs : Unbraced s) (hr : Unbraced r) : Unbraced (s ++ r) := by
  rw [Unbraced, List.getLast?_append]
  cases h : r.getLast? with
  | none => exact hs
  | some c =>
    rw [Unbraced, h] at hr
    exact hr

theorem unbraced_singleton (h : m ≠ '\x7d') : Unbraced [m] := fun h' => h (Option.some.inj h')

theorem Unbraced.cons (h : m ≠ '\x7d') (hs : Unbraced s) : Unbraced (m :: s) :=
  (unbraced_singleton h).append hs

/-- A brace is no blank. -/
theorem Blanks.unbraced (h : Blanks s) : Unbraced s := fun hlast =>
  absurd (h _ (List.mem_of_getLast? hlast)) (by decide)

/-- A name holds no brace. -/
theorem IdentifierText.unbraced {n : String} (h : IdentifierText s n) : Unbraced s := by
  obtain ⟨-, hall⟩ := h
  exact fun hlast => absurd (hall _ (List.mem_of_getLast? hlast)) (by decide)

/-- A test ends in a name or in the bracket that closes it, so a brace between quotes is not its
last character. -/
theorem SuffixText.unbraced {x : Suffix} (h : SuffixText s x) : Unbraced s := by
  cases h with
  | id h => exact h.unbraced.cons (by decide)
  | «class» h => exact h.unbraced.cons (by decide)
  | «attribute» =>
    -- whatever stands in a bracket, the bracket closes it
    refine Unbraced.cons (by decide) ?_
    rw [Unbraced, List.getLast?_concat]
    exact fun h => absurd (Option.some.inj h) (by decide)

theorem SuffixesText.unbraced {xs : List Suffix} (h : SuffixesText s xs) : Unbraced s := by
  induction h with
  | nil => exact unbraced_nil
  | cons h _ ih => exact h.unbraced.append ih

/-- A compound ends in its last test, or else in its tag or star. -/
theorem CompoundText.unbraced {c : Compound} (h : CompoundText s c) : Unbraced s := by
  cases h with
  | tests h hr =>
    refine Unbraced.append ?_ hr.unbraced
    cases h with
    | none => exact unbraced_nil
    | star => exact unbraced_singleton (by decide)
    | name h => exact h.unbraced

/-- A combinator is blanks and perhaps a greater-than sign among them. -/
theorem CombinatorText.unbraced {k : Combinator} (h : CombinatorText s k) : Unbraced s := by
  cases h with
  | child hb hb' => exact hb.unbraced.append (hb'.unbraced.cons (by decide))
  | descendant _ hb => exact hb.unbraced

theorem JoinedText.unbraced {ps : List (Combinator × Compound)} (h : JoinedText s ps) :
    Unbraced s := by
  induction h with
  | nil => exact unbraced_nil
  | cons hk h _ ih => exact (hk.unbraced.append h.unbraced).append ih

/-- A selector ends in a compound or in the blanks behind it. -/
theorem SelectorText.unbraced {t : Selector} (h : SelectorText s t) : Unbraced s := by
  obtain ⟨hb, h, hr, hb', -, -⟩ := h
  exact ((hb.unbraced.append h.unbraced).append hr.unbraced).append hb'.unbraced

/-- A list ends as the last of its selectors does. -/
theorem ListText.unbraced {ts : List Selector} (h : ListText s ts) : Unbraced s := by
  induction h with
  | last h => exact h.unbraced
  | more h _ ih => exact h.unbraced.append (ih.cons (by decide))

end TreeRules.Selector

namespace TreeRules.SelectorList

/-- **No selector ends in a closing brace.** -/
theorem getLast?_of_parse {source : String} {l : SelectorList} (h : parse source = .ok l) :
    source.toList.getLast? ≠ some '\x7d' := by
  rw [parse] at h
  cases hs : Selector.selectors source.toList with
  | ok ts => exact (Selector.listText_of_selectors hs).unbraced
  | error e =>
    rw [hs] at h
    exact absurd h nofun

end TreeRules.SelectorList
