import TreeRules.Proofs.Selector.Soundness
import TreeRules.Proofs.Text.Stops

/-!
# Proofs/Selector/Completeness — what is in the grammar is read

A reader takes all of a text of its kind and leaves what comes after it, as long as that does not go
on with the text (`Complete`): readers take as much as they can.  The grammar never puts such
characters there — behind a compound there is a blank, a greater-than sign, a comma or the end — so
a text that is a selector list is read to its end.  With soundness, reading is the grammar
(`SelectorList.parse_iff_listText`).
-/

namespace TreeRules.Selector

open Text (Stops stops_nil stops_cons stops_of_all dropWhile_append takeWhile_append)

variable {p : Char → Bool} {b s w r rest : List Char}

/-! ## Where texts end -/

/-- Blanks are skipped up to what does not go on with them. -/
theorem skipBlank_append (hb : Blanks b) (hr : Stops Text.isBlank rest) :
    skipBlank (b ++ rest) = rest :=
  dropWhile_append hb hr

/-- A compound does not go on with a blank. -/
theorem Blanks.stops_continues (hb : Blanks b) : Stops continues b :=
  stops_of_all fun c hc => continues_of_isBlank (hb c hc)

/-- What ends a compound ends a name. -/
theorem stops_identifier (h : Stops continues rest) : Stops isIdentifierChar rest :=
  h.mono fun _ hc => continues_of_isIdentifierChar hc

/-- The reader takes all of a text that denotes something, if what comes after it does not go on
with it. -/
def Complete {α : Type} (reader : List Char → Reading α) (Text : List Char → α → Prop)
    (goesOn : Char → Bool) : Prop :=
  ∀ ⦃w x rest⦄, Text w x → Stops goesOn rest → reader (w ++ rest) = .ok (x, rest)

/-! ## Where texts begin -/

/-- A name begins with one of its characters. -/
theorem IdentifierText.exists_cons {n : String} (h : IdentifierText w n) :
    ∃ c r, w = c :: r ∧ isIdentifierChar c = true := by
  obtain ⟨ne, all⟩ := h
  obtain ⟨c, r, rfl⟩ := List.exists_cons_of_ne_nil ne
  exact ⟨c, r, rfl, all c List.mem_cons_self⟩

theorem IdentifierText.ne_nil {n : String} (h : IdentifierText w n) : w ≠ [] := by
  obtain ⟨c, r, rfl, -⟩ := h.exists_cons
  exact List.cons_ne_nil c r

/-- No blank is skipped in front of a name. -/
theorem IdentifierText.stops_isBlank {n : String} (h : IdentifierText w n) :
    Stops Text.isBlank w := by
  obtain ⟨c, r, rfl, hc⟩ := h.exists_cons
  exact stops_cons (isBlank_of_continues (continues_of_isIdentifierChar hc)) r

theorem ValueText.ne_nil {v : String} (h : ValueText w v) : w ≠ [] := by
  cases h with
  | bare h => exact h.ne_nil
  | quoted => exact List.cons_ne_nil _ _

/-- A value begins with a quote or with a name, and not with a blank. -/
theorem ValueText.stops_isBlank {v : String} (h : ValueText w v) : Stops Text.isBlank w := by
  cases h with
  | bare h => exact h.stops_isBlank
  | quoted hq h =>
    rcases hq with rfl | rfl
    · exact stops_cons (by decide) _
    · exact stops_cons (by decide) _

/-- The inside of a bracket goes on with an equals sign, or ends. -/
theorem TestText.stops {v : Option String} (h : TestText w v) (hequal : p '=' = false)
    (hbracket : p ']' = false) (rest : List Char) : Stops p (w ++ ']' :: rest) := by
  cases h with
  | present => exact stops_cons hbracket rest
  | equal => exact stops_cons hequal _

/-- A test begins with a mark of its own. -/
theorem SuffixText.exists_cons {x : Suffix} (h : SuffixText w x) :
    ∃ m r, w = m :: r ∧ (m = '#' ∨ m = '.' ∨ m = '[') := by
  cases h with
  | id => exact ⟨'#', _, rfl, .inl rfl⟩
  | «class» => exact ⟨'.', _, rfl, .inr (.inl rfl)⟩
  | «attribute» => exact ⟨'[', _, rfl, .inr (.inr rfl)⟩

/-- Tests begin with one of three marks, so whatever goes on with none of them ends there. -/
theorem SuffixesText.stops {xs : List Suffix} (h : SuffixesText w xs) (hhash : p '#' = false)
    (hpoint : p '.' = false) (hbracket : p '[' = false) : Stops p w := by
  cases h with
  | nil => exact stops_nil p
  | cons hx hxs =>
    obtain ⟨m, r, rfl, rfl | rfl | rfl⟩ := hx.exists_cons
    · exact stops_cons hhash _
    · exact stops_cons hpoint _
    · exact stops_cons hbracket _

/-- A compound begins with a character that goes on with one, or with a star. -/
theorem CompoundText.exists_cons {c : Compound} (h : CompoundText w c) :
    ∃ d r, w = d :: r ∧ (continues d = true ∨ d = '*') := by
  cases h with
  | @tests s u tag xs htag hu ne =>
    cases htag with
    | none =>
      cases hu with
      | nil => exact absurd rfl ne
      | cons hx hxs =>
        obtain ⟨m, r, rfl, hm⟩ := hx.exists_cons
        exact ⟨m, _, rfl, .inl (by rcases hm with rfl | rfl | rfl <;> rfl)⟩
    | star => exact ⟨'*', u, rfl, .inr rfl⟩
    | name hs =>
      obtain ⟨d, r, rfl, hd⟩ := hs.exists_cons
      exact ⟨d, r ++ u, rfl, .inl (continues_of_isIdentifierChar hd)⟩

theorem CompoundText.stops_isBlank {c : Compound} (h : CompoundText w c) :
    Stops Text.isBlank w := by
  obtain ⟨d, r, rfl, hd | rfl⟩ := h.exists_cons
  · exact stops_cons (isBlank_of_continues hd) r
  · exact stops_cons (by decide) r

theorem CompoundText.ne_nil {c : Compound} (h : CompoundText w c) : w ≠ [] := by
  obtain ⟨d, r, rfl, -⟩ := h.exists_cons
  exact List.cons_ne_nil d r

theorem CombinatorText.ne_nil {j : Combinator} (h : CombinatorText w j) : w ≠ [] := by
  cases h with
  | child => simp
  | descendant ne => exact ne

/-- Whichever combinator comes next, the compound in front of it has ended. -/
theorem CombinatorText.stops {j : Combinator} (h : CombinatorText w j) : Stops continues w := by
  cases h with
  | child hb => exact hb.stops_continues.append (stops_cons (by decide) _)
  | descendant _ hb => exact hb.stops_continues

/-- Steps begin with a combinator, or there are none. -/
theorem JoinedText.stops {ps : List (Combinator × Compound)} (h : JoinedText w ps) :
    Stops continues w := by
  cases h with
  | nil => exact stops_nil continues
  | @cons k s r _ _ _ hk =>
    rw [List.append_assoc]
    exact hk.stops.append_of_ne_nil hk.ne_nil (s ++ r)

/-! ## Identifiers and attributes -/

/-- A name is read to its end. -/
theorem complete_identifier : Complete identifier IdentifierText isIdentifierChar := by
  intro w n rest h hr
  obtain ⟨ne, all⟩ := h
  rw [identifier, takeWhile_append all hr, dropWhile_append all hr]
  split
  · exact absurd rfl ne
  · rfl

/-- What stands between quotes is read up to the quote that opened it, whatever else it holds. -/
theorem quotedRest_complete {quote : Char} (h : quote ∉ w) (rest : List Char) :
    quotedRest quote (w ++ quote :: rest) = .ok (String.ofList w, rest) := by
  have all : ∀ c ∈ w, (c != quote) = true := fun c hc =>
    bne_iff_ne.2 fun heq => h (heq ▸ hc)
  have hstop : Stops (· != quote) (quote :: rest) := stops_cons (by simp) rest
  rw [quotedRest, takeWhile_append all hstop, dropWhile_append all hstop]

/-- A value that no quote opens is a name. -/
theorem attributeValue_of_ne {c : Char} (hdouble : c ≠ '"') (hsingle : c ≠ '\'') :
    attributeValue (c :: r) = identifier (c :: r) := by
  rw [attributeValue.eq_def]
  split <;> simp_all

/-- A value is read without its quotes. -/
theorem complete_attributeValue : Complete attributeValue ValueText isIdentifierChar := by
  intro w v rest h hr
  cases h with
  | bare h =>
    have hname := complete_identifier h hr
    obtain ⟨c, w, rfl, hc⟩ := h.exists_cons
    have hdouble : c ≠ '"' := ne_of_class hc (by decide)
    have hsingle : c ≠ '\'' := ne_of_class hc (by decide)
    rw [List.cons_append] at hname ⊢
    rw [attributeValue_of_ne hdouble hsingle, hname]
  | @quoted s quote hq hs =>
    have hrest := quotedRest_complete hs rest
    rw [List.cons_append, List.append_assoc, List.singleton_append]
    rcases hq with rfl | rfl
    · exact hrest
    · exact hrest

/-- The value of a test, if it has one, is read up to the bracket. -/
theorem attributeTail_complete {v : Option String} (h : TestText w v) (rest : List Char) :
    attributeTail (w ++ ']' :: rest) = .ok (v, ']' :: rest) := by
  cases h with
  | present => rfl
  | @equal b s b' v hb hs hb' =>
    have hclose : Stops continues (']' :: rest) := stops_cons (by decide) rest
    have hskip : skipBlank (b ++ (s ++ (b' ++ ']' :: rest))) = s ++ (b' ++ ']' :: rest) :=
      skipBlank_append hb (hs.stops_isBlank.append_of_ne_nil hs.ne_nil _)
    have hvalue : attributeValue (s ++ (b' ++ ']' :: rest)) = .ok (v, b' ++ ']' :: rest) :=
      complete_attributeValue hs (stops_identifier (hb'.stops_continues.append hclose))
    have hskip' : skipBlank (b' ++ ']' :: rest) = ']' :: rest :=
      skipBlank_append hb' (stops_cons (by decide) rest)
    simp only [List.cons_append, List.append_assoc, attributeTail, hskip, hvalue, hskip']

/-- **A bracket is read to its end**, with blanks around its name and its value. -/
theorem attributeRest_complete {b' u : List Char} {n : String} {v : Option String} (hb : Blanks b)
    (hs : IdentifierText s n) (hb' : Blanks b') (hu : TestText u v) (rest : List Char) :
    attributeRest (b ++ s ++ b' ++ u ++ [']'] ++ rest) = .ok (⟨n, v⟩, rest) := by
  have htest : Stops continues (u ++ ']' :: rest) := hu.stops (by decide) (by decide) rest
  have hblank : Stops Text.isBlank (u ++ ']' :: rest) := hu.stops (by decide) (by decide) rest
  have hskip : skipBlank (b ++ (s ++ (b' ++ (u ++ ']' :: rest)))) =
      s ++ (b' ++ (u ++ ']' :: rest)) :=
    skipBlank_append hb (hs.stops_isBlank.append_of_ne_nil hs.ne_nil _)
  have hname : identifier (s ++ (b' ++ (u ++ ']' :: rest))) =
      .ok (n, b' ++ (u ++ ']' :: rest)) :=
    complete_identifier hs (stops_identifier (hb'.stops_continues.append htest))
  have hskip' : skipBlank (b' ++ (u ++ ']' :: rest)) = u ++ ']' :: rest :=
    skipBlank_append hb' hblank
  simp only [List.append_assoc, List.singleton_append, attributeRest, hskip, hname, hskip',
    attributeTail_complete hu]

/-! ## Compounds -/

/-- A test is read to its end. -/
theorem suffix?_complete {x : Suffix} (h : SuffixText w x) (hr : Stops isIdentifierChar rest) :
    suffix? (w ++ rest) = some (.ok (x, rest)) := by
  cases h with
  | id hs => simp [suffix?, complete_identifier hs hr, Except.map]
  | «class» hs => simp [suffix?, complete_identifier hs hr, Except.map]
  | «attribute» hb hs hb' hu =>
    rw [List.cons_append, suffix?, attributeRest_complete hb hs hb' hu]
    rfl

/-- Where a compound ends there is no further test. -/
theorem suffix?_eq_none (hr : Stops continues rest) : suffix? rest = none := by
  rw [suffix?.eq_def]
  split
  · exact absurd (hr '#' rfl) (by decide)
  · exact absurd (hr '.' rfl) (by decide)
  · exact absurd (hr '[' rfl) (by decide)
  · rfl

theorem suffixes_of_none {c : Compound} (h : suffix? s = none) : suffixes c s = .ok (c, s) := by
  rw [suffixes.eq_def]
  split <;> simp_all

/-- A test that is read is added to the compound, and the reader goes on. -/
theorem suffixes_of_some {c : Compound} {x : Suffix} (h : suffix? s = some (.ok (x, r))) :
    suffixes c s = suffixes (x.addTo c) r := by
  rw [suffixes.eq_def]
  split <;> simp_all

/-- **Tests are read one after the other**, and added to the compound in that order. -/
theorem suffixes_complete {xs : List Suffix} (h : SuffixesText w xs) (hr : Stops continues rest)
    (c : Compound) : suffixes c (w ++ rest) = .ok (xs.foldl Suffix.addTo c, rest) := by
  induction h generalizing c with
  | nil => exact suffixes_of_none (suffix?_eq_none hr)
  | @cons s r x xs hx hxs ih =>
    have hfirst : suffix? (s ++ (r ++ rest)) = some (.ok (x, r ++ rest)) :=
      suffix?_complete hx ((hxs.stops (by decide) (by decide) (by decide)).append (stops_identifier hr))
    rw [List.append_assoc, suffixes_of_some hfirst, ih (x.addTo c)]
    rfl

/-- Without a name and without a star, a compound has no tag. -/
theorem tagPart_of_stops (hr : Stops isIdentifierChar rest) (hstar : Stops (· == '*') rest) :
    tagPart rest = (none, rest) := by
  rw [tagPart.eq_def]
  split
  · exact absurd (hstar '*' rfl) (by decide)
  · rw [hr.takeWhile]

/-- A tag is a name in small letters. -/
theorem tagPart_of_identifierText {n : String} (h : IdentifierText w n)
    (hr : Stops isIdentifierChar rest) : tagPart (w ++ rest) = (some n.toLower, rest) := by
  obtain ⟨c, w', hw, hc⟩ := h.exists_cons
  obtain ⟨ne, all⟩ := h
  rw [tagPart.eq_def]
  split
  · next r heq =>
    rw [hw, List.cons_append] at heq
    exact absurd (List.cons.inj heq).1 (ne_of_class hc (by decide))
  · rw [takeWhile_append all hr, dropWhile_append all hr]
    split
    · exact absurd rfl ne
    · rfl

/-- The tag is taken from the front of a compound, and its tests are left. -/
theorem tagPart_complete {u : List Char} {tag : Option String} {xs : List Suffix}
    (h : TagText w tag) (hu : SuffixesText u xs) (ne : w ++ u ≠ []) (hr : Stops continues rest) :
    tagPart (w ++ (u ++ rest)) = (tag, u ++ rest) := by
  have hstops : Stops isIdentifierChar (u ++ rest) :=
    (hu.stops (by decide) (by decide) (by decide)).append (stops_identifier hr)
  cases h with
  | none =>
    have hstar : Stops (· == '*') (u ++ rest) :=
      (hu.stops (by decide) (by decide) (by decide)).append_of_ne_nil ne rest
    exact tagPart_of_stops hstops hstar
  | star => rfl
  | name h => exact tagPart_of_identifierText h hstops

/-- **A compound is read to its end.** -/
theorem complete_compound : Complete compound CompoundText continues := by
  intro w c rest h hr
  cases h with
  | @tests s u tag xs htag hu ne =>
    -- the text is not empty, so something has been read
    have hlt : rest.length < (s ++ (u ++ rest)).length := by
      rw [← List.append_assoc, List.length_append]
      exact Nat.lt_add_of_pos_left (List.length_pos_iff.2 ne)
    rw [List.append_assoc]
    simp only [compound, tagPart_complete htag hu ne hr, suffixes_complete hu hr, foldl_addTo,
      if_pos hlt]

/-! ## Selectors -/

/-- A greater-than sign behind blanks makes a child of what comes next. -/
theorem selectorTail_of_child {left : Selector} {c : Compound} (hs : skipBlank s = '>' :: w)
    (hc : compound (skipBlank w) = .ok (c, r)) :
    selectorTail left s = selectorTail (.joined left .child c) r := by
  rw [selectorTail.eq_def]
  split
  · simp_all
  · simp_all
  · next h =>
    obtain ⟨-, rfl⟩ := List.cons.inj (h.symm.trans hs)
    split <;> simp_all
  · simp_all

/-- Blanks with something else behind them make a descendant; that blanks are there is seen by the
length. -/
theorem selectorTail_of_descendant {left : Selector} {c : Compound} {d : Char}
    (hs : skipBlank s = d :: w) (hcomma : d ≠ ',') (hgt : d ≠ '>')
    (hlt : (d :: w).length < s.length) (hc : compound (d :: w) = .ok (c, r)) :
    selectorTail left s = selectorTail (.joined left .descendant c) r := by
  rw [selectorTail.eq_def]
  split
  · simp_all
  · next h => exact absurd (List.cons.inj (hs.symm.trans h)).1 hcomma
  · next h => exact absurd (List.cons.inj (hs.symm.trans h)).1 hgt
  · next h =>
    obtain ⟨rfl, rfl⟩ := List.cons.inj (h.symm.trans hs)
    rw [if_pos hlt]
    split <;> simp_all

/-- The end of the text, or a comma. -/
def Ends (rest : List Char) : Prop := rest = [] ∨ ∃ r, rest = ',' :: r

theorem Ends.stops (h : Ends rest) (hp : p ',' = false) : Stops p rest := by
  rcases h with rfl | ⟨r, rfl⟩
  · exact stops_nil p
  · exact stops_cons hp r

/-- Blanks at the end of a selector belong to it and mean nothing. -/
theorem selectorTail_of_ends (hb : Blanks b) (h : Ends rest) (left : Selector) :
    selectorTail left (b ++ rest) = .ok (left, rest) := by
  have hskip : skipBlank (b ++ rest) = rest := skipBlank_append hb (h.stops (by decide))
  rw [selectorTail.eq_def]
  rcases h with rfl | ⟨r, rfl⟩
  · split <;> simp_all
  · split <;> simp_all

/-- A combinator and a compound are one step of the repetition. -/
theorem selectorTail_step {j : Combinator} {c : Compound} (hk : CombinatorText w j)
    (hc : CompoundText s c) (hr : Stops continues rest) (left : Selector) :
    selectorTail left (w ++ (s ++ rest)) = selectorTail (.joined left j c) rest := by
  have hcompound : compound (s ++ rest) = .ok (c, rest) := complete_compound hc hr
  have hblank : Stops Text.isBlank (s ++ rest) :=
    hc.stops_isBlank.append_of_ne_nil hc.ne_nil rest
  cases hk with
  | @child b b' hb hb' =>
    have hskip : skipBlank (b ++ '>' :: (b' ++ (s ++ rest))) = '>' :: (b' ++ (s ++ rest)) :=
      skipBlank_append hb (stops_cons (by decide) _)
    rw [List.append_assoc, List.cons_append]
    exact selectorTail_of_child hskip (by rw [skipBlank_append hb' hblank, hcompound])
  | descendant ne hb =>
    have hskip : skipBlank (w ++ (s ++ rest)) = s ++ rest := skipBlank_append hb hblank
    have hlength : (w ++ (s ++ rest)).length = w.length + (s ++ rest).length :=
      List.length_append
    have hlt : (s ++ rest).length < (w ++ (s ++ rest)).length :=
      hlength ▸ Nat.lt_add_of_pos_left (List.length_pos_iff.2 ne)
    obtain ⟨d, u, rfl, hd | rfl⟩ := hc.exists_cons
    · have hcomma : d ≠ ',' := ne_of_class hd (by decide)
      have hgreater : d ≠ '>' := ne_of_class hd (by decide)
      exact selectorTail_of_descendant hskip hcomma hgreater hlt hcompound
    · exact selectorTail_of_descendant hskip (by decide) (by decide) hlt hcompound

/-- **Steps are read to the end of the selector**, each joined to what is read so far. -/
theorem selectorTail_complete {ps : List (Combinator × Compound)} (h : JoinedText w ps)
    (hb : Blanks b) (hend : Ends rest) (left : Selector) :
    selectorTail left (w ++ (b ++ rest)) = .ok (left.joinAll ps, rest) := by
  induction h generalizing left with
  | nil => exact selectorTail_of_ends hb hend left
  | @cons k s r j c ps hk hc hr ih =>
    have hstops : Stops continues (r ++ (b ++ rest)) :=
      hr.stops.append (hb.stops_continues.append (hend.stops (by decide)))
    rw [List.append_assoc, List.append_assoc, selectorTail_step hk hc hstops, ih]
    rfl

/-- **A selector is read up to its comma, or to the end.** -/
theorem selector_complete {t : Selector} (h : SelectorText w t) (hend : Ends rest) :
    selector (w ++ rest) = .ok (t, rest) := by
  cases h with
  | @parts b s r b' c ps t hb hc hr hb' hcompounds hcombinators =>
    have ht : (single c).joinAll ps = t := by
      refine eq_of_parts ?_ ?_
      · rw [compounds_joinAll, hcompounds]
        rfl
      · rw [combinators_joinAll, hcombinators]
        rfl
    have hstops : Stops continues (r ++ (b' ++ rest)) :=
      hr.stops.append (hb'.stops_continues.append (hend.stops (by decide)))
    have hskip : skipBlank (b ++ (s ++ (r ++ (b' ++ rest)))) = s ++ (r ++ (b' ++ rest)) :=
      skipBlank_append hb (hc.stops_isBlank.append_of_ne_nil hc.ne_nil _)
    simp only [List.append_assoc, selector, hskip, complete_compound hc hstops]
    rw [selectorTail_complete hr hb' hend, ht]

/-! ## Selector lists -/

/-- A selector that is read to the end is the last of its list. -/
theorem selectors_of_end {t : Selector} (h : selector s = .ok (t, [])) :
    selectors s = .ok [t] := by
  rw [selectors.eq_def]
  split <;> simp_all

/-- Behind a comma the list goes on. -/
theorem selectors_of_comma {t : Selector} (h : selector s = .ok (t, ',' :: r)) :
    selectors s = (selectors r).map (t :: ·) := by
  rw [selectors.eq_def]
  split <;> simp_all

/-- **A selector list is read as what it denotes.** -/
theorem selectors_of_listText {ts : List Selector} (h : ListText s ts) :
    selectors s = .ok ts := by
  induction h with
  | @last s t h =>
    have hs : selector (s ++ []) = .ok (t, []) := selector_complete h (.inl rfl)
    rw [List.append_nil] at hs
    exact selectors_of_end hs
  | more h _ ih =>
    rw [selectors_of_comma (selector_complete h (.inr ⟨_, rfl⟩)), ih]
    rfl

/-- **Reading a text is deriving it**, and there is one way to derive it. -/
theorem selectors_eq_ok_iff {ts : List Selector} : selectors s = .ok ts ↔ ListText s ts :=
  ⟨listText_of_selectors, selectors_of_listText⟩

end TreeRules.Selector

namespace TreeRules.SelectorList

open Selector (ListText selectors_eq_ok_iff)

/-- **The selector lists are those of the grammar.**  A text is read just if the grammar has it,
and then as the selectors that it denotes there, in their order; each of them has one combinator
fewer than it has compounds. -/
theorem parse_iff_listText (source : String) :
    ((∃ l, parse source = .ok l) ↔ ∃ ts, ListText source.toList ts) ∧
    (∀ l, parse source = .ok l ↔ l.source = source ∧ ListText source.toList l.selectors) ∧
    ∀ l, parse source = .ok l →
      ∀ t ∈ l.selectors, t.compounds.length = t.combinators.length + 1 := by
  have hiff : ∀ l, parse source = .ok l ↔
      l.source = source ∧ ListText source.toList l.selectors := by
    intro l
    rw [← selectors_eq_ok_iff, parse]
    cases h : Selector.selectors source.toList with
    | error e => simp
    | ok ts =>
      constructor
      · intro hl
        obtain rfl := Except.ok.inj hl
        exact ⟨rfl, rfl⟩
      · rintro ⟨hsource, hts⟩
        rw [Except.ok.inj hts, ← hsource]
  refine ⟨⟨fun ⟨l, hl⟩ => ⟨l.selectors, ((hiff l).1 hl).2⟩, fun ⟨ts, hts⟩ => ?_⟩, hiff,
    fun l _ t _ => t.length_compounds⟩
  exact ⟨⟨source, ts⟩, (hiff _).2 ⟨rfl, hts⟩⟩

/-- A comma between quotes parts nothing, and blanks around a sign are only blanks. -/
example : (parse "A[b = 'x,y']  >.c\t#d ,*").toOption.map (·.selectors) = some
    [.joined (.joined (.single ⟨some "a", [], [], [⟨"b", some "x,y"⟩]⟩)
        .child ⟨none, [], ["c"], []⟩) .descendant ⟨none, ["d"], [], []⟩,
      .single ⟨none, [], [], []⟩] := by
  decide +kernel

/-- A name next to a star, a combinator that joins nothing, a quote that does not end. -/
example : ["*a", "a*", "a >", "> a", "a,", "[a='b]", " "].all fun source =>
    (parse source).toOption.isNone := by
  decide +kernel

end TreeRules.SelectorList
