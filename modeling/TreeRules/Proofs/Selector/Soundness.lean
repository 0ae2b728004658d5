import Mathlib.Data.List.TakeWhile
import TreeRules.Proofs.Selector.Grammar

/-!
# Proofs/Selector/Soundness — what is read is in the grammar

Whatever a reader takes from the front of a text is a text of its kind, and denotes what the reader
answers (`Sound`).  There is one lemma for each reader, from the lemmas of the readers it calls; the
two that carry what they have read so far say what they add to it.
-/

namespace TreeRules.Selector

/-- The reader takes only texts that denote what it answers. -/
def Sound {α : Type} (reader : List Char → Reading α) (Text : List Char → α → Prop) : Prop :=
  ∀ ⦃s x r⦄, reader s = .ok (x, r) → ∃ w, Text w x ∧ s = w ++ r

theorem exists_of_map_eq_ok {ε α β : Type} {f : α → β} {x : Except ε α} {b : β}
    (h : x.map f = .ok b) : ∃ a, x = .ok a ∧ f a = b := by
  cases x with
  | error e => exact nomatch h
  | ok a => exact ⟨a, rfl, Except.ok.inj h⟩

/-- A reader that turns what another one has read into something else takes the same texts. -/
theorem Sound.map {α β : Type} {reader : List Char → Reading α} {Text : List Char → α → Prop}
    (hsound : Sound reader Text) {f : α → β} {s r : List Char} {y : β}
    (h : (reader s).map (fun (x, r) => (f x, r)) = .ok (y, r)) :
    ∃ w x, Text w x ∧ y = f x ∧ s = w ++ r := by
  obtain ⟨⟨x, r'⟩, hx, heq⟩ := exists_of_map_eq_ok h
  obtain ⟨rfl, rfl⟩ := Prod.mk.inj heq
  obtain ⟨w, hw, hs⟩ := hsound hx
  exact ⟨w, x, hw, rfl, hs⟩

/-! ## Blanks and identifiers -/

/-- What is skipped in front of a text are blanks. -/
theorem exists_blanks (s : List Char) : ∃ b, Blanks b ∧ s = b ++ skipBlank s :=
  ⟨s.takeWhile Text.isBlank, fun _ hc => List.mem_takeWhile_imp hc,
    List.takeWhile_append_dropWhile.symm⟩

/-- What is read as a name is one. -/
theorem sound_identifier : Sound identifier IdentifierText := by
  intro s n r h
  rw [identifier] at h
  split at h
  · exact nomatch h
  · next hne =>
    obtain ⟨rfl, rfl⟩ := Prod.mk.inj (Except.ok.inj h)
    exact ⟨_, .run hne fun c hc => List.mem_takeWhile_imp hc,
      List.takeWhile_append_dropWhile.symm⟩

/-! ## Attributes -/

/-- A quoted value holds no quote of its kind, and one of them ends it. -/
theorem quotedRest_sound {quote : Char} {s r : List Char} {v : String}
    (h : quotedRest quote s = .ok (v, r)) :
    ∃ w, quote ∉ w ∧ v = String.ofList w ∧ s = w ++ quote :: r := by
  rw [quotedRest] at h
  split at h
  · exact nomatch h
  · next c r' hd =>
    obtain ⟨rfl, rfl⟩ := Prod.mk.inj (Except.ok.inj h)
    have hstop := List.head?_dropWhile_not (· != quote) s
    rw [hd] at hstop
    obtain rfl : c = quote := bne_eq_false_iff_eq.1 hstop
    refine ⟨s.takeWhile (· != c), fun hmem => ?_, rfl, ?_⟩
    · have hne := List.mem_takeWhile_imp hmem
      exact absurd rfl (bne_iff_ne.1 hne)
    · rw [← hd, List.takeWhile_append_dropWhile]

/-- A value stands in quotes of either kind, or is a name. -/
theorem sound_attributeValue : Sound attributeValue ValueText := by
  intro s v r h
  rw [attributeValue.eq_def] at h
  split at h
  · obtain ⟨w, hw, rfl, rfl⟩ := quotedRest_sound h
    exact ⟨_, .quoted (.inl rfl) hw, by simp⟩
  · obtain ⟨w, hw, rfl, rfl⟩ := quotedRest_sound h
    exact ⟨_, .quoted (.inr rfl) hw, by simp⟩
  · obtain ⟨w, hw, rfl⟩ := sound_identifier h
    exact ⟨w, .bare hw, rfl⟩

theorem sound_attributeTail : Sound attributeTail TestText := by
  intro s v r h
  rw [attributeTail.eq_def] at h
  split at h
  · next r' =>
    split at h
    · next v' r'' hv =>
      obtain ⟨rfl, rfl⟩ := Prod.mk.inj (Except.ok.inj h)
      obtain ⟨w, hw, hr'⟩ := sound_attributeValue hv
      obtain ⟨b, hb, hsb⟩ := exists_blanks r'
      obtain ⟨b', hb', hsb'⟩ := exists_blanks r''
      refine ⟨_, .equal hb hw hb', ?_⟩
      simp only [List.cons_append, List.append_assoc]
      rw [← hsb', ← hr', ← hsb]
    · exact nomatch h
  · obtain ⟨rfl, rfl⟩ := Prod.mk.inj (Except.ok.inj h)
    exact ⟨[], .present, rfl⟩

/-- After an opening bracket. -/
theorem sound_attributeRest :
    Sound attributeRest fun w t => SuffixText ('[' :: w) (.attribute t) := by
  intro s t r h
  rw [attributeRest] at h
  split at h
  · exact nomatch h
  · next n r₁ hn =>
    split at h
    · exact nomatch h
    · next v r₂ hv =>
      obtain ⟨rfl, rfl⟩ := Prod.mk.inj (Except.ok.inj h)
      obtain ⟨b, hb, hsb⟩ := exists_blanks s
      obtain ⟨w, hw, hr₁⟩ := sound_identifier hn
      obtain ⟨b', hb', hsb'⟩ := exists_blanks r₁
      obtain ⟨u, hu, hr₂⟩ := sound_attributeTail hv
      refine ⟨_, .attribute hb hw hb' hu, ?_⟩
      simp only [List.append_assoc, List.singleton_append]
      rw [← hr₂, ← hsb', ← hr₁, ← hsb]
    · exact nomatch h

/-! ## Compounds -/

/-- A mark and what is read behind it are a test. -/
theorem suffix?_sound {s r : List Char} {x : Suffix} (h : suffix? s = some (.ok (x, r))) :
    ∃ w, SuffixText w x ∧ s = w ++ r := by
  rw [suffix?.eq_def] at h
  split at h
  · obtain ⟨w, n, hw, rfl, rfl⟩ := sound_identifier.map (Option.some.inj h)
    exact ⟨_, .id hw, rfl⟩
  · obtain ⟨w, n, hw, rfl, rfl⟩ := sound_identifier.map (Option.some.inj h)
    exact ⟨_, .class hw, rfl⟩
  · obtain ⟨w, t, hw, rfl, rfl⟩ := sound_attributeRest.map (Option.some.inj h)
    exact ⟨_, hw, rfl⟩
  · exact nomatch h

/-- The tests that are taken are added to the compound. -/
theorem suffixes_sound {c c' : Compound} {s r : List Char} (h : suffixes c s = .ok (c', r)) :
    ∃ w xs, SuffixesText w xs ∧ c' = xs.foldl Suffix.addTo c ∧ s = w ++ r := by
  fun_induction suffixes c s with
  | case1 c s hs =>
    obtain ⟨rfl, rfl⟩ := Prod.mk.inj (Except.ok.inj h)
    exact ⟨[], [], .nil, rfl, rfl⟩
  | case2 c s e hs => exact nomatch h
  | case3 c s x r' hs ih =>
    obtain ⟨w, hw, rfl⟩ := suffix?_sound hs
    obtain ⟨w', xs, hxs, rfl, rfl⟩ := ih h
    exact ⟨w ++ w', x :: xs, .cons hw hxs, rfl, (List.append_assoc ..).symm⟩

theorem foldl_addTo_append (tag : Option String) (xs : List Suffix) (ids classes : List String)
    (attributes : List AttributeTest) :
    xs.foldl Suffix.addTo ⟨tag, ids, classes, attributes⟩ =
      ⟨tag, ids ++ xs.filterMap Suffix.id?, classes ++ xs.filterMap Suffix.class?,
        attributes ++ xs.filterMap Suffix.attribute?⟩ := by
  induction xs generalizing ids classes attributes with
  | nil => simp
  | cons x xs ih =>
    rw [List.foldl_cons]
    cases x <;>
      simp [Suffix.addTo, ih, List.filterMap_cons, Suffix.id?, Suffix.class?, Suffix.attribute?]

/-- Tests added one by one stand in their order, each among those of its kind. -/
theorem foldl_addTo (tag : Option String) (xs : List Suffix) :
    xs.foldl Suffix.addTo ⟨tag, [], [], []⟩ = compoundOf tag xs :=
  foldl_addTo_append tag xs [] [] []

/-- A tag is a star, a name or nothing. -/
theorem tagPart_sound {s r : List Char} {tag : Option String} (h : tagPart s = (tag, r)) :
    ∃ w, TagText w tag ∧ s = w ++ r := by
  rw [tagPart.eq_def] at h
  split at h
  · obtain ⟨rfl, rfl⟩ := Prod.mk.inj h
    exact ⟨['*'], .star, rfl⟩
  · split at h
    · obtain ⟨rfl, rfl⟩ := Prod.mk.inj h
      exact ⟨[], .none, rfl⟩
    · next hne =>
      obtain ⟨rfl, rfl⟩ := Prod.mk.inj h
      exact ⟨_, .name (.run hne fun c hc => List.mem_takeWhile_imp hc),
        List.takeWhile_append_dropWhile.symm⟩

/-- **What is read as a compound is one**: something has been taken, or the reader fails. -/
theorem sound_compound : Sound compound CompoundText := by
  intro s c r h
  obtain ⟨w, hw, hs⟩ : ∃ w, TagText w (tagPart s).1 ∧ s = w ++ (tagPart s).2 := tagPart_sound rfl
  rw [compound.eq_def] at h
  dsimp only at h
  split at h
  · exact nomatch h
  · next c' r' hx =>
    obtain ⟨u, xs, hxs, rfl, hr⟩ := suffixes_sound hx
    split at h
    · next hlt =>
      obtain ⟨rfl, rfl⟩ := Prod.mk.inj (Except.ok.inj h)
      rw [hr, ← List.append_assoc] at hs
      have hne : w ++ u ≠ [] := fun hnil => by
        rw [hs, hnil, List.nil_append] at hlt
        exact Nat.lt_irrefl _ hlt
      rw [foldl_addTo]
      exact ⟨w ++ u, .tests hw hxs hne, hs⟩
    · split at h <;> exact nomatch h

/-! ## Selectors -/

/-- A selector with more compounds joined to its right. -/
def joinAll (left : Selector) (ps : List (Combinator × Compound)) : Selector :=
  ps.foldl (fun t p => .joined t p.1 p.2) left

theorem compounds_joinAll (left : Selector) (ps : List (Combinator × Compound)) :
    (left.joinAll ps).compounds = left.compounds ++ ps.map Prod.snd := by
  induction ps generalizing left with
  | nil => exact (List.append_nil _).symm
  | cons p ps ih => exact (ih _).trans (List.append_assoc ..)

theorem combinators_joinAll (left : Selector) (ps : List (Combinator × Compound)) :
    (left.joinAll ps).combinators = left.combinators ++ ps.map Prod.fst := by
  induction ps generalizing left with
  | nil => exact (List.append_nil _).symm
  | cons p ps ih => exact (ih _).trans (List.append_assoc ..)

/-- What is read behind the first compound joins compounds to it and may end in blanks. -/
theorem selectorTail_sound {left t : Selector} {s r : List Char}
    (h : selectorTail left s = .ok (t, r)) :
    ∃ w ps b, JoinedText w ps ∧ Blanks b ∧ t = left.joinAll ps ∧ s = w ++ b ++ r := by
  fun_induction selectorTail left s with
  | case1 left s hs =>
    obtain ⟨rfl, rfl⟩ := Prod.mk.inj (Except.ok.inj h)
    obtain ⟨b, hb, hsb⟩ := exists_blanks s
    rw [hs] at hsb
    exact ⟨[], [], b, .nil, hb, rfl, hsb⟩
  | case2 left s r' hs =>
    obtain ⟨rfl, rfl⟩ := Prod.mk.inj (Except.ok.inj h)
    obtain ⟨b, hb, hsb⟩ := exists_blanks s
    rw [hs] at hsb
    exact ⟨[], [], b, .nil, hb, rfl, hsb⟩
  | case3 => simp at h
  | case4 left s r' hs c r'' hc ih =>
    obtain ⟨b, hb, hsb⟩ := exists_blanks s
    obtain ⟨b', hb', hsb'⟩ := exists_blanks r'
    obtain ⟨v, hv, hr'⟩ := sound_compound hc
    obtain ⟨w, ps, b'', hw, hb'', rfl, rfl⟩ := ih h
    refine ⟨_, _, b'', .cons (.child hb hb') hv hw, hb'', rfl, ?_⟩
    rw [hsb, hs, hsb', hr']
    simp
  | case5 => simp at h
  | case6 left s c r' _ _ hs hlt c' r'' hc ih =>
    obtain ⟨b, hb, hsb⟩ := exists_blanks s
    obtain ⟨v, hv, hr'⟩ := sound_compound hc
    obtain ⟨w, ps, b'', hw, hb'', rfl, rfl⟩ := ih h
    -- the text got shorter by the blanks alone
    have hne : b ≠ [] := fun hnil => by
      rw [hsb, hnil, hs] at hlt
      exact Nat.lt_irrefl _ hlt
    refine ⟨_, _, b'', .cons (.descendant hne hb) hv hw, hb'', rfl, ?_⟩
    rw [hsb, hs, hr']
    simp
  | case7 => simp at h

/-- **What is read as a selector is one.** -/
theorem sound_selector : Sound selector SelectorText := by
  intro s t r h
  rw [selector] at h
  split at h
  · exact nomatch h
  · next c r' hc =>
    obtain ⟨b, hb, hsb⟩ := exists_blanks s
    obtain ⟨w, hw, hr'⟩ := sound_compound hc
    obtain ⟨u, ps, b', hu, hb', rfl, rfl⟩ := selectorTail_sound h
    refine ⟨_, .parts hb hw hu hb' (compounds_joinAll _ ps) (combinators_joinAll _ ps), ?_⟩
    simp only [List.append_assoc] at hr' ⊢
    rw [← hr', ← hsb]

/-- **What is read as a selector list is one**, and its selectors are those that it denotes. -/
theorem listText_of_selectors {s : List Char} {ts : List Selector} (h : selectors s = .ok ts) :
    ListText s ts := by
  fun_induction selectors s generalizing ts with
  | case1 s e hs => exact nomatch h
  | case2 s t hs =>
    obtain rfl := Except.ok.inj h
    obtain ⟨w, hw, rfl⟩ := sound_selector hs
    exact (List.append_nil w).symm ▸ .last hw
  | case3 s t r hs ih =>
    obtain ⟨ts', hts', rfl⟩ := exists_of_map_eq_ok h
    obtain ⟨w, hw, rfl⟩ := sound_selector hs
    exact .more hw (ih hts')
  | case4 => exact nomatch h

end TreeRules.Selector
