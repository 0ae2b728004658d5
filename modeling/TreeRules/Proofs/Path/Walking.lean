import TreeRules.Proofs.Path.Steps

/-!
# Proofs/Path/Walking — segments after segments, from several nodes

A path is walked from each start node by itself, with the whole list of nodes reached so far.  It
could as well be walked from all start nodes at once, segment by segment (`follow_eq_resolve`).
The two visit nodes in different orders and may stop in different places, but they stop for the
same reason: a segment whose selector cannot be read lets nothing through, so whatever fails fails
at the first such segment (`blames_follow`), and whoever gets past a segment shows that it fails
nowhere.
-/

namespace TreeRules

variable {ε α β : Type}

/-- What succeeds has come through its first part. -/
theorem exists_of_bind_eq_ok {x : Except ε α} {f : α → Except ε β} {b : β}
    (h : x >>= f = .ok b) : ∃ a, x = .ok a ∧ f a = .ok b := by
  cases x with
  | error e => exact absurd h nofun
  | ok a => exact ⟨a, rfl, h⟩

/-! ## Lists put together -/

/-- Lists found one after the other and put together, up to the first failure. -/
def collect (find : α → Except ε (List β)) (as : List α) : Except ε (List β) :=
  (as.mapM find).map List.flatten

variable {find : α → Except ε (List β)} {as : List α} {bs : List β}

theorem collect_nil (find : α → Except ε (List β)) : collect find [] = .ok [] := rfl

theorem collect_cons (find : α → Except ε (List β)) (a : α) (as : List α) :
    collect find (a :: as) = do return (← find a) ++ (← collect find as) := by
  rw [collect, List.mapM_cons]
  cases find a with
  | error e => rfl
  | ok bs =>
    rw [collect]
    cases as.mapM find with
    | error e => rfl
    | ok cs => rfl

theorem collect_singleton (find : α → Except ε (List β)) (a : α) : collect find [a] = find a := by
  rw [collect_cons, collect_nil]
  cases find a with
  | error e => rfl
  | ok bs => exact congrArg Except.ok (List.append_nil bs)

/-- Lists are collected from front to back. -/
theorem collect_append (find : α → Except ε (List β)) (as as' : List α) :
    collect find (as ++ as') = do return (← collect find as) ++ (← collect find as') := by
  induction as with
  | nil =>
    rw [List.nil_append, collect_nil]
    cases collect find as' <;> rfl
  | cons a as ih =>
    rw [List.cons_append, collect_cons, collect_cons, ih]
    cases find a with
    | error e => rfl
    | ok bs =>
      cases collect find as with
      | error e => rfl
      | ok cs =>
        cases collect find as' with
        | error e => rfl
        | ok cs' => exact congrArg Except.ok (List.append_assoc bs cs cs').symm

/-- Lists that are all found are put together in their order. -/
theorem collect_of_ok {known : α → List β} (h : ∀ a ∈ as, find a = .ok (known a)) :
    collect find as = .ok (as.flatMap known) := by
  induction as with
  | nil => rfl
  | cons a as ih =>
    rw [collect_cons, h a List.mem_cons_self, ih fun b hb => h b (List.mem_cons_of_mem a hb),
      List.flatMap_cons]
    rfl

/-- What is put together, if every list is known. -/
theorem flatMap_of_collect {γ : Type} {view : β → γ} {known : α → List γ}
    (h : collect find as = .ok bs)
    (hknown : ∀ a ∈ as, ∀ cs, find a = .ok cs → known a = cs.map view) :
    as.flatMap known = bs.map view := by
  induction as generalizing bs with
  | nil =>
    obtain rfl : [] = bs := Except.ok.inj h
    rfl
  | cons a as ih =>
    rw [collect_cons] at h
    obtain ⟨cs, ha, hrest⟩ := exists_of_bind_eq_ok h
    obtain ⟨cs', has, hboth⟩ := exists_of_bind_eq_ok hrest
    obtain rfl : cs ++ cs' = bs := Except.ok.inj hboth
    rw [List.flatMap_cons, List.map_append, hknown a List.mem_cons_self cs ha,
      ih has fun b hb => hknown b (List.mem_cons_of_mem a hb)]

/-- A member comes from one of the lists. -/
theorem exists_of_mem_collect (h : collect find as = .ok bs) {b : β} (hb : b ∈ bs) :
    ∃ a ∈ as, ∃ cs, find a = .ok cs ∧ b ∈ cs := by
  have hall : as.flatMap (fun a => (find a).toOption.getD []) = bs.map id :=
    flatMap_of_collect h fun a _ cs ha => by rw [ha, List.map_id]; rfl
  rw [List.map_id] at hall
  obtain ⟨a, ha, hmem⟩ := List.mem_flatMap.1 (hall ▸ hb)
  cases hfind : find a with
  | error e => exact absurd (hfind ▸ hmem) List.not_mem_nil
  | ok cs =>
    rw [hfind] at hmem
    exact ⟨a, ha, cs, hfind, hmem⟩

/-- What is blamed of each is blamed of all. -/
theorem Blames.collect {fault : Option SelectorError} {find : α → Except TreeError (List Nat)}
    (h : ∀ a ∈ as, Blames fault (find a)) : Blames fault (collect find as) := by
  induction as with
  | nil =>
    cases fault with
    | none => exact ⟨[], rfl⟩
    | some e => exact .inl rfl
  | cons a as ih =>
    have hfirst := h a List.mem_cons_self
    have hrest := ih fun b hb => h b (List.mem_cons_of_mem a hb)
    rw [collect_cons]
    cases fault with
    | none =>
      obtain ⟨ns, hns⟩ := hfirst
      obtain ⟨ms, hms⟩ := hrest
      rw [hns, hms]
      exact ⟨ns ++ ms, rfl⟩
    | some e =>
      rcases hfirst with hns | hns
      · rw [hns]
        rcases hrest with hms | hms
        · rw [hms]
          exact .inl rfl
        · rw [hms]
          exact .inr rfl
      · rw [hns]
        exact .inr rfl

namespace Document

variable {d : Document} {s : Segment} {segments rest : List Segment} {n m : Nat}
  {ns ms start : List Nat}

/-! ## One segment from several nodes -/

theorem foundFrom_eq (d : Document) (s : Segment) (ns : List Nat) :
    d.foundFrom s ns = collect (d.found s) ns := rfl

theorem blames_foundFrom (h : ∀ n ∈ ns, d.hasNode n = true) (s : Segment) :
    Blames s.fault? (d.foundFrom s ns) := Blames.collect fun n hn => blames_found (h n hn) s

/-- What a segment finds are elements. -/
theorem contains_of_foundFrom (h : ∀ n ∈ ns, d.hasNode n = true) (hf : d.foundFrom s ns = .ok ms) :
    ∀ m ∈ ms, d.contains m = true := by
  intro m hm
  obtain ⟨n, hn, ks, hks, hmem⟩ := exists_of_mem_collect hf hm
  exact (found_elements (h n hn) hks).2 m hmem

theorem hasNode_of_foundFrom (h : ∀ n ∈ ns, d.hasNode n = true) (hf : d.foundFrom s ns = .ok ms) :
    ∀ m ∈ ms, d.hasNode m = true := fun m hm =>
  hasNode_of_contains (contains_of_foundFrom h hf m hm)

/-- Who gets past a segment shows that it fails nowhere. -/
theorem eq_nil_of_error {e : TreeError} (hn : d.hasNode n = true) (h : ∀ n ∈ ns, d.hasNode n = true)
    (hf : d.found s n = .ok ms) (he : d.foundFrom s ns = .error e) : ms = [] := by
  have hblames := blames_found hn s
  have hblames' := blames_foundFrom h s
  cases hfault : s.fault? with
  | none =>
    rw [hfault] at hblames'
    obtain ⟨ks, hks⟩ := hblames'
    exact absurd (he.symm.trans hks) nofun
  | some e' =>
    rw [hfault] at hblames
    rcases hblames with hnil | herror
    · exact Except.ok.inj (hf.symm.trans hnil)
    · exact absurd (hf.symm.trans herror) nofun

/-! ## Segments one after the other -/

theorem follow_nil (d : Document) (segments : List Segment) : d.follow segments [] = .ok [] := by
  cases segments <;> rfl

/-- Nothing is found from nothing, so it makes no difference to stop there. -/
theorem follow_cons (d : Document) (s : Segment) (rest : List Segment) (ns : List Nat) :
    d.follow (s :: rest) ns = d.foundFrom s ns >>= d.follow rest := by
  rw [follow]
  cases d.foundFrom s ns with
  | error e => rfl
  | ok found =>
    change (if found = [] then _ else _) = d.follow rest found
    split
    · next hnil => rw [hnil, follow_nil]
    · rfl

/-- Following is one segment after the other. -/
theorem follow_eq_foldlM (d : Document) (segments : List Segment) (ns : List Nat) :
    d.follow segments ns = segments.foldlM (fun ns s => d.foundFrom s ns) ns := by
  induction segments generalizing ns with
  | nil => rfl
  | cons s rest ih =>
    rw [follow_cons, List.foldlM_cons]
    exact bind_congr ih

/-- **A path may be followed in two parts.** -/
theorem follow_append (d : Document) (segments rest : List Segment) (ns : List Nat) :
    d.follow (segments ++ rest) ns = d.follow segments ns >>= d.follow rest := by
  rw [follow_eq_foldlM, List.foldlM_append, ← follow_eq_foldlM]
  exact bind_congr fun ms => (d.follow_eq_foldlM rest ms).symm

/-- **A walk fails for the first segment whose selector cannot be read, or not at all.** -/
theorem blames_follow (h : ∀ n ∈ ns, d.hasNode n = true) (segments : List Segment) :
    Blames (segments.findSome? Segment.fault?) (d.follow segments ns) := by
  induction segments generalizing ns with
  | nil => exact ⟨ns, rfl⟩
  | cons s rest ih =>
    have hfirst := blames_foundFrom h s
    rw [follow_cons, List.findSome?_cons]
    cases hfault : s.fault? with
    | none =>
      rw [hfault] at hfirst
      obtain ⟨ms, hms⟩ := hfirst
      rw [hms]
      exact ih (hasNode_of_foundFrom h hms)
    | some e =>
      rw [hfault] at hfirst
      rcases hfirst with hnil | herror
      · rw [hnil]
        exact .inl (d.follow_nil rest)
      · rw [herror]
        exact .inr rfl

/-- What a walk comes to is there. -/
theorem hasNode_of_follow (h : ∀ n ∈ ns, d.hasNode n = true) (hf : d.follow segments ns = .ok ms) :
    ∀ m ∈ ms, d.hasNode m = true := by
  induction segments generalizing ns with
  | nil =>
    obtain rfl : ns = ms := Except.ok.inj hf
    exact h
  | cons s rest ih =>
    rw [follow_cons] at hf
    obtain ⟨ks, hks, hrest⟩ := exists_of_bind_eq_ok hf
    exact ih (hasNode_of_foundFrom h hks) hrest

/-- After at least one segment, there are elements only. -/
theorem contains_of_follow (h : ∀ n ∈ ns, d.hasNode n = true) (hne : segments ≠ [])
    (hf : d.follow segments ns = .ok ms) : ∀ m ∈ ms, d.contains m = true := by
  -- the last segment finds elements, whatever comes before
  obtain ⟨front, s, rfl⟩ := (List.eq_nil_or_concat segments).resolve_left hne
  rw [List.concat_eq_append, follow_append] at hf
  obtain ⟨ks, hks, hlast⟩ := exists_of_bind_eq_ok hf
  rw [follow_cons] at hlast
  obtain ⟨ms', hms, hend⟩ := exists_of_bind_eq_ok hlast
  obtain rfl : ms' = ms := Except.ok.inj hend
  exact contains_of_foundFrom (hasNode_of_follow h hks) hms

/-! ## From several start nodes -/

theorem resolve_eq (d : Document) (segments : List Segment) (start : List Nat) :
    d.resolve segments start = collect (fun n => d.follow segments [n]) start := rfl

theorem resolve_append_start (d : Document) (segments : List Segment) (xs ys : List Nat) :
    d.resolve segments (xs ++ ys) =
      do return (← d.resolve segments xs) ++ (← d.resolve segments ys) := collect_append _ xs ys

/-- Without segments one stays where one is. -/
theorem resolve_nil (d : Document) (start : List Nat) : d.resolve [] start = .ok start := by
  induction start with
  | nil => rfl
  | cons n rest ih =>
    rw [resolve_eq, collect_cons, ← resolve_eq, ih]
    rfl

/-- **Node by node or segment by segment**: the answers are the same, and the errors. -/
theorem follow_eq_resolve (h : ∀ n ∈ ns, d.hasNode n = true) (segments : List Segment) :
    d.follow segments ns = d.resolve segments ns := by
  induction segments generalizing ns with
  | nil => exact (d.resolve_nil ns).symm
  | cons s rest ih =>
    induction ns with
    | nil => rw [follow_nil, resolve_eq, collect_nil]
    | cons n ns ihns =>
      have hn : d.hasNode n = true := h n List.mem_cons_self
      have hns : ∀ m ∈ ns, d.hasNode m = true := fun m hm => h m (List.mem_cons_of_mem n hm)
      rw [resolve_eq, collect_cons, ← resolve_eq, ← ihns hns, follow_cons, follow_cons, follow_cons,
        foundFrom_eq d s [n], collect_singleton, foundFrom_eq d s (n :: ns), collect_cons,
        ← foundFrom_eq]
      cases hms : d.found s n with
      | error e => rfl
      | ok ms =>
        cases hks : d.foundFrom s ns with
        | error e =>
          -- nothing was found from `n`, so its walk has come to its end
          obtain rfl : ms = [] := eq_nil_of_error hn hns hms hks
          change Except.error e = do return (← d.follow rest []) ++ (← Except.error e)
          rw [follow_nil]
          rfl
        | ok ks =>
          have hms' : ∀ m ∈ ms, d.hasNode m = true := fun m hm =>
            hasNode_of_contains ((found_elements hn hms).2 m hm)
          have hks' : ∀ m ∈ ks, d.hasNode m = true := hasNode_of_foundFrom hns hks
          change d.follow rest (ms ++ ks) = do return (← d.follow rest ms) ++ (← d.follow rest ks)
          rw [ih hms', ih hks', ih (List.forall_mem_append.2 ⟨hms', hks'⟩), resolve_append_start]

end Document

end TreeRules
