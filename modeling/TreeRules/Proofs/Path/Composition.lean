import TreeRules.Proofs.Path.Walking

/-!
# Proofs/Path/Composition — a path is the composition of its steps

Resolving one path after another is resolving the two in one, errors included, and start nodes can
be taken together or apart (`resolve_composes`).  What is listed at the end are the ends of
`Chain`s of single steps: the chains from a start node come in the place of that node, and each
chain is listed once, so a node stands as often in the answer as there are chains that lead to it.
-/

namespace TreeRules

namespace Document

variable {d : Document} {s : Segment} {segments rest : List Segment} {n m : Nat}
  {ns ms c tail : List Nat}

/-! ## Chains -/

/-- A start node, and then for each segment one of the nodes that it finds from the node before. -/
inductive Chain (d : Document) : List Segment → List Nat → Prop where
  | stay (n : Nat) : Chain d [] [n]
  | step {s : Segment} {rest : List Segment} {n m : Nat} {ms tail : List Nat}
      (found : d.found s n = .ok ms) (mem : m ∈ ms) (next : Chain d rest (m :: tail)) :
      Chain d (s :: rest) (n :: m :: tail)

/-- The chains from a node, by the nodes that the first segment finds. -/
def chains (d : Document) : List Segment → Nat → List (List Nat)
  | [], n => [[n]]
  | s :: rest, n =>
    ((d.found s n).toOption.getD []).flatMap fun m => (d.chains rest m).map (n :: ·)

theorem chains_cons (hf : d.found s n = .ok ms) :
    d.chains (s :: rest) n = ms.flatMap fun m => (d.chains rest m).map (n :: ·) := by
  rw [chains, hf]
  rfl

theorem mem_chains_iff : c ∈ d.chains segments n ↔ d.Chain segments c ∧ c.head? = some n := by
  constructor
  · intro h
    induction segments generalizing n c with
    | nil =>
      obtain rfl : c = [n] := List.mem_singleton.1 h
      exact ⟨.stay n, rfl⟩
    | cons s rest ih =>
      cases hf : d.found s n with
      | error e =>
        rw [chains, hf] at h
        exact absurd h List.not_mem_nil
      | ok ms =>
        rw [chains_cons hf] at h
        obtain ⟨m, hm, hc⟩ := List.mem_flatMap.1 h
        obtain ⟨c', hc', rfl⟩ := List.mem_map.1 hc
        obtain ⟨hchain, hhead⟩ := ih hc'
        obtain ⟨tail, rfl⟩ := List.head?_eq_some_iff.1 hhead
        exact ⟨.step hf hm hchain, rfl⟩
  · rintro ⟨hchain, hhead⟩
    induction hchain generalizing n with
    | stay k =>
      obtain rfl : k = n := Option.some.inj hhead
      exact List.mem_singleton_self _
    | step hf hm _ ih =>
      obtain rfl := Option.some.inj hhead
      rw [chains_cons hf]
      exact List.mem_flatMap.2 ⟨_, hm, List.mem_map_of_mem (ih rfl)⟩

theorem nodup_chains (h : d.hasNode n = true) (segments : List Segment) :
    (d.chains segments n).Nodup := by
  induction segments generalizing n with
  | nil => exact List.nodup_singleton _
  | cons s rest ih =>
    cases hf : d.found s n with
    | error e =>
      rw [chains, hf]
      exact List.nodup_nil
    | ok ms =>
      obtain ⟨hnodup, hmem⟩ := found_elements h hf
      rw [chains_cons hf]
      refine List.nodup_flatMap.2 ⟨fun m hm => ?_, hnodup.imp fun hne c hc hc' => hne ?_⟩
      · exact (ih (hasNode_of_contains (hmem m hm))).map List.cons_injective
      · -- the second node of a chain tells by which node it goes
        obtain ⟨k, hk, rfl⟩ := List.mem_map.1 hc
        obtain ⟨k', hk', heq⟩ := List.mem_map.1 hc'
        obtain rfl : k' = k := List.cons_injective heq
        exact Option.some.inj ((mem_chains_iff.1 hk).2.symm.trans (mem_chains_iff.1 hk').2)

/-- A walk from one node lists the ends of the chains from there. -/
theorem getLast?_chains (h : d.hasNode n = true) (hf : d.follow segments [n] = .ok ns) :
    (d.chains segments n).map List.getLast? = ns.map some := by
  induction segments generalizing n ns with
  | nil =>
    obtain rfl : [n] = ns := Except.ok.inj hf
    rfl
  | cons s rest ih =>
    rw [follow_cons, foundFrom_eq, collect_singleton] at hf
    obtain ⟨ms, hfound, hfollow⟩ := exists_of_bind_eq_ok hf
    have hms : ∀ m ∈ ms, d.hasNode m = true := fun m hm =>
      hasNode_of_contains ((found_elements h hfound).2 m hm)
    have hrest : d.resolve rest ms = .ok ns := (follow_eq_resolve hms rest).symm.trans hfollow
    rw [chains_cons hfound, List.map_flatMap,
      ← flatMap_of_collect hrest fun m hm ks hks => ih (hms m hm) hks]
    refine List.flatMap_congr fun m _ => ?_
    rw [List.map_map]
    refine List.map_congr_left fun c hc => ?_
    obtain ⟨tail, rfl⟩ := List.head?_eq_some_iff.1 (mem_chains_iff.1 hc).2
    exact List.getLast?_cons_cons

/-! ## Chains from several start nodes -/

/-- The chains from the start nodes, each with the position of its start node. -/
def routes (d : Document) (segments : List Segment) (start : List Nat) : List (Nat × List Nat) :=
  start.zipIdx.flatMap fun x => (d.chains segments x.1).map (x.2, ·)

variable {start : List Nat}

theorem mem_routes_iff {i : Nat} :
    (i, c) ∈ d.routes segments start ↔ d.Chain segments c ∧ c.head? = start[i]? := by
  simp only [routes, List.mem_flatMap, List.mem_map, Prod.mk.injEq, List.mem_zipIdx_iff_getElem?]
  constructor
  · rintro ⟨⟨n, j⟩, hn, c', hc, rfl, rfl⟩
    obtain ⟨hchain, hhead⟩ := mem_chains_iff.1 hc
    exact ⟨hchain, hhead.trans hn.symm⟩
  · rintro ⟨hchain, hhead⟩
    cases hn : start[i]? with
    | none =>
      rw [hn, List.head?_eq_none_iff] at hhead
      subst hhead
      exact nomatch hchain
    | some n => exact ⟨(n, i), hn, c, mem_chains_iff.2 ⟨hchain, hhead.trans hn⟩, rfl, rfl⟩

theorem pairwise_zipIdx (start : List Nat) : start.zipIdx.Pairwise (fun x y => x.2 < y.2) := by
  rw [← List.pairwise_map, List.zipIdx_map_snd]
  exact List.pairwise_lt_range' 1

theorem nodup_routes (h : ∀ n ∈ start, d.hasNode n = true) (segments : List Segment) :
    (d.routes segments start).Nodup := by
  refine List.nodup_flatMap.2 ⟨fun x hx => ?_, (pairwise_zipIdx start).imp fun hlt r hr hr' => ?_⟩
  · have hmem : x.1 ∈ start := List.mem_of_getElem? (List.mem_zipIdx_iff_getElem?.1 hx)
    exact (nodup_chains (h x.1 hmem) segments).map (Prod.mk_right_injective x.2)
  · obtain ⟨c, -, rfl⟩ := List.mem_map.1 hr
    obtain ⟨c', -, heq⟩ := List.mem_map.1 hr'
    exact absurd (congrArg Prod.fst heq) (Nat.ne_of_gt hlt)

/-- Earlier start nodes come first. -/
theorem pairwise_routes (d : Document) (segments : List Segment) (start : List Nat) :
    ((d.routes segments start).map Prod.fst).Pairwise (· ≤ ·) := by
  rw [List.pairwise_map, routes, List.pairwise_flatMap]
  refine ⟨fun x _ => ?_, (pairwise_zipIdx start).imp fun hlt r hr r' hr' => ?_⟩
  · exact List.pairwise_map.2 (List.pairwise_of_forall fun _ _ => Nat.le_refl x.2)
  · obtain ⟨c, -, rfl⟩ := List.mem_map.1 hr
    obtain ⟨c', -, rfl⟩ := List.mem_map.1 hr'
    exact Nat.le_of_lt hlt

/-- The answer lists the ends of the chains from the start nodes. -/
theorem getLast?_routes (h : ∀ n ∈ start, d.hasNode n = true)
    (hr : d.resolve segments start = .ok ns) :
    (d.routes segments start).map (·.2.getLast?) = ns.map some := by
  rw [← flatMap_of_collect hr fun n hn ks hks => getLast?_chains (h n hn) hks, routes,
    List.map_flatMap]
  conv_rhs => rw [← List.zipIdx_map_fst 0 start, List.flatMap_map]
  refine List.flatMap_congr fun x _ => ?_
  rw [List.map_map]
  rfl

/-! ## Composition -/

/-- What it means that a path is composed of its steps, here of two parts `p` and `q`. -/
structure Composes (d : Document) (start : List Nat) (p q : List Segment) : Prop where
  /-- The second part is resolved from what the first comes to; order, multiplicity and errors are
  the same. -/
  append : d.resolve (p ++ q) start = do d.resolve q (← d.resolve p start)
  /-- Start nodes can be resolved apart, and the first error counts. -/
  apart : ∀ xs ys, start = xs ++ ys →
    d.resolve p start = do return (← d.resolve p xs) ++ (← d.resolve p ys)
  /-- To stop at a list that has become empty makes no difference. -/
  unstopped : d.resolve p start =
    (start.mapM fun n => p.foldlM (fun ns s => d.foundFrom s ns) [n]).map List.flatten
  /-- The answer lists the end of every chain of single steps once, those from earlier start nodes
  first. -/
  chains : ∀ ns, d.resolve p start = .ok ns → ∃ routes : List (Nat × List Nat), routes.Nodup ∧
    (∀ i c, (i, c) ∈ routes ↔ d.Chain p c ∧ c.head? = start[i]?) ∧
    (routes.map Prod.fst).Pairwise (· ≤ ·) ∧ routes.map (fun r => r.2.getLast?) = ns.map some

/-- **A path is the composition of its steps.** -/
theorem resolve_composes (h : ∀ n ∈ start, d.hasNode n = true) (p q : List Segment) :
    d.Composes start p q where
  append := by
    rw [← follow_eq_resolve h, ← follow_eq_resolve h, follow_append]
    cases hp : d.follow p start with
    | error e => rfl
    | ok ns => exact follow_eq_resolve (hasNode_of_follow h hp) q
  apart := by
    rintro xs ys rfl
    exact d.resolve_append_start p xs ys
  unstopped := congrArg (fun walk => (start.mapM walk).map List.flatten)
    (funext fun n => d.follow_eq_foldlM p [n])
  chains ns hns := ⟨d.routes p start, nodup_routes h p, fun _ _ => mem_routes_iff,
    d.pairwise_routes p start, getLast?_routes h hns⟩

/-- Two inputs, one of them found from the root and again from the box around it, and their
parents. -/
theorem resolve_composes_of_inputs :
    let input := ElementSpec.ofTag "input"
    let box := (ElementSpec.ofTag "p").withChildren [input]
    let d := ofSpecs [(ElementSpec.ofTag "form").withChildren [input, box]]
    let p := [Segment.descendant "input"]
    let q := [Segment.relation .parent none]
    (∀ n ∈ [root, 3], d.hasNode n = true) ∧ d.Composes [root, 3] p q ∧
      (d.resolve p [root, 3]).toOption = some [2, 4, 4] ∧
      (d.resolve (p ++ q) [root, 3]).toOption = some [1, 3, 3] := by
  intro input box d p q
  have h : ∀ n ∈ [root, 3], d.hasNode n = true := by decide +kernel
  exact ⟨h, resolve_composes h p q, by decide +kernel, by decide +kernel⟩

end Document

end TreeRules
