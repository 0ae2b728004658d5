import TreeRules.Check.Equality
import TreeRules.Proofs.Simulation

/-!
# Proofs/Path/Cache — what is kept of a path is what is read from its text

A cache is `Sound` if each of its entries is what `TokenPath.parse` reads from the text it is kept
under, and if it has room for all of them.  Reading and clearing keep it sound, so a path is the
same whether it comes out of a cache or not, and two resolvers that are sound answer alike —
however different the texts are that they have seen (`Resolver.agree_resolve`).  The equality
checks look at a resolver in no other way.
-/

namespace TreeRules

theorem Table.size_eq_length_keys {α : Type} (t : Table α) : t.size = t.keys.length :=
  (List.length_map Prod.fst).symm

theorem Table.size_insert_le {α : Type} (t : Table α) (key : String) (value : α) :
    (t.insert key value).size ≤ t.size + 1 := by
  rw [size_eq_length_keys, size_eq_length_keys, keys_insert]
  split
  · exact Nat.le_succ _
  · exact Nat.le_of_eq List.length_append

/-! ## Caches -/

namespace PathCache

/-- Every entry is what its text denotes, and there are no more entries than there is room for. -/
structure Sound (c : PathCache) : Prop where
  parse_eq : ∀ path parsed, c.get? path = some parsed → TokenPath.parse path = .ok parsed
  size_le : c.size ≤ c.capacity

/-- There is nothing in a cache at the beginning. -/
theorem sound_ofCapacity (capacity : Nat) : (ofCapacity capacity).Sound where
  parse_eq _ _ h := absurd h (Option.some_ne_none _).symm
  size_le := Nat.zero_le _

theorem Sound.clear {c : PathCache} (_ : c.Sound) : c.clear.Sound := sound_ofCapacity c.capacity

/-- A path that cannot be read is not in the cache. -/
theorem Sound.get?_eq_none {c : PathCache} (h : c.Sound) {path : String} {e : PathError}
    (he : TokenPath.parse path = .error e) : c.get? path = none := by
  cases hg : c.get? path with
  | none => rfl
  | some parsed => exact nomatch he.symm.trans (h.parse_eq path parsed hg)

/-- A path kept under its own text — in a cache that was emptied if it was full. -/
theorem Sound.insert {c : PathCache} (h : c.Sound) {path : String} {parsed : TokenPath}
    (hp : TokenPath.parse path = .ok parsed) : (c.insert path parsed).value.Sound := by
  have hparse : ∀ (t : Table TokenPath), (∀ q r, t.get? q = some r → TokenPath.parse q = .ok r) →
      ∀ q r, (t.insert path parsed).get? q = some r → TokenPath.parse q = .ok r := by
    intro t ht q r hq
    rw [Table.get?_insert] at hq
    split at hq
    · next hqp => rw [hqp, hp, Option.some.inj hq]
    · exact ht q r hq
  rw [PathCache.insert]
  split
  · exact h
  · next hroom =>
    split
    · refine ⟨hparse .empty fun q r hq => absurd hq (Option.some_ne_none r).symm, ?_⟩
      exact Nat.le_trans (Table.size_insert_le _ _ _) (Nat.pos_of_ne_zero hroom)
    · next hfull =>
      refine ⟨hparse c.entries h.parse_eq, ?_⟩
      exact Nat.le_trans (Table.size_insert_le _ _ _) (Nat.lt_of_not_le hfull)

/-- **A sound cache reads what is written**, and stays sound. -/
theorem Sound.getOrParse {c : PathCache} (h : c.Sound) (path : String) :
    (c.getOrParse path).value.1 = TokenPath.parse path ∧ (c.getOrParse path).value.2.Sound := by
  rw [PathCache.getOrParse]
  cases hg : c.get? path with
  | some parsed => exact ⟨(h.parse_eq path parsed hg).symm, h⟩
  | none =>
    cases hp : TokenPath.parse path with
    | error e => exact ⟨rfl, h⟩
    | ok parsed => exact ⟨rfl, h.insert hp⟩

/-- No use of a cache changes how much it holds. -/
@[simp] theorem capacity_insert (c : PathCache) (path : String) (parsed : TokenPath) :
    (c.insert path parsed).value.capacity = c.capacity := by
  rw [PathCache.insert]
  split
  · rfl
  · split <;> rfl

@[simp] theorem capacity_getOrParse (c : PathCache) (path : String) :
    (c.getOrParse path).value.2.capacity = c.capacity := by
  rw [PathCache.getOrParse]
  cases c.get? path with
  | some parsed => rfl
  | none =>
    cases TokenPath.parse path with
    | error e => rfl
    | ok parsed => exact capacity_insert c path parsed

/-- What a caller can do with a cache. -/
inductive Use where
  | read (path : String)
  | clear

/-- The cache after one use. -/
def use (c : PathCache) : Use → PathCache
  | .read path => (c.getOrParse path).value.2
  | .clear => c.clear

/-- The cache after some use. -/
def used (c : PathCache) (uses : List Use) : PathCache := uses.foldl use c

/-- **A use keeps a cache sound**, whatever it reads. -/
theorem Sound.use {c : PathCache} (h : c.Sound) : ∀ u : Use, (c.use u).Sound
  | .read path => (h.getOrParse path).2
  | .clear => h.clear

/-- So do any number of them. -/
theorem Sound.used {c : PathCache} (h : c.Sound) (uses : List Use) : (c.used uses).Sound := by
  induction uses generalizing c with
  | nil => exact h
  | cons u rest ih => exact ih (h.use u)

theorem capacity_used (c : PathCache) (uses : List Use) :
    (c.used uses).capacity = c.capacity := by
  induction uses generalizing c with
  | nil => rfl
  | cons u rest ih =>
    refine (ih (c.use u)).trans ?_
    cases u with
    | read path => exact capacity_getOrParse c path
    | clear => rfl

end PathCache

/-! ## Resolvers -/

namespace Resolver

/-- If there is a cache, it is sound. -/
def Sound (r : Resolver) : Prop := ∀ c ∈ r, c.Sound

theorem sound_uncached : uncached.Sound := fun _ h => nomatch h

theorem sound_some {c : PathCache} : Sound (some c) ↔ c.Sound :=
  ⟨fun h => h c rfl, fun h _ hc => Option.some.inj hc ▸ h⟩

/-- A sound resolver parses as the parser does, cached or not. -/
theorem Sound.parse {r : Resolver} (h : r.Sound) (path : String) :
    answer (Resolver.parse path) r = TokenPath.parse path ∧
      (after (Resolver.parse path) r).Sound := by
  cases r with
  | none => exact ⟨rfl, sound_uncached⟩
  | some c =>
    obtain ⟨hp, hs⟩ := (sound_some.1 h).getOrParse path
    exact ⟨hp, sound_some.2 hs⟩

/-- Two sound resolvers parse alike. -/
theorem agree_parse (path : String) :
    Agree (Both Sound) (Resolver.parse path) (Resolver.parse path) := fun _ _ ⟨h, h'⟩ =>
  ⟨(h.parse path).1.trans (h'.parse path).1.symm, (h.parse path).2, (h'.parse path).2⟩

/-- **Sound resolvers answer alike**, with a cache or without one. -/
theorem agree_resolve (d : Document) (start : List Nat) (path : Option String) :
    Agree (Both Sound) (resolve d start path) (resolve d start path) := by
  cases path with
  | none => exact agree_pure _
  | some path =>
    rw [resolve]
    split
    · exact agree_pure _
    · refine (agree_parse path).bind fun parsed => ?_
      cases parsed with
      | error e => exact agree_pure _
      | ok p =>
        refine (agree_lift rfl).bind fun found => ?_
        cases found <;> exact agree_pure _

end Resolver

/-! ## Equality checks -/

namespace Check.Equality

theorem agree_reached (d : Document) (n : Nat) (target : String) :
    Agree (Both Resolver.Sound) (reached d n target) (reached d n target) := by
  refine (Resolver.agree_resolve d [n] (some target)).bind fun found => ?_
  cases found with
  | ok nodes => exact agree_pure _
  | error e => exact (agree_lift rfl).bind fun _ => agree_pure _

/-- The targets of an equality check are found alike. -/
theorem agree_targets (d : Document) (n : Nat) (options : Options) :
    Agree (Both Resolver.Sound) (targets d n options) (targets d n options) := by
  have hmap : Agree (Both Resolver.Sound)
      (do return (← (options.strings "targets").mapM (reached d n)).flatten)
      (do return (← (options.strings "targets").mapM (reached d n)).flatten) :=
    (Agree.mapM fun target _ => agree_reached d n target).bind fun _ => agree_pure _
  rw [targets]
  dsimp only
  split
  · exact (agree_lift rfl).bind fun _ => hmap
  · exact hmap

/-- And compared alike, as only their values are compared. -/
theorem agree_areEqual (d : Document) (n : Nat) (options : Options) (extent : Extent) :
    Agree (Both Resolver.Sound) (areEqual d n options extent) (areEqual d n options extent) :=
  (agree_targets d n options).bind fun _ => (agree_lift rfl).bind fun _ => agree_pure _

theorem agree_mustNotBeEqual (d : Document) (n : Nat) (options : Options) :
    Agree (Both Resolver.Sound) (mustNotBeEqual d n options) (mustNotBeEqual d n options) := by
  refine (agree_lift rfl).bind fun extent => ?_
  refine (agree_areEqual d n options extent).bind fun equal => ?_
  cases equal <;> exact agree_pure _

theorem agree_mustBeEqual (d : Document) (n : Nat) (options : Options) :
    Agree (Both Resolver.Sound) (mustBeEqual d n options) (mustBeEqual d n options) := by
  refine (agree_lift rfl).bind fun extent => ?_
  refine (agree_areEqual d n options extent.flipped).bind fun equal => ?_
  cases equal <;> exact agree_pure _

end Check.Equality

end TreeRules
