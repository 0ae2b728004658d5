import TreeRules.Proofs.Check.Equality

/-!
# Proofs/Check/Opposites — two checks that never agree, and the order of their targets

What the equality checks answer is settled by two things: the extent that the options ask for, and
the list of nodes that the targets lead to.  With the flipped extent the one check asks just what
the other one asks, and fails where the other passes (`Check.Equality.checks_are_opposites`).  A
comparison looks at its list without regard to order (`Check.Equality.compare_perm`), so the targets
may stand in any order, and a target that leads nowhere may as well be left out.
-/

namespace TreeRules

namespace Check.Equality

variable {d : Document} {n : Nat} {o o' : Options} {nodes nodes' : List Nat}

/-! ## Comparisons -/

/-- **A comparison does not look at the order of its nodes.** -/
theorem compare_perm (h : nodes.Perm nodes') (extent : Extent) :
    compare d nodes extent = compare d nodes' extent := by
  rw [Bool.eq_iff_iff]
  match extent with
  | .all => simp only [compare_all_iff, h.length_eq, h.mem_iff]
  | .some => rw [compare_some_iff, compare_some_iff, (h.map d.value).nodup_iff]

theorem yields_mustBeEqual (d : Document) (n : Nat) (o : Options) :
    Yields Resolver.Sound (mustBeEqual d n o)
      (if compare d (d.reach n o) (Extent.ofOptions o).value.flipped then []
        else [kindMustNotEqual]) := by
  refine (yields_lift (Extent.ofOptions o)).bind ((yields_areEqual d n o _).bind ?_)
  match compare d (d.reach n o) (Extent.ofOptions o).value.flipped with
  | true => exact yields_pure _
  | false => exact yields_pure _

/-- **The extent and the nodes that are reached settle both checks**, whatever their order is. -/
theorem checks_congr (hextent : Extent.ofOptions o' = Extent.ofOptions o)
    (hreach : (d.reach n o').Perm (d.reach n o)) {r r' : Resolver} (hr : r.Sound)
    (hr' : r'.Sound) :
    answer (mustBeEqual d n o') r' = answer (mustBeEqual d n o) r ∧
      answer (mustNotBeEqual d n o') r' = answer (mustNotBeEqual d n o) r := by
  rw [(yields_mustBeEqual d n o' r' hr').1, (yields_mustBeEqual d n o r hr).1,
    (yields_mustNotBeEqual d n o' r' hr').1, (yields_mustNotBeEqual d n o r hr).1, hextent,
    compare_perm hreach, compare_perm hreach]
  exact ⟨rfl, rfl⟩

/-! ## Options -/

/-- The options with the flipped extent in place of the one that they ask for. -/
def flip (o : Options) : Options :=
  o.insert "equalityType" (.string (Extent.ofOptions o).value.flipped.name)

theorem ofName?_name (extent : Extent) : Extent.ofName? extent.name = some extent := by
  match extent with
  | .all => decide
  | .some => decide

theorem extent_flip (o : Options) :
    (Extent.ofOptions (flip o)).value = (Extent.ofOptions o).value.flipped := by
  have hread : (Json.string (Extent.ofOptions o).value.flipped.name).string?.bind Extent.ofName? =
      some (Extent.ofOptions o).value.flipped := ofName?_name _
  rw [Extent.ofOptions, flip, Table.get?_insert, if_pos rfl]
  dsimp only
  rw [hread]
  rfl

theorem reach_flip (d : Document) (n : Nat) (o : Options) : d.reach n (flip o) = d.reach n o := by
  have htargets : (flip o).get? "targets" = o.get? "targets" := by
    rw [flip, Table.get?_insert, if_neg (by decide)]
  rw [Document.reach, Options.strings, htargets, Document.reach, Options.strings]

/-- Options that differ at most in their targets. -/
def DifferInTargets (o o' : Options) : Prop :=
  ∀ name, name ≠ "targets" → o'.get? name = o.get? name

theorem DifferInTargets.extent (h : DifferInTargets o o') :
    Extent.ofOptions o' = Extent.ofOptions o := by
  rw [Extent.ofOptions, h "equalityType" (by decide), Extent.ofOptions]

/-- The nodes reached from a list of targets; what is no string is none. -/
theorem reach_of_array {items : List Json} (h : o.get? "targets" = some (.array items)) :
    d.reach n o = (items.filterMap Json.string?).flatMap (d.ledTo n) := by
  rw [Document.reach, Options.strings, h]

theorem ledTo_eq {r : Resolver} (hr : r.Sound) (d : Document) (n : Nat) (target : String) :
    d.ledTo n target = (answer (Resolver.resolveFrom d n target) r).toOption.getD [] := by
  rw [(yields_resolveFrom d n target r hr).1, Document.ledTo]

/-! ## The checks -/

/-- **The two checks are opposites, and the order of targets is irrelevant.**  Whatever the
resolvers are that they are called with, as they are made and then used:

* of `mustBeEqual`, and `mustNotBeEqual` with the flipped extent, one reports a single error and the
  other nothing;
* both answer the same if the list of targets is rearranged;
* what is compared is what each of the targets leads to by itself, in turn, and a target that cannot
  be resolved leads nowhere;
* both answer the same if such a target is taken from the list. -/
theorem checks_are_opposites (d : Document) (n : Nat) (o : Options) (room room' : Option Nat)
    (uses uses' : List PathCache.Use) :
    let r := Resolver.made room uses
    let r' := Resolver.made room' uses'
    let AnswerAlike o' := answer (mustBeEqual d n o') r' = answer (mustBeEqual d n o) r ∧
      answer (mustNotBeEqual d n o') r' = answer (mustNotBeEqual d n o) r
    (answer (mustBeEqual d n o) r = [kindMustNotEqual] ∧
        answer (mustNotBeEqual d n (flip o)) r' = [] ∨
      answer (mustBeEqual d n o) r = [] ∧
        answer (mustNotBeEqual d n (flip o)) r' = [kindAreNotEqual]) ∧
    (∀ items items' o', items'.Perm items → o.get? "targets" = some (.array items) →
      o'.get? "targets" = some (.array items') → DifferInTargets o o' → AnswerAlike o') ∧
    (answer (targets d n o) r = (o.strings "targets").flatMap fun target =>
      (answer (Resolver.resolveFrom d n target) r').toOption.getD []) ∧
    (∀ front target back o' error,
      o.get? "targets" = some (.array (front ++ .string target :: back)) →
      o'.get? "targets" = some (.array (front ++ back)) → DifferInTargets o o' →
      answer (Resolver.resolveFrom d n target) r = .error error → AnswerAlike o') := by
  intro r r' AnswerAlike
  have hr : r.Sound := Resolver.sound_made room uses
  have hr' : r'.Sound := Resolver.sound_made room' uses'
  refine ⟨?_, fun items items' o' hperm ho ho' hsame => ?_, ?_,
    fun front target back o' error ho ho' hsame herror => ?_⟩
  · rw [(yields_mustBeEqual d n o r hr).1, (yields_mustNotBeEqual d n (flip o) r' hr').1,
      extent_flip, reach_flip]
    by_cases h : compare d (d.reach n o) (Extent.ofOptions o).value.flipped = true
    · exact .inr ⟨if_pos h, if_pos h⟩
    · exact .inl ⟨if_neg h, if_neg h⟩
  · refine checks_congr hsame.extent ?_ hr hr'
    rw [reach_of_array ho, reach_of_array ho']
    exact (hperm.filterMap Json.string?).flatMap_right (d.ledTo n)
  · rw [(yields_targets d n o r hr).1, Document.reach]
    exact List.flatMap_congr fun target _ => ledTo_eq hr' d n target
  · have hnowhere : d.ledTo n target = [] := by
      rw [ledTo_eq hr, herror]
      rfl
    have hreach : d.reach n o' = d.reach n o := by
      rw [reach_of_array ho, reach_of_array ho', List.filterMap_append, List.filterMap_append,
        List.filterMap_cons, List.flatMap_append, List.flatMap_append]
      dsimp only [Json.string?]
      rw [List.flatMap_cons, hnowhere, List.nil_append]
    exact checks_congr hsame.extent (.of_eq hreach) hr hr'

end Check.Equality

end TreeRules
