import Mathlib.Data.List.Nodup
import TreeRules.Proofs.Path.Faults

/-!
# Proofs/Check/Equality — what is compared is a list, not a set of nodes

The targets of an equality check lead to nodes, target by target (`Document.reach`), and their
values are compared along that list.  A node that is reached twice stands in it twice and is
compared with itself.  Where no node is reached twice, the check says what different nodes have in
common; where one is, it goes wrong in one way only (`mustNotBeEqual_compares`).
-/

namespace TreeRules

variable {α β : Type}

/-! ## Lists with something twice -/

/-- Two places of a list hold different things, or the same thing stands in two. -/
theorem two_le_length_iff {l : List α} :
    2 ≤ l.length ↔ (∃ a ∈ l, ∃ b ∈ l, a ≠ b) ∨ ¬ l.Nodup := by
  match l with
  | [] => simp
  | [a] => simp
  | a :: b :: l =>
    refine iff_of_true (Nat.le_add_left _ _) ?_
    by_cases hab : a = b
    · subst hab
      exact .inr fun h => (List.nodup_cons.1 h).1 List.mem_cons_self
    · exact .inl ⟨a, List.mem_cons_self, b, List.mem_cons_of_mem a List.mem_cons_self, hab⟩

/-- The images of a list repeat if different members have one image, or a member repeats. -/
theorem not_nodup_map_iff {f : α → β} {l : List α} :
    ¬ (l.map f).Nodup ↔ (∃ a ∈ l, ∃ b ∈ l, f a = f b ∧ a ≠ b) ∨ ¬ l.Nodup := by
  by_cases h : l.Nodup
  · rw [List.nodup_map_iff_inj_on h, or_iff_left (not_not_intro h)]
    push Not
    rfl
  · exact iff_of_true (fun hmap => h hmap.of_map) (.inr h)

namespace Document

variable {d : Document} {n m : Nat} {target : String}

/-! ## Targets -/

/-- The nodes that a target leads to from a node. -/
def followed (d : Document) (n : Nat) (target : String) : Except ResolveError (List Nat) := do
  let p ← (TokenPath.parse target).mapError ResolveError.path
  (d.resolve p.segments [n]).mapError ResolveError.tree

/-- The same; a target that cannot be followed leads nowhere. -/
def ledTo (d : Document) (n : Nat) (target : String) : List Nat :=
  (d.followed n target).toOption.getD []

/-- The nodes that are compared, target by target. -/
def reach (d : Document) (n : Nat) (options : Options) : List Nat :=
  (options.strings "targets").flatMap (d.ledTo n)

end Document

namespace Check.Equality

variable {d : Document} {n : Nat} {options : Options} {nodes : List Nat}

theorem yields_resolveFrom (d : Document) (n : Nat) (target : String) :
    Yields Resolver.Sound (Resolver.resolveFrom d n target) (d.followed n target) := fun r hr =>
  ⟨Resolver.answer_resolve hr d [n] target,
    (Resolver.agree_resolve d [n] (some target) r r ⟨hr, hr⟩).2.1⟩

theorem yields_reached (d : Document) (n : Nat) (target : String) :
    Yields Resolver.Sound (reached d n target) (d.ledTo n target) := by
  refine (yields_resolveFrom d n target).bind ?_
  rw [Document.ledTo]
  cases d.followed n target with
  | error e => exact (yields_lift _).bind (yields_pure _)
  | ok ns => exact yields_pure _

theorem yields_targets (d : Document) (n : Nat) (options : Options) :
    Yields Resolver.Sound (targets d n options) (d.reach n options) := by
  have hmap : Yields Resolver.Sound
      (do return (← (options.strings "targets").mapM (reached d n)).flatten)
      (d.reach n options) :=
    (Yields.mapM fun target _ => yields_reached d n target).bind (yields_pure _)
  rw [targets]
  dsimp only
  split
  · exact (yields_lift _).bind hmap
  · exact hmap

theorem yields_areEqual (d : Document) (n : Nat) (options : Options) (extent : Extent) :
    Yields Resolver.Sound (areEqual d n options extent) (compare d (d.reach n options) extent) :=
  (yields_targets d n options).bind ((yields_lift _).bind (yields_pure _))

theorem yields_mustNotBeEqual (d : Document) (n : Nat) (options : Options) :
    Yields Resolver.Sound (mustNotBeEqual d n options)
      (if compare d (d.reach n options) (Extent.ofOptions options).value then [kindAreNotEqual]
        else []) := by
  refine (yields_lift (Extent.ofOptions options)).bind ((yields_areEqual d n options _).bind ?_)
  cases compare d (d.reach n options) (Extent.ofOptions options).value <;> exact yields_pure _

/-- A node is reached if it is among those that one of the targets leads to. -/
theorem mem_reach_iff {r : Resolver} (hr : r.Sound) {m : Nat} :
    m ∈ d.reach n options ↔ ∃ target ∈ options.strings "targets", ∃ ns,
      answer (Resolver.resolveFrom d n target) r = .ok ns ∧ m ∈ ns := by
  rw [Document.reach, List.mem_flatMap]
  refine exists_congr fun target => and_congr_right fun _ => ?_
  rw [(yields_resolveFrom d n target r hr).1, Document.ledTo]
  cases d.followed n target with
  | error e => exact iff_of_false List.not_mem_nil nofun
  | ok ns => exact ⟨fun hm => ⟨ns, rfl, hm⟩, fun ⟨_, hns, hm⟩ => Except.ok.inj hns ▸ hm⟩

/-! ## What the comparison says -/

/-- Different nodes of the list have the same value: two of them, or all, being at least two. -/
def Coincide (d : Document) (nodes : List Nat) : Extent → Prop
  | .some => ∃ m ∈ nodes, ∃ m' ∈ nodes, d.value m = d.value m' ∧ m ≠ m'
  | .all => (∃ m ∈ nodes, ∃ m' ∈ nodes, m ≠ m') ∧
    ∀ m ∈ nodes, ∀ m' ∈ nodes, d.value m = d.value m'

theorem holdsOf_all_iff {values : List String} :
    Extent.all.holdsOf values = true ↔ ∀ v ∈ values, ∀ v' ∈ values, v = v' := by
  cases values with
  | nil => exact iff_of_true rfl fun v hv => absurd hv List.not_mem_nil
  | cons first rest =>
    have hfirst : Extent.all.holdsOf (first :: rest) = true ↔ ∀ v ∈ first :: rest, first = v := by
      rw [Extent.holdsOf, List.all_eq_true]
      exact forall₂_congr fun v _ => beq_iff_eq
    rw [hfirst]
    constructor
    · exact fun h v hv v' hv' => (h v hv).symm.trans (h v' hv')
    · exact fun h v hv => h first List.mem_cons_self v hv

theorem compare_all_iff : compare d nodes .all = true ↔
    2 ≤ nodes.length ∧ ∀ m ∈ nodes, ∀ m' ∈ nodes, d.value m = d.value m' := by
  rw [compare, Bool.and_eq_true, decide_eq_true_eq, holdsOf_all_iff]
  simp only [List.forall_mem_map]

/-- A list of values with a repetition has at least two of them. -/
theorem compare_some_iff : compare d nodes .some = true ↔ ¬ (nodes.map d.value).Nodup := by
  rw [compare, Bool.and_eq_true, decide_eq_true_eq, Extent.holdsOf, decide_eq_true_eq,
    and_iff_right_iff_imp, ← List.length_map d.value]
  exact fun h => two_le_length_iff.2 (.inr h)

/-- **The values compare equal where different nodes coincide**, and where a node is listed twice —
unless all values should be the same and are not. -/
theorem compare_iff {extent : Extent} : compare d nodes extent = true ↔
    Coincide d nodes extent ∨
      ¬ nodes.Nodup ∧ (extent = .all → ∀ m ∈ nodes, ∀ m' ∈ nodes, d.value m = d.value m') := by
  cases extent with
  | all =>
    rw [compare_all_iff, two_le_length_iff, or_and_right, Coincide]
    simp only [forall_const]
  | some =>
    rw [compare_some_iff, not_nodup_map_iff, Coincide]
    simp

/-! ## The check -/

/-- **The check compares the nodes that its targets lead to, as often as they are reached.**  It
reports one thing or nothing, whatever the paths are that the resolver has read before.  If no node
is reached twice it reports just that different nodes have the same value, two of them or all; a
node that is reached twice counts as two. -/
theorem mustNotBeEqual_compares (d : Document) (n : Nat) (options : Options) (room : Option Nat)
    (uses : List PathCache.Use) :
    let r := Resolver.made room uses
    let reach := d.reach n options
    let extent := (Extent.ofOptions options).value
    let reported := answer (mustNotBeEqual d n options) r
    (∀ m, m ∈ reach ↔ ∃ target ∈ options.strings "targets", ∃ ns,
      answer (Resolver.resolveFrom d n target) r = .ok ns ∧ m ∈ ns) ∧
      (reported = [kindAreNotEqual] ∨ reported = []) ∧
      (reported = [kindAreNotEqual] ↔ Coincide d reach extent ∨
        ¬ reach.Nodup ∧ (extent = .all → ∀ m ∈ reach, ∀ m' ∈ reach, d.value m = d.value m')) := by
  intro r reach extent reported
  have hr : r.Sound := Resolver.sound_made room uses
  have hreported : reported = if compare d reach extent then [kindAreNotEqual] else [] :=
    (yields_mustNotBeEqual d n options r hr).1
  refine ⟨fun m => mem_reach_iff hr, ?_, ?_⟩
  · rw [hreported]
    split
    · exact .inl rfl
    · exact .inr rfl
  · rw [hreported, ← compare_iff]
    cases compare d reach extent <;> simp

/-- Two inputs have different values; one of them is reached twice, and reported. -/
theorem repeated_node_shows :
    let input (id value : String) := ((ElementSpec.ofTag "input").withId id).withValue value
    let form := (ElementSpec.ofTag "form").withChildren [input "a" "1", input "b" "2"]
    let d := Document.ofSpecs [form]
    let options := (Table.empty.insert "targets" (.array
      [.string "\x7b\x7bclosest@form\x7d\x7d input",
        .string "\x7b\x7bclosest@form\x7d\x7d #b"])).insert "equalityType" (.string "some")
    d.reach 2 options = [2, 3, 3] ∧ (Extent.ofOptions options).value = .some ∧
      ¬ Coincide d (d.reach 2 options) .some ∧
      answer (mustNotBeEqual d 2 options) Resolver.cached = [kindAreNotEqual] := by
  intro input form d options
  have hreach : d.reach 2 options = [2, 3, 3] := by decide +kernel
  have hdiffer : ¬ ∃ m ∈ [2, 3, 3], ∃ m' ∈ [2, 3, 3], d.value m = d.value m' ∧ m ≠ m' := by
    decide +kernel
  exact ⟨hreach, by decide, by rwa [hreach, Coincide], by decide +kernel⟩

end Check.Equality

end TreeRules
