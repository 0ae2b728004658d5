import TreeRules.Json.Record
import TreeRules.Proofs.Json.Reading

/-!
# Proofs/Json/Record — what is written of a thing is read as that thing

Lists and tables are read back item by item, with a level less for what is in them.  A thing comes
back (`Json.ComesBack`) if it is read from what is written of it with as many levels as that is deep,
and with fewer not at all.  Lists come back whose items do (`Json.ComesBack.list`), tables of strings
always do, and a field may be left away that then is what is written of nothing
(`Json.ComesBack.orDefault_eq_some_iff`).  What comes back is read from every text that prints it
(`Json.ComesBack.read_of_prints`).
-/

namespace TreeRules

open Json (Written)
open Json.Written (list? nullable? orDefault stringTable? valueTable?)

variable {α : Type} {levels : Nat}

/-! ## Lists and tables -/

/-- A list is read just if each of its items is. -/
theorem mapM_map_eq_some_iff {β : Type} {f : β → Option α} {g : α → β} {P : α → Prop}
    {as bs : List α} (h : ∀ a ∈ as, ∀ b, f (g a) = some b ↔ P a ∧ a = b) :
    (as.map g).mapM f = some bs ↔ (∀ a ∈ as, P a) ∧ as = bs := by
  induction as generalizing bs with
  | nil => exact Option.some_inj.trans (and_iff_right (List.forall_mem_nil P)).symm
  | cons a as ih =>
    obtain ⟨ha, has⟩ := List.forall_mem_cons.1 h
    have hmapM : ((a :: as).map g).mapM f = some bs ↔
        ∃ b, f (g a) = some b ∧ ∃ cs, (as.map g).mapM f = some cs ∧ b :: cs = bs := by
      simp [List.mapM_cons, Option.bind_eq_some_iff]
    rw [hmapM, List.forall_mem_cons]
    constructor
    · rintro ⟨b, hb, cs, hcs, rfl⟩
      obtain ⟨hP, rfl⟩ := (ha b).1 hb
      obtain ⟨hPs, rfl⟩ := (ih has).1 hcs
      exact ⟨⟨hP, hPs⟩, rfl⟩
    · rintro ⟨⟨hP, hPs⟩, rfl⟩
      exact ⟨a, (ha a).2 ⟨hP, rfl⟩, as, (ih has).2 ⟨hPs, rfl⟩, rfl⟩

theorem mapM_map_eq_some {β : Type} {f : β → Option α} {g : α → β} {as : List α}
    (h : ∀ a ∈ as, f (g a) = some a) : (as.map g).mapM f = some as := by
  refine (mapM_map_eq_some_iff (P := fun _ => True) fun a ha b => ?_).2 ⟨fun _ _ => trivial, rfl⟩
  rw [h a ha, Option.some_inj, true_and]

namespace Json

/-- A list is read from what is written of it, with one level more than its items need. -/
theorem list?_written {read : Nat → Written → Option α} {g : α → Json} {as : List α}
    (h : ∀ a ∈ as, read levels (g a).written = some a) :
    list? read (levels + 1) (Json.array (as.map g)).written = some as := by
  rw [written, writtenItems_eq_map, List.map_map]
  exact mapM_map_eq_some h

/-- A table of values is read with its entries in their order. -/
theorem valueTable?_written {t : Table Json} (h : ∀ m ∈ t.entries, m.2.Legible levels) :
    valueTable? (levels + 1) (ofTable id t).written = some t := by
  rw [ofTable, written, writtenMembers_eq_map, List.map_map, valueTable?]
  have hmembers := members?_written fun m hm => value?_written (h m hm)
  exact (congrArg (Option.map Table.ofList) hmembers).trans (congrArg some t.ofList_entries)

/-- A table of strings is never too deep for its one level. -/
theorem stringTable?_written (levels : Nat) (t : Table String) :
    stringTable? (levels + 1) (ofTable .string t).written = some t := by
  rw [ofTable, written, writtenMembers_eq_map, List.map_map, stringTable?]
  have hmembers : (t.entries.map fun m => (m.1, (Json.string m.2).written)).mapM
      (fun m : String × Written => (Written.string? m.2).map (m.1, ·)) = some t.entries :=
    mapM_map_eq_some fun _ _ => rfl
  exact (congrArg (Option.map Table.ofList) hmembers).trans (congrArg some t.ofList_entries)

/-- The names that are written for a table are its keys, so none comes twice. -/
theorem names_ofTable {g : α → Json} (t : Table α) :
    ((t.entries.map fun e => (e.1, g e.2)).map Prod.fst).Nodup := by
  rw [List.map_map]
  exact t.nodup

/-- A table can be read if its values can. -/
theorem Legible.ofTable {g : α → Json} {t : Table α}
    (h : ∀ m ∈ t.entries, (g m.2).Legible levels) : (Json.ofTable g t).Legible (levels + 1) :=
  .object (names_ofTable t) (List.forall_mem_map.2 h)

/-! ## Fields that may be left away -/

/-- A field that may be left away has no other name. -/
theorem names_memberIf (name : String) (f : α → Json) (v : Option α) :
    ((memberIf name f v).map Prod.fst).Sublist [name] := by
  cases v with
  | none => exact List.nil_sublist [name]
  | some a => exact List.Sublist.refl [name]

theorem forall_mem_memberIf {name : String} {f : α → Json} {v : Option α}
    {P : String × Json → Prop} :
    (∀ m ∈ memberIf name f v, P m) ↔ ∀ a, v = some a → P (name, f a) := by
  cases v with
  | none => exact iff_of_true (List.forall_mem_nil P) nofun
  | some a => simp [memberIf]

theorem orDefault_nullable_string (v : Option String) :
    orDefault none (nullable? Written.string?) (v.map Written.string) = some v := by
  cases v <;> rfl

/-! ## What comes back -/

/-- What is written of a thing can be read, and it is read as that thing with as many levels as it is
deep, and with fewer not at all. -/
structure ComesBack (read : Nat → Written → Option α) (write : α → Json) (a : α) : Prop where
  legible : (write a).Legible (write a).depth
  read_iff {levels : Nat} {b : α} :
    read levels (write a).written = some b ↔ (write a).depth ≤ levels ∧ a = b

namespace ComesBack

variable {read : Nat → Written → Option α} {write : α → Json} {a : α}

/-- **A list comes back** if its items do. -/
theorem list {as : List α} (h : ∀ a ∈ as, ComesBack read write a) :
    ComesBack (list? read) (fun as => .array (as.map write)) as where
  legible := legible_array (List.forall_mem_map.2 fun a ha => (h a ha).legible)
  read_iff {levels bs} := by
    cases levels with
    | zero => exact iff_of_false nofun fun hdepth => Nat.not_succ_le_zero _ hdepth.1
    | succ levels =>
      rw [written, writtenItems_eq_map, List.map_map, list?, depth_array_le_iff,
        List.forall_mem_map]
      exact mapM_map_eq_some_iff fun a ha b => (h a ha).read_iff

/-- A table of strings comes back, whatever the strings are. -/
theorem table (t : Table String) : ComesBack stringTable? (ofTable .string) t where
  legible := legible_object (names_ofTable t) (List.forall_mem_map.2 fun m _ => .string m.2)
  read_iff {levels u} := by
    cases levels with
    | zero => exact iff_of_false nofun fun hdepth => Nat.not_succ_le_zero _ hdepth.1
    | succ levels =>
      have hdepth : (ofTable .string t).depth ≤ levels + 1 :=
        depth_object_le_iff.2 (List.forall_mem_map.2 fun _ _ => Nat.zero_le levels)
      rw [stringTable?_written, Option.some_inj, and_iff_right hdepth]

/-- A field that is left away for nothing. -/
theorem orDefault_eq_some_iff {v : Option α} {default b : α}
    (h : ∀ a, v = some a → ComesBack read write a) :
    orDefault default (read levels) (v.map fun a => (write a).written) = some b ↔
      (∀ a, v = some a → (write a).depth ≤ levels) ∧ v.getD default = b := by
  cases v with
  | none => exact Option.some_inj.trans (and_iff_right nofun).symm
  | some a => simpa [orDefault] using (h a rfl).read_iff

/-- **What comes back is read from its texts**, unless it is nested too deep. -/
theorem read_of_prints (h : ComesBack read write a) {text : String} (ht : (write a).Prints text) :
    (Written.ofText? text).bind (read levels) =
      if (write a).depth ≤ levels then some a else none := by
  rw [Written.ofText?_of_prints h.legible ht, Option.bind_some]
  split
  · next hdepth => exact h.read_iff.2 ⟨hdepth, rfl⟩
  · next hdepth =>
    exact Option.eq_none_iff_forall_ne_some.2 fun b hb => hdepth (h.read_iff.1 hb).1

end ComesBack

end Json

end TreeRules
