import Mathlib.Algebra.Group.Int.Defs
import TreeRules.Json.Printer
import TreeRules.Json.Reader

/-!
# Proofs/Json/Legible — values that can be read again

A value comes back from its text if its whole numbers are in range, its doubles come back from
theirs, no object repeats a name, and it is not nested too deep (`Legible`).  Which doubles come back
is left to the reader of numbers, which can be a unit off.  If the parts of a value take as many
levels as they are deep (`depth`), so does the value (`legible_array`, `legible_object`).  Here a
document that has been read is taken as the value it denotes (`value?_written`).
-/

namespace TreeRules.Json

variable {levels : Nat} {v : Json} {items : List Json} {members : List (String × Json)}

/-! ## The values -/

/-- What a double is written as is read as that double. -/
def ReadsBack (x : Binary64) : Prop :=
  ∃ t, readNumber? (floatText x).toList = some (t, []) ∧ t.value? = some (.float x)

/-- The value is nested at most `levels` deep, and each number in it is one that reads back. -/
inductive Legible : Nat → Json → Prop where
  | null {levels : Nat} : Legible levels .null
  | bool {levels : Nat} (b : Bool) : Legible levels (.bool b)
  | int {levels : Nat} {n : Int} (low : -2 ^ 63 ≤ n) (high : n < 2 ^ 64) : Legible levels (.int n)
  | float {levels : Nat} {x : Binary64} (back : ReadsBack x) : Legible levels (.float x)
  | string {levels : Nat} (s : String) : Legible levels (.string s)
  | array {levels : Nat} {items : List Json} (inner : ∀ v ∈ items, Legible levels v) :
    Legible (levels + 1) (.array items)
  | object {levels : Nat} {members : List (String × Json)}
    (distinct : (members.map Prod.fst).Nodup) (inner : ∀ m ∈ members, Legible levels m.2) :
    Legible (levels + 1) (.object members)

/-- With more levels, more can be read. -/
theorem Legible.mono {n : Nat} (h : v.Legible levels) (hle : levels ≤ n) : v.Legible n := by
  induction h generalizing n with
  | null => exact .null
  | bool b => exact .bool b
  | int low high => exact .int low high
  | float back => exact .float back
  | string s => exact .string s
  | array _ ih =>
    obtain ⟨k, rfl⟩ := Nat.exists_eq_add_of_le' (Nat.one_le_of_lt hle)
    exact .array fun v hv => ih v hv (Nat.le_of_succ_le_succ hle)
  | object distinct _ ih =>
    obtain ⟨k, rfl⟩ := Nat.exists_eq_add_of_le' (Nat.one_le_of_lt hle)
    exact .object distinct fun m hm => ih m hm (Nat.le_of_succ_le_succ hle)

/-! ## How deep a value is -/

mutual

/-- How deep arrays and objects are nested, an empty one being one deep. -/
def depth : Json → Nat
  | .array items => depthOfItems items + 1
  | .object members => depthOfMembers members + 1
  | _ => 0

def depthOfItems : List Json → Nat
  | [] => 0
  | v :: rest => max v.depth (depthOfItems rest)

def depthOfMembers : List (String × Json) → Nat
  | [] => 0
  | (_, v) :: rest => max v.depth (depthOfMembers rest)

end

/-- The items are as deep as the deepest of them. -/
theorem depthOfItems_le_iff {n : Nat} : depthOfItems items ≤ n ↔ ∀ v ∈ items, v.depth ≤ n := by
  induction items with
  | nil => exact iff_of_true (Nat.zero_le n) (List.forall_mem_nil _)
  | cons v rest ih => rw [depthOfItems, Nat.max_le, ih, List.forall_mem_cons]

theorem depthOfMembers_le_iff {n : Nat} :
    depthOfMembers members ≤ n ↔ ∀ m ∈ members, m.2.depth ≤ n := by
  induction members with
  | nil => exact iff_of_true (Nat.zero_le n) (List.forall_mem_nil _)
  | cons m rest ih => rw [depthOfMembers, Nat.max_le, ih, List.forall_mem_cons]

/-- What is in an array is a level further in. -/
theorem depth_array_le_iff :
    (Json.array items).depth ≤ levels + 1 ↔ ∀ v ∈ items, v.depth ≤ levels := by
  rw [depth, Nat.add_le_add_iff_right, depthOfItems_le_iff]

theorem depth_object_le_iff :
    (Json.object members).depth ≤ levels + 1 ↔ ∀ m ∈ members, m.2.depth ≤ levels := by
  rw [depth, Nat.add_le_add_iff_right, depthOfMembers_le_iff]

/-- As many levels as an array is deep are enough for it if that is so of its items. -/
theorem legible_array (h : ∀ v ∈ items, v.Legible v.depth) :
    (Json.array items).Legible (Json.array items).depth :=
  .array fun v hv => (h v hv).mono (depthOfItems_le_iff.1 (Nat.le_refl _) v hv)

/-- An object is read with the levels that it is deep if its members are. -/
theorem legible_object (distinct : (members.map Prod.fst).Nodup)
    (h : ∀ m ∈ members, m.2.Legible m.2.depth) :
    (Json.object members).Legible (Json.object members).depth :=
  .object distinct fun m hm => (h m hm).mono (depthOfMembers_le_iff.1 (Nat.le_refl _) m hm)

/-! ## Documents -/

@[simp] theorem writtenItems_eq_map (items : List Json) :
    writtenItems items = items.map written := by
  induction items with
  | nil => rfl
  | cons v rest ih => rw [writtenItems, ih, List.map_cons]

@[simp] theorem writtenMembers_eq_map (members : List (String × Json)) :
    writtenMembers members = members.map fun m => (m.1, m.2.written) := by
  induction members with
  | nil => rfl
  | cons m rest ih => rw [writtenMembers, ih, List.map_cons]

/-- Items that are read one by one are read as a list. -/
theorem values?_written (h : ∀ v ∈ items, v.written.value? levels = some v) :
    Written.values? levels (items.map written) = some items := by
  induction items with
  | nil => rfl
  | cons v rest ih =>
    obtain ⟨hv, hrest⟩ := List.forall_mem_cons.1 h
    rw [List.map_cons, Written.values?, hv, ih hrest]

theorem members?_written (h : ∀ m ∈ members, m.2.written.value? levels = some m.2) :
    Written.members? levels (members.map fun m => (m.1, m.2.written)) = some members := by
  induction members with
  | nil => rfl
  | cons m rest ih =>
    obtain ⟨hm, hrest⟩ := List.forall_mem_cons.1 h
    rw [List.map_cons, Written.members?, hm, ih hrest]

/-- **What is written denotes the value.** -/
theorem value?_written (h : v.Legible levels) : v.written.value? levels = some v := by
  induction h with
  | null => rfl
  | bool b => rfl
  | int => rfl
  | float => rfl
  | string s => rfl
  | array _ ih =>
    rw [written, writtenItems_eq_map, Written.value?, values?_written ih]
    rfl
  | object distinct _ ih =>
    rw [written, writtenMembers_eq_map, Written.value?, members?_written ih, Option.map_some,
      Table.entries_ofList distinct]

end TreeRules.Json
