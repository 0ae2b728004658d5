import TreeRules.Table
import TreeRules.Number.Binary64

/-!
# Json/Basic — values, and documents as written

A `Json` is a value: its objects are finite maps in order of insertion.  A `Json.Written` is what a
text says before anyone reads it: an object may repeat a name, and a literal may be well formed and
still denote nothing — a number out of range, half a surrogate pair.  Such a literal can be skipped
but not read, nor can an object with such a name, so `Written.value?` fails on it, as it does on
what is nested too deep.
-/

namespace TreeRules

/-! ## Values -/

/-- A value.  Whole numbers from `-2 ^ 63` to `2 ^ 64 - 1` are kept exact, other numbers are
doubles. -/
inductive Json where
  | null
  | bool (b : Bool)
  | int (n : Int)
  | float (x : Binary64)
  | string (s : String)
  | array (items : List Json)
  | object (members : List (String × Json))

instance : Inhabited Json := ⟨.null⟩

namespace Json

/-- The number as a double; a whole number goes to the nearest one. -/
def number? : Json → Option Binary64
  | int n => some (.ofInt n)
  | float x => some x
  | _ => none

def string? : Json → Option String
  | string s => some s
  | _ => none

/-- The value under a name, none if this is no object. -/
def member? (key : String) : Json → Option Json
  | object ms => ms.lookup key
  | _ => none

def ofTable {α : Type} (f : α → Json) (t : Table α) : Json :=
  .object (t.entries.map fun e => (e.1, f e.2))

/-- A member that is left away if there is nothing to write. -/
def memberIf {α : Type} (name : String) (f : α → Json) (v : Option α) : List (String × Json) :=
  (v.map fun a => (name, f a)).toList

/-! ## Documents as written -/

/-- A document as its text has it: repeated names are kept, and `unreadable` is a literal that is
well formed and denotes nothing, or an object one of whose names is. -/
inductive Written where
  | null
  | bool (b : Bool)
  | int (n : Int)
  | float (x : Binary64)
  | string (s : String)
  | array (items : List Written)
  | object (members : List (String × Written))
  | unreadable

instance : Inhabited Written := ⟨.null⟩

mutual

/-- A value, written down. -/
def written : Json → Written
  | .null => .null
  | .bool b => .bool b
  | .int n => .int n
  | .float x => .float x
  | .string s => .string s
  | .array items => .array (writtenItems items)
  | .object members => .object (writtenMembers members)

def writtenItems : List Json → List Written
  | [] => []
  | v :: rest => v.written :: writtenItems rest

def writtenMembers : List (String × Json) → List (String × Written)
  | [] => []
  | (k, v) :: rest => (k, v.written) :: writtenMembers rest

end

namespace Written

/-- How deep arrays and objects may be nested. -/
def maxDepth : Nat := 127

mutual

/-- The value that is written, if all its literals can be read and it is nested at most `levels`
deep; of a repeated name the last value counts, in the first place. -/
def value? (levels : Nat) : Written → Option Json
  | .null => some .null
  | .bool b => some (.bool b)
  | .int n => some (.int n)
  | .float x => some (.float x)
  | .string s => some (.string s)
  | .array items =>
    match levels with
    | 0 => none
    | l + 1 => (values? l items).map .array
  | .object members =>
    match levels with
    | 0 => none
    | l + 1 => (members? l members).map fun ms => .object (Table.ofList ms).entries
  | .unreadable => none

def values? (levels : Nat) : List Written → Option (List Json)
  | [] => some []
  | v :: rest =>
    match value? levels v, values? levels rest with
    | some x, some xs => some (x :: xs)
    | _, _ => none

def members? (levels : Nat) : List (String × Written) → Option (List (String × Json))
  | [] => some []
  | (k, v) :: rest =>
    match value? levels v, members? levels rest with
    | some x, some xs => some ((k, x) :: xs)
    | _, _ => none

end

end Written

end Json

end TreeRules
