import TreeRules.Json.Basic

/-!
# Json/Record — records with named fields in JSON

A record is written as an object or as the array of its fields in order.  In an object the names
that the record does not know are skipped unread, and a known name may come once; in an array fields
may be missing at the end, and nothing may follow the last one.  What is entered uses up a level of
nesting.
-/

namespace TreeRules.Json.Written

/-! ## Fields -/

/-- The value of a field in an object, `none` inside if it is not given; failure if it is given
twice. -/
def field? (name : String) (members : List (String × Written)) : Option (Option Written) :=
  match members.filter fun m => m.1 == name with
  | [] => some none
  | [m] => some (some m.2)
  | _ => none

/-- The values of a record's fields in the order of their names, each with what it is if given. -/
def fields? (names : List String) : Written → Option (List (Option Written))
  | .object members => names.mapM fun name => field? name members
  | .array items =>
    if items.length ≤ names.length then
      some (items.map some ++ List.replicate (names.length - items.length) none)
    else none
  | _ => none

/-! ## Simple values -/

def string? : Written → Option String
  | .string s => some s
  | _ => none

def bool? : Written → Option Bool
  | .bool b => some b
  | _ => none

/-- A whole number that is not negative. -/
def nat? : Written → Option Nat
  | .int n => if 0 ≤ n then some n.toNat else none
  | _ => none

/-- A value that may be null. -/
def nullable? {α : Type} (read : Written → Option α) : Written → Option (Option α)
  | .null => some none
  | w => (read w).map some

/-- A field that may be missing. -/
def orDefault {α : Type} (default : α) (read : Written → Option α) : Option Written → Option α
  | none => some default
  | some w => read w

/-- A field that must be there. -/
def required {α : Type} (read : Written → Option α) : Option Written → Option α
  | none => none
  | some w => read w

/-! ## Collections -/

/-- A list whose items are read one level further in. -/
def list? {α : Type} (read : Nat → Written → Option α) : Nat → Written → Option (List α)
  | l + 1, .array items => items.mapM (read l)
  | _, _ => none

/-- A table of strings; of a repeated name the last value counts, in the first place. -/
def stringTable? (levels : Nat) : Written → Option (Table String)
  | .object members =>
    match levels with
    | 0 => none
    | _ + 1 =>
      (members.mapM fun m => (string? m.2).map (m.1, ·)).map Table.ofList
  | _ => none

/-- A table of any values. -/
def valueTable? (levels : Nat) (w : Written) : Option (Table Json) :=
  match levels, w with
  | l + 1, .object members => (members? l members).map Table.ofList
  | _, _ => none

end TreeRules.Json.Written
