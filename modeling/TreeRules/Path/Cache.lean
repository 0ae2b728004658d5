import TreeRules.Notice
import TreeRules.Path.Basic
import TreeRules.Table

/-!
# Path/Cache — token paths kept under their texts

A cache holds at most `capacity` paths; when it is full it is emptied before the next one comes in.
A path that cannot be read is not kept, and a cache without room keeps nothing.
-/

namespace TreeRules

/-- Paths under their texts. -/
structure PathCache where
  capacity : Nat
  entries : Table TokenPath

namespace PathCache

/-- The room a cache has if nobody says otherwise. -/
def defaultCapacity : Nat := 256

def ofCapacity (capacity : Nat) : PathCache := ⟨capacity, .empty⟩

def size (c : PathCache) : Nat := c.entries.size

def get? (c : PathCache) (path : String) : Option TokenPath := c.entries.get? path

def clear (c : PathCache) : PathCache := { c with entries := .empty }

/-- A path kept under a text, after emptying a full cache. -/
def insert (c : PathCache) (path : String) (parsed : TokenPath) : Logged PathCache := do
  if c.capacity = 0 then return c
  if c.capacity ≤ c.size then
    Logged.report .debug .pathCache
      ("Path cache full (" ++ toString c.size ++ " entries), clearing")
    return { c with entries := (Table.empty).insert path parsed }
  return { c with entries := c.entries.insert path parsed }

/-- The path kept under a text, or else read from it and then kept. -/
def getOrParse (c : PathCache) (path : String) :
    Logged (Except PathError TokenPath × PathCache) := do
  match c.get? path with
  | some parsed => return (.ok parsed, c)
  | none =>
    match TokenPath.parse path with
    | .error e => return (.error e, c)
    | .ok parsed =>
      let c ← c.insert path parsed
      return (.ok parsed, c)

end PathCache

end TreeRules
