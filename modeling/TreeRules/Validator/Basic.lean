import TreeRules.Check.Equality
import TreeRules.Check.Pattern
import TreeRules.Check.Range

/-!
# Validator/Basic — what a rule can ask of a value

A validator looks at a value, at its options and at the tree around a node, and answers with the
kinds of what is wrong.  Two of the built-in ones remember what they have read; the memories are
passed along and only save work.
-/

namespace TreeRules

/-! ## Memories -/

/-- What validators remember: the paths and the patterns they have read. -/
structure Memories where
  paths : Resolver
  patterns : Check.Pattern.Memory

/-- Nothing read yet, with or without a place to keep paths. -/
def Memories.fresh (paths : Resolver) : Memories := ⟨paths, .empty⟩

/-- A computation with the memories and with notices on the side. -/
abbrev Checking := StateT Memories Logged

/-- A computation that uses the paths alone. -/
def Checking.withPaths {α : Type} (x : StateT Resolver Logged α) : Checking α := fun m => do
  let (a, paths) ← x m.paths
  return (a, { m with paths })

/-- A computation that uses the patterns alone. -/
def Checking.withPatterns {α : Type} (x : StateT Check.Pattern.Memory Logged α) :
    Checking α := fun m => do
  let (a, patterns) ← x m.patterns
  return (a, { m with patterns })

/-! ## Validators -/

/-- A test of a value of a node; `custom` is any test without a memory. -/
inductive Validator where
  | number
  | range
  | pattern
  | mustNotBeEqual
  | mustBeEqual
  | custom (test : String → Options → Document → Nat → List String)

/-- The kinds of what is wrong with a value of a node. -/
def Validator.apply (v : Validator) (value : String) (options : Options) (d : Document)
    (n : Nat) : Checking (List String) :=
  match v with
  | number => pure (Check.Number.check value options)
  | range => pure (Check.Range.check value options)
  | pattern => Checking.withPatterns (Check.Pattern.check value options)
  | mustNotBeEqual => Checking.withPaths (Check.Equality.mustNotBeEqual d n options)
  | mustBeEqual => Checking.withPaths (Check.Equality.mustBeEqual d n options)
  | custom test => pure (test value options d n)

end TreeRules
