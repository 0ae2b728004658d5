import TreeRules.Path.Cache
import TreeRules.Path.Resolution

/-!
# Path/Resolver — resolving path texts, with or without a cache

A resolver is a cache of paths or none at all; it reads the text, follows the path and reports the
number of nodes after each segment.  A blank path leads nowhere else: the start nodes are the
answer.
-/

namespace TreeRules

/-- A cache of token paths, if there is one. -/
abbrev Resolver := Option PathCache

/-- Why a path text has no answer in a tree. -/
inductive ResolveError where
  | path (error : PathError)
  | tree (error : TreeError)
  deriving DecidableEq, Repr

def ResolveError.message : ResolveError → String
  | path e => e.message
  | tree e => "Tree error: " ++ e.message

namespace Resolver

def cached : Resolver := some (.ofCapacity PathCache.defaultCapacity)

def uncached : Resolver := none

/-- The path that a text denotes, by way of the cache. -/
def parse (path : String) : StateT Resolver Logged (Except PathError TokenPath) := fun r =>
  match r with
  | none => pure (TokenPath.parse path, none)
  | some c => do
    let (parsed, c) ← c.getOrParse path
    return (parsed, some c)

/-- One notice for each segment that was followed. -/
def walkNotices (d : Document) (p : TokenPath) (start : List Nat) : List Notice :=
  (d.walks p.segments start).flatMap fun n =>
    (d.trail p.segments [n]).map fun (s, found) =>
      ⟨.trace, .paths,
        "'" ++ p.source ++ "' after " ++ s.text ++ ": " ++ toString found.length ++ " node(s)"⟩

/-- The nodes that a path leads to, with the notices of the walk. -/
def resolveParsed (d : Document) (start : List Nat) (p : TokenPath) :
    Logged (Except TreeError (List Nat)) :=
  ⟨d.resolve p.segments start, walkNotices d p start⟩

/-- The nodes that a path text leads to from the start nodes. -/
def resolve (d : Document) (start : List Nat) (path : Option String) :
    StateT Resolver Logged (Except ResolveError (List Nat)) := do
  match path with
  | none => return .ok start
  | some path =>
    if isBlankString path then return .ok start
    match ← parse path with
    | .error e => return .error (.path e)
    | .ok p =>
      match ← resolveParsed d start p with
      | .ok ns => return .ok ns
      | .error e => return .error (.tree e)

/-- The nodes that a path text leads to from one node. -/
def resolveFrom (d : Document) (n : Nat) (path : String) :
    StateT Resolver Logged (Except ResolveError (List Nat)) :=
  resolve d [n] (some path)

end Resolver

end TreeRules
