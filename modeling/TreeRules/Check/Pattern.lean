import TreeRules.Notice
import TreeRules.Options
import TreeRules.Pattern.Matching

/-!
# Check/Pattern — values that should match a pattern

A value passes when the pattern is found in it or, if the whole value is asked for, spans it.  A
pattern that is missing or cannot be compiled is reported and lets every value pass.  Patterns that
were compiled are kept under a text made of their switches, their extent and their source.

The check is the same for every backend (`Backend.check`); `check` is the one that is run.
-/

namespace TreeRules.Check.Pattern

open TreeRules.Pattern

/-! ## Kinds of failure -/

def kindPattern : String := "pattern"

def messages : Table String :=
  Table.ofList [(kindPattern, "The value does not match the expected format.")]

/-! ## Reading a pattern -/

/-- What a pattern option set asks for. -/
structure Request where
  source : String
  /-- Letters of switches. -/
  letters : String
  /-- Whether the whole value has to match. -/
  whole : Bool
  deriving DecidableEq, Repr

namespace Request

/-- The modes that the letters `i`, `m`, `s` and `x` turn on. -/
def modes (r : Request) : Modes :=
  r.letters.toList.foldl (fun m c =>
    match c with
    | 'i' | 'm' | 's' | 'x' => ((Flag.ofLetter? c).map (m.set · true)).getD m
    | _ => m) {}

/-- The letters that name no switch; `g` and `u` are passed over in silence. -/
def unsupported (r : Request) : List Char :=
  r.letters.toList.filter fun c => c ∉ ['i', 'm', 's', 'x', 'g', 'u']

/-- The text that is read as a pattern.  For the whole value the source stands in a group between
both ends of the text; where blanks are ignored, a line end keeps a comment from swallowing the end
of the group. -/
def patternText (r : Request) : List Char :=
  if r.whole then
    "\\A(?:".toList ++ r.source.toList ++ (if r.letters.toList.contains 'x' then ['\n'] else []) ++
      ")\\z".toList
  else r.source.toList

/-- The text under which a pattern is kept. -/
def key (r : Request) : String :=
  r.letters ++ "\x00" ++ (if r.whole then "true" else "false") ++ "\x00" ++ r.source

/-- What the pattern of the request is compiled to. -/
def compiled (B : Backend) (r : Request) : Except Refusal B.Compiled :=
  B.compile r.modes r.patternText

end Request

/-- What the options ask for; without a pattern, nothing. -/
def request? (options : Options) : Option Request :=
  (options.string? "pattern").map fun source =>
    ⟨source, (options.string? "flags").getD "", options.flag "fullMatch"⟩

/-! ## Keeping patterns -/

/-- The number of patterns at which the memory is emptied before the next one is kept. -/
def capacity : Nat := 128

/-- A memory with one more pattern. -/
def keep {α : Type} (memory : Table α) (key : String) (c : α) : Table α :=
  (if capacity ≤ memory.size then .empty else memory).insert key c

end TreeRules.Check.Pattern

namespace TreeRules.Pattern.Backend

open TreeRules.Check.Pattern

variable (B : Backend)

/-- Patterns that were compiled, under their texts. -/
abbrev Memory : Type := Table B.Compiled

/-- The pattern kept for a request, or else compiled and then kept. -/
def fetch (r : Request) : StateT B.Memory Logged (Option B.Compiled) := fun memory =>
  match memory.get? r.key with
  | some c => return (some c, memory)
  | none => do
    r.unsupported.forM fun c =>
      Logged.report .warn .patterns
        ("Ignoring unsupported regex flag '" ++ toString c ++ "' for /" ++ r.source ++ "/")
    match r.compiled B with
    | .ok c => return (some c, keep memory r.key c)
    | .error _ =>
      Logged.report .warn .patterns ("Invalid pattern /" ++ r.source ++ "/")
      return (none, memory)

/-- What is wrong with a value as an instance of a pattern. -/
def verdict (c : Option B.Compiled) (value : String) : List String :=
  match c with
  | some c => if B.isFoundIn c value.toList then [] else [kindPattern]
  | none => []

/-- What is wrong with a value, by way of the memory. -/
def check (value : String) (options : Options) : StateT B.Memory Logged (List String) := do
  match request? options with
  | none =>
    Logged.report .warn .patterns "pattern validator used without a 'pattern' option"
    return []
  | some r => return B.verdict (← B.fetch r) value

end TreeRules.Pattern.Backend

namespace TreeRules.Check.Pattern

open TreeRules.Pattern

/-! ## The check that is run -/

/-- What the request matches, if its pattern can be read. -/
def Request.expr? (r : Request) : Option Expr.backend.Compiled := (r.compiled Expr.backend).toOption

/-- Patterns that were read, under their texts. -/
abbrev Memory := Expr.backend.Memory

/-- What is wrong with a value as an instance of a pattern. -/
abbrev verdict (e : Option Expr.backend.Compiled) (value : String) : List String :=
  Expr.backend.verdict e value

/-- What is wrong with a value, by way of the memory. -/
def check (value : String) (options : Options) : StateT Memory Logged (List String) :=
  Expr.backend.check value options

end TreeRules.Check.Pattern
