/-!
# Notice — what a computation reports on the side

A `Logged` value comes with the notices made on the way to it, in order.  Nothing that is computed
depends on a notice: the value of a sequence is the sequence of the values (`Logged.value_bind`).
-/

namespace TreeRules

/-! ## Levels -/

/-- How much a notice matters, the most severe first. -/
inductive Level where
  | warn
  | info
  | debug
  | trace
  deriving DecidableEq, Repr

namespace Level

def name : Level → String
  | warn => "warn"
  | info => "info"
  | debug => "debug"
  | trace => "trace"

def rank : Level → Nat
  | warn => 0
  | info => 1
  | debug => 2
  | trace => 3

def ofName? (s : String) : Option Level := [warn, info, debug, trace].find? fun l => l.name == s

/-- The level asked for by so many verbosity flags; warnings are always shown. -/
def ofVerbosity : Nat → Level
  | 0 => warn
  | 1 => info
  | 2 => debug
  | _ => trace

/-- Whether a notice of level `l` shows when `limit` is asked for. -/
def shows (limit l : Level) : Bool := decide (l.rank ≤ limit.rank)

end Level

/-! ## Notices -/

/-- Who reports. -/
inductive Reporter where
  | program
  | registry
  | validators
  | patterns
  | equality
  | paths
  | pathCache
  | engine
  deriving DecidableEq, Repr

/-- The name under which a reporter's notices are shown. -/
def Reporter.label : Reporter → String
  | program => "vanadium"
  | registry => "registry"
  | validators => "validators"
  | patterns => "validators::pattern"
  | equality => "validators::equality"
  | paths => "path::resolver"
  | pathCache => "path::cache"
  | engine => "engine::core"

structure Notice where
  level : Level
  reporter : Reporter
  text : String
  deriving DecidableEq, Repr

/-- A notice as a line for a reader: the level in five columns, who reports, and the text. -/
def Notice.line (n : Notice) : String :=
  let level := match n.level with
    | .warn => "WARN "
    | .info => "INFO "
    | .debug => "DEBUG"
    | .trace => "TRACE"
  level ++ " [" ++ n.reporter.label ++ "] " ++ n.text

/-! ## Values with notices -/

/-- A value and the notices made on the way to it. -/
structure Logged (α : Type) where
  value : α
  notices : List Notice

namespace Logged

instance : Monad Logged where
  pure a := ⟨a, []⟩
  bind x f := ⟨(f x.value).value, x.notices ++ (f x.value).notices⟩

/-- One notice and nothing else. -/
def report (level : Level) (reporter : Reporter) (text : String) : Logged Unit :=
  ⟨(), [⟨level, reporter, text⟩]⟩

variable {α β : Type}

@[ext] theorem ext {x y : Logged α} (h : x.value = y.value) (h' : x.notices = y.notices) :
    x = y := by
  cases x; cases y; simp_all

@[simp] theorem value_pure (a : α) : (pure a : Logged α).value = a := rfl

@[simp] theorem notices_pure (a : α) : (pure a : Logged α).notices = [] := rfl

@[simp] theorem value_bind (x : Logged α) (f : α → Logged β) :
    (x >>= f).value = (f x.value).value := rfl

@[simp] theorem notices_bind (x : Logged α) (f : α → Logged β) :
    (x >>= f).notices = x.notices ++ (f x.value).notices := rfl

instance : LawfulMonad Logged :=
  LawfulMonad.mk' Logged
    (fun x => by ext1 <;> simp [Functor.map])
    (fun a f => by ext1 <;> simp)
    (fun x f g => by ext1 <;> simp)

end Logged

end TreeRules
