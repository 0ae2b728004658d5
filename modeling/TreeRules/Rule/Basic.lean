import TreeRules.Options

/-!
# Rule/Basic — which nodes are checked, and how

A rule names its nodes, the event it listens for and a row of bindings, each a validator with its
options; how the bindings combine decides whether a node passes.
-/

namespace TreeRules

/-- The nodes of a rule: those a selector finds when the rule is bound, or a list of them. -/
inductive RuleTarget where
  | selector (source : String)
  | nodes (nodes : List Nat)
  deriving DecidableEq, Repr

/-- A target as it is shown. -/
def RuleTarget.text : RuleTarget → String
  | selector source => "'" ++ source ++ "'"
  | nodes ns => toString ns.length ++ " explicit node(s)"

/-- Whether every binding has to be content, or one is enough. -/
inductive Combination where
  | and
  | or
  deriving DecidableEq, Repr

namespace Combination

def name : Combination → String
  | and => "And"
  | or => "Or"

def ofOrFlag (flag : Bool) : Combination := if flag then or else and

end Combination

/-- One validator of a rule; its severity marks every record it makes. -/
structure Binding where
  severity : String
  validator : String
  options : Options
  /-- Messages by kind, before those of the validator. -/
  messages : Table String

namespace Binding

def of (severity validator : String) : Binding := ⟨severity, validator, .empty, .empty⟩

def withOption (b : Binding) (name : String) (value : Json) : Binding :=
  { b with options := b.options.insert name value }

def withMessage (b : Binding) (kind message : String) : Binding :=
  { b with messages := b.messages.insert kind message }

end Binding

structure Rule where
  target : RuleTarget
  event : String
  combination : Combination
  /-- Kept for whoever shows the messages. -/
  addMessages : Bool
  bindings : List Binding

namespace Rule

/-- The event a rule listens for if it names none. -/
def defaultEvent : String := "change"

def ofTarget (target : RuleTarget) : Rule := ⟨target, defaultEvent, .and, false, []⟩

end Rule

/-- A rule's number as it is shown. -/
def ruleText (id : Nat) : String := "rule " ++ toString id

end TreeRules
