import TreeRules.Document.Query
import TreeRules.Engine.Config
import TreeRules.Rule.Outcome
import TreeRules.Rule.Store
import TreeRules.Validator.Registry

/-!
# Engine/Basic — binding rules to nodes and running them

An engine holds its settings, the validators, the rules with the nodes bound to them, and what the
validators remember.  Running a rule changes nothing but the memories; binding one changes the
store alone.
-/

namespace TreeRules

structure Engine where
  config : EngineConfig
  registry : Registry
  store : RuleStore
  memories : Memories

/-- Why the engine has no answer. -/
inductive EngineError where
  | noRule (element : String)
  | unknownRule (id : Nat)
  | unknownNode (node : Nat)
  | tree (error : TreeError)
  deriving DecidableEq, Repr

def EngineError.message : EngineError → String
  | noRule element => "No rule bound to node " ++ element
  | unknownRule id => "Unknown rule id " ++ ruleText id
  | unknownNode node => "Node " ++ nodeText node ++ " is not part of the tree"
  | tree e => "Tree error: " ++ e.message

namespace Engine

/-- The place for paths that the settings ask for. -/
def resolverOf (config : EngineConfig) : Resolver :=
  if config.cachePaths then some (.ofCapacity config.pathCacheSize) else none

/-- An engine with the built-in validators and without rules. -/
def ofConfig (config : EngineConfig) : Logged Engine := do
  return ⟨config, ← Registry.withBuiltins, .empty, .fresh (resolverOf config)⟩

/-- Registers a validator; whether its name was free. -/
def register (name : String) (entry : Registration) : StateT Engine Logged Bool := fun e => do
  let (done, registry) ← Registry.tryRegister name entry e.registry
  return (done, { e with registry })

/-! ## Running a rule -/

/-- The message for a kind of failure: the binding's, else the validator's, else the fallback. -/
def messageFor (config : EngineConfig) (binding : Binding) (entry : Registration)
    (kind : String) : String :=
  ((binding.messages.get? kind).or (entry.messages.get? kind)).getD config.fallbackMessage

/-- What one binding leaves behind, being the `index`-th of its rule. -/
def runBinding (config : EngineConfig) (registry : Registry) (d : Document) (n : Nat)
    (index : Nat) (binding : Binding) : Checking Outcome := do
  match registry.get? binding.validator with
  | none =>
    Logged.report .warn .engine (binding.validator ++ " is not a valid validator function")
    return ⟨[], [.unknownValidator index binding.validator], []⟩
  | some entry =>
    let kinds ← entry.validator.apply (d.value n) binding.options d n
    Logged.report .trace .engine
      (d.describe n ++ " binding " ++ toString index ++ " (" ++ binding.validator ++ "): " ++
        toString kinds.length ++ " sub-error(s)")
    let records := kinds.map fun kind =>
      { severity := binding.severity
        message := messageFor config binding entry kind
        node := n
        element := d.describe n
        validator := binding.validator
        kind
        binding := index : Record }
    return ⟨records, [], [index]⟩

/-- What bindings leave behind, the first being the `index`-th of its rule. -/
def runBindings (config : EngineConfig) (registry : Registry) (d : Document) (n : Nat) :
    Nat → List Binding → Checking Outcome
  | _, [] => return .empty
  | index, b :: rest => do
    let first ← runBinding config registry d n index b
    let others ← runBindings config registry d n (index + 1) rest
    return first ++ others

/-- What a rule leaves behind on a node. -/
def execute (d : Document) (n : Nat) (rule : Rule) : StateT Engine Logged Outcome := fun e => do
  let (outcome, memories) ← runBindings e.config e.registry d n 0 rule.bindings e.memories
  return (outcome, { e with memories })

/-- The rule a node is bound to; a node without one is reported. -/
def boundRule (d : Document) (n : Nat) : StateT Engine Logged (Except EngineError Rule) := do
  match (← get).store.ruleFor? n with
  | some (_, rule) => return .ok rule
  | none =>
    Logged.report .warn .engine ("Could not find a rule for " ++ d.describe n)
    return .error (.noRule (d.describe n))

/-- What the given rule leaves behind on a node, or else the rule the node is bound to. -/
def run (d : Document) (n : Nat) (rule : Option Rule) :
    StateT Engine Logged (Except EngineError Outcome) := do
  match rule with
  | some rule => return .ok (← execute d n rule)
  | none =>
    match ← boundRule d n with
    | .ok rule => return .ok (← execute d n rule)
    | .error e => return .error e

/-- The records alone. -/
def validate (d : Document) (n : Nat) (rule : Option Rule) :
    StateT Engine Logged (Except EngineError (List Record)) := do
  return (← run d n rule).map (·.records)

/-- What the rule of a node leaves behind if it listens for the event. -/
def handleEvent (d : Document) (n : Nat) (event : String) :
    StateT Engine Logged (Except EngineError (Option Outcome)) := do
  match ← boundRule d n with
  | .error e => return .error e
  | .ok rule =>
    if rule.event = event then return .ok (some (← execute d n rule))
    Logged.report .trace .engine
      (d.describe n ++ " ignores '" ++ event ++ "' (listens for '" ++ rule.event ++ "')")
    return .ok none

/-- What a rule leaves behind on every node bound to it, in increasing order of the nodes. -/
def validateRule (d : Document) (id : Nat) :
    StateT Engine Logged (Except EngineError (List (Nat × Outcome))) := do
  let store := (← get).store
  match store.get? id with
  | none => return .error (.unknownRule id)
  | some rule =>
    return .ok (← (store.nodesFor id).mapM fun n => do return (n, ← execute d n rule))

/-! ## Binding rules -/

/-- The nodes that a target names in a tree. -/
def nodesOf (d : Document) : RuleTarget → Except EngineError (List Nat)
  | .selector source =>
    match d.query Document.root source with
    | .ok nodes => .ok nodes
    | .error e => .error (.tree e)
  | .nodes nodes =>
    match nodes.find? fun n => !d.contains n with
    | some missing => .error (.unknownNode missing)
    | none => .ok nodes

/-- Attaches nodes to a rule one after the other, and reports those taken from another rule. -/
def attachAll (id : Nat) : List Nat → RuleStore → Logged RuleStore
  | [], s => return s
  | n :: rest, s => do
    match s.attached? n with
    | some previous =>
      Logged.report .debug .engine
        (nodeText n ++ " re-bound from " ++ ruleText previous ++ " to " ++ ruleText id)
    | none => pure ()
    attachAll id rest (s.attach n id)

/-- Adds a rule and binds it to the nodes of its target. -/
def bindRule (d : Document) (rule : Rule) : StateT Engine Logged (Except EngineError Nat) :=
  fun e =>
    match nodesOf d rule.target with
    | .error error => return (.error error, e)
    | .ok nodes => do
      let (store, id) := e.store.add rule
      if nodes = [] then
        Logged.report .warn .engine
          ("Could not find any elements for " ++ ruleText id ++ " (" ++ rule.target.text ++ ")")
      let store ← attachAll id nodes store
      Logged.report .debug .engine
        ("Bound " ++ ruleText id ++ " to " ++ toString nodes.length ++ " node(s), " ++
          toString store.boundCount ++ " node(s) bound overall")
      return (.ok id, { e with store })

/-- Binds rules that are numbered from `index` on; a rule that cannot be bound is reported and left
out. -/
def bindRulesFrom (d : Document) : Nat → List Rule → StateT Engine Logged (List Nat)
  | _, [] => return []
  | index, rule :: rest => do
    match ← bindRule d rule with
    | .ok id => return id :: (← bindRulesFrom d (index + 1) rest)
    | .error error =>
      Logged.report .warn .engine ("Skipping " ++ ruleText index ++ ": " ++ error.message)
      bindRulesFrom d (index + 1) rest

/-- Binds every rule that can be bound, and answers with their numbers. -/
def bindRules (d : Document) (rules : List Rule) : StateT Engine Logged (List Nat) :=
  bindRulesFrom d 0 rules

end Engine

end TreeRules
