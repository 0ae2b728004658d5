import TreeRules.Engine.Basic
import TreeRules.Proofs.Simulation

/-!
# Proofs/Engine/Session — an engine and the document it is used with

A session is what a caller holds: an engine, and one document that grows and changes its values
while rules are bound and run.  A run of a session is a list of operations, each with its answer.
Two histories of a run are read off its operations without any engine: the document after each of
them (`Document.afterAll`), and the binds that succeed (`Document.binds`), each with the nodes that
the target named in the document as it stood.
-/

namespace TreeRules

/-! ## Operations -/

structure Session where
  engine : Engine
  document : Document

/-- What a caller can ask of a session. -/
inductive Operation where
  | register (name : String) (entry : Registration)
  | bind (rule : Rule)
  | bindAll (rules : List Rule)
  | run (node : Nat) (rule : Option Rule)
  | validate (node : Nat) (rule : Option Rule)
  | event (node : Nat) (event : String)
  | validateRule (id : Nat)
  | resolve (start : List Nat) (path : Option String)
  | append (parent : Nat) (spec : ElementSpec)
  | setValue (node : Nat) (value : String)

/-- What a session answers. -/
inductive Answer where
  | registered (done : Bool)
  | bound (id : Except EngineError Nat)
  | boundAll (ids : List Nat)
  | outcome (outcome : Except EngineError Outcome)
  | records (records : Except EngineError (List Record))
  | event (outcome : Except EngineError (Option Outcome))
  | outcomes (outcomes : Except EngineError (List (Nat × Outcome)))
  | nodes (nodes : Except ResolveError (List Nat))
  | appended (node : Except TreeError Nat)
  | valueSet (done : Except TreeError Unit)

/-- The numbers that a bind hands out. -/
def Answer.ids : Answer → List Nat
  | bound (.ok id) => [id]
  | boundAll ids => ids
  | _ => []

/-! ## Runs -/

namespace Session

variable {α : Type}

/-- A computation with the engine alone. -/
def withEngine (x : StateT Engine Logged α) : StateT Session Logged α := fun s => do
  let (a, engine) ← x s.engine
  return (a, { s with engine })

/-- Resolving through the place for paths that the engine shares with its validators. -/
def resolve (start : List Nat) (path : Option String) :
    StateT Session Logged (Except ResolveError (List Nat)) := fun s => do
  let (nodes, paths) ← Resolver.resolve s.document start path s.engine.memories.paths
  let memories := { s.engine.memories with paths }
  return (nodes, { s with engine := { s.engine with memories } })

/-- A change of the document; one that fails changes nothing. -/
def revise (f : Document → Except TreeError (α × Document)) :
    StateT Session Logged (Except TreeError α) := fun s =>
  match f s.document with
  | .ok (a, document) => return (.ok a, { s with document })
  | .error e => return (.error e, s)

/-- One operation. -/
def step (op : Operation) : StateT Session Logged Answer := do
  let d := (← get).document
  match op with
  | .register name entry => return .registered (← withEngine (Engine.register name entry))
  | .bind rule => return .bound (← withEngine (Engine.bindRule d rule))
  | .bindAll rules => return .boundAll (← withEngine (Engine.bindRules d rules))
  | .run n rule => return .outcome (← withEngine (Engine.run d n rule))
  | .validate n rule => return .records (← withEngine (Engine.validate d n rule))
  | .event n event => return .event (← withEngine (Engine.handleEvent d n event))
  | .validateRule id => return .outcomes (← withEngine (Engine.validateRule d id))
  | .resolve start path => return .nodes (← resolve start path)
  | .append parent spec => return .appended (← revise fun d => (d.append parent spec).map .swap)
  | .setValue n value => return .valueSet (← revise fun d => (d.setValue n value).map ((), ·))

/-- Operations one after the other, with their answers. -/
def run (ops : List Operation) : StateT Session Logged (List Answer) := ops.mapM step

@[simp] theorem answer_withEngine (x : StateT Engine Logged α) (s : Session) :
    answer (withEngine x) s = answer x s.engine := rfl

@[simp] theorem after_withEngine (x : StateT Engine Logged α) (s : Session) :
    after (withEngine x) s = { s with engine := after x s.engine } := rfl

@[simp] theorem answer_run_nil (s : Session) : answer (run []) s = [] := by
  rw [run, List.mapM_nil, answer_pure]

@[simp] theorem after_run_nil (s : Session) : after (run []) s = s := by
  rw [run, List.mapM_nil, after_pure]

@[simp] theorem answer_run_cons (op : Operation) (ops : List Operation) (s : Session) :
    answer (run (op :: ops)) s = answer (step op) s :: answer (run ops) (after (step op) s) := by
  rw [run, List.mapM_cons, answer_bind, answer_bind, answer_pure, run]

@[simp] theorem after_run_cons (op : Operation) (ops : List Operation) (s : Session) :
    after (run (op :: ops)) s = after (run ops) (after (step op) s) := by
  rw [run, List.mapM_cons, after_bind, after_bind, after_pure, run]

end Session

/-! ## Histories -/

/-- A rule and the nodes that its target named when it was bound. -/
structure BoundRule where
  rule : Rule
  nodes : List Nat

namespace Document

/-- The nodes that a target names: the elements below the root that its selector matches, or those
that it lists if all of them are elements.  Nothing if the selector cannot be read or a listed node
is no element. -/
def named? (d : Document) : RuleTarget → Option (List Nat)
  | .selector source =>
    match SelectorList.parse source with
    | .ok l => some ((d.descendants root).filter (l.matches d))
    | .error _ => none
  | .nodes nodes => if nodes.all d.contains then some nodes else none

/-- The rules that can be bound, in order, each with its nodes. -/
def bindsOf (d : Document) (rules : List Rule) : List BoundRule :=
  rules.filterMap fun rule => (d.named? rule.target).map (⟨rule, ·⟩)

/-- The binds of one operation that succeed. -/
def bindsIn (d : Document) : Operation → List BoundRule
  | .bind rule => d.bindsOf [rule]
  | .bindAll rules => d.bindsOf rules
  | _ => []

/-- The document after one operation. -/
def next (d : Document) : Operation → Document
  | .append parent spec => ((d.append? parent spec).map Prod.fst).getD d
  | .setValue n value => (d.setValue? n value).getD d
  | _ => d

/-- The document after a run. -/
def afterAll (d : Document) (ops : List Operation) : Document := ops.foldl next d

/-- The binds of a run that succeed, in order, each on the document as it stood. -/
def binds (d : Document) : List Operation → List BoundRule
  | [] => []
  | op :: rest => d.bindsIn op ++ (d.next op).binds rest

end Document

namespace Session

variable {α : Type}

theorem value_revise_ok {f : Document → Except TreeError (α × Document)} {s : Session} {a : α}
    {d : Document} (h : f s.document = .ok (a, d)) :
    (revise f s).value = (.ok a, { s with document := d }) := by
  simp only [revise, h]
  rfl

theorem value_revise_error {f : Document → Except TreeError (α × Document)} {s : Session}
    {e : TreeError} (h : f s.document = .error e) : (revise f s).value = (.error e, s) := by
  simp only [revise, h]
  rfl

theorem after_revise_ok {f : Document → Except TreeError (α × Document)} {s : Session} {a : α}
    {d : Document} (h : f s.document = .ok (a, d)) :
    after (revise f) s = { s with document := d } := congrArg Prod.snd (value_revise_ok h)

theorem after_revise_error {f : Document → Except TreeError (α × Document)} {s : Session}
    {e : TreeError} (h : f s.document = .error e) : after (revise f) s = s :=
  congrArg Prod.snd (value_revise_error h)

/-- A change of the document leaves the engine alone. -/
theorem engine_after_revise (f : Document → Except TreeError (α × Document)) (s : Session) :
    (after (revise f) s).engine = s.engine := by
  cases h : f s.document with
  | ok r => rw [after_revise_ok h]
  | error e => rw [after_revise_error h]

/-- The document is what the operations make of it; no engine has a part in it. -/
theorem document_after_step (op : Operation) (s : Session) :
    (after (step op) s).document = s.document.next op := by
  cases op with
  | append parent spec =>
    change (after (revise _) s).document = _
    cases h : s.document.append? parent spec with
    | some r =>
      rw [after_revise_ok (a := r.2) (d := r.1) (by rw [Document.append, h]; rfl), Document.next, h]
      rfl
    | none =>
      rw [after_revise_error (by rw [Document.append, h]; rfl), Document.next, h]
      rfl
  | setValue n value =>
    change (after (revise _) s).document = _
    cases h : s.document.setValue? n value with
    | some d =>
      rw [after_revise_ok (a := ()) (d := d) (by rw [Document.setValue, h]; rfl), Document.next, h]
      rfl
    | none =>
      rw [after_revise_error (by rw [Document.setValue, h]; rfl), Document.next, h]
      rfl
  | _ => rfl

end Session

end TreeRules
