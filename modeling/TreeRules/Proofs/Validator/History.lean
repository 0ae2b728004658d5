import TreeRules.Proofs.Engine.Execution

/-!
# Proofs/Validator/History — a registry is the history of its successful registrations

Whichever way a validator is registered, and also when the built-in ones are registered together,
the registry is asked for one registration after the other (`Registry.after_performAll`).  What is
asked for is granted if the name is one and is free, and is then put behind all that came before;
otherwise nothing changes (`Registry.register_cases`).  So the entries of a registry are those of
the beginning and behind them the registrations that were granted, in order
(`Registry.entries_afterAll`), and everything else is read off that
(`Registry.follows_history`).
-/

namespace TreeRules.Registry

/-! ## Calls -/

/-- What a caller can ask of a registry. -/
inductive Call where
  | register (name : String) (entry : Registration)
  | tryRegister (name : String) (entry : Registration)
  | registerBuiltins

/-- What a registry replies. -/
inductive Reply where
  | registered (done : Except RegistrationError Unit)
  | tried (done : Bool)
  | nothing

def perform : Call → StateT Registry Logged Reply
  | .register name entry => return .registered (← Registry.register name entry)
  | .tryRegister name entry => return .tried (← Registry.tryRegister name entry)
  | .registerBuiltins => do
    Registry.registerBuiltins
    return .nothing

/-- Calls one after the other, with their replies. -/
def performAll (calls : List Call) : StateT Registry Logged (List Reply) := calls.mapM perform

/-! ## Registrations -/

/-- The registrations that a call asks for, one after the other. -/
def Call.asks : Call → List (String × Registration)
  | register name entry => [(name, entry)]
  | tryRegister name entry => [(name, entry)]
  | registerBuiltins => builtins

/-- The registry after registrations are asked for one after the other. -/
def afterAll (r : Registry) (asks : List (String × Registration)) : Registry :=
  asks.foldl (fun r ask => after (register ask.1 ask.2) r) r

/-- Those of them that are granted. -/
def granted (r : Registry) : List (String × Registration) → List (String × Registration)
  | [] => []
  | ask :: rest =>
    let more := granted (after (register ask.1 ask.2) r) rest
    if (answer (register ask.1 ask.2) r).isOk then ask :: more else more

/-- A name is some text without blanks. -/
def ValidName (name : String) : Prop := name ≠ "" ∧ ∀ c ∈ name.toList, Text.isBlank c = false

theorem isName_iff {name : String} : isName name = true ↔ ValidName name := by
  rw [isName, Bool.and_eq_true, bne_iff_ne, Bool.not_eq_true', List.any_eq_false, ValidName]
  simp only [Bool.not_eq_true]

variable {r : Registry} {name : String} {entry : Registration}

/-- **What a registration can do**: it is granted and stands last, or it is refused and changes
nothing. -/
theorem register_cases (r : Registry) (name : String) (entry : Registration) :
    (answer (register name entry) r = .ok () ∧ ValidName name ∧ name ∉ r.keys ∧
      (after (register name entry) r).entries = r.entries ++ [(name, entry)]) ∨
    (∃ e, answer (register name entry) r = .error e) ∧ ¬ (ValidName name ∧ name ∉ r.keys) ∧
      after (register name entry) r = r := by
  rw [answer, after, register, add?]
  by_cases hname : isName name = true
  · by_cases hmem : r.contains name = true
    · rw [hname, hmem]
      refine .inr ⟨⟨_, rfl⟩, ?_, rfl⟩
      exact fun h => h.2 ((r.contains_iff name).1 hmem)
    · rw [hname, eq_false_of_ne_true hmem]
      have hfree : name ∉ r.keys := mt (r.contains_iff name).2 hmem
      exact .inl ⟨rfl, isName_iff.1 hname, hfree, Entries.put_of_not_mem hfree entry⟩
  · rw [eq_false_of_ne_true hname]
    exact .inr ⟨⟨_, rfl⟩, fun h => hname (isName_iff.2 h.1), rfl⟩

/-! ## One registration after the other -/

theorem afterAll_append (r : Registry) (xs ys : List (String × Registration)) :
    r.afterAll (xs ++ ys) = (r.afterAll xs).afterAll ys := List.foldl_append

/-- Whoever only asks whether it worked has registered all the same. -/
theorem tryRegister_eq (r : Registry) (name : String) (entry : Registration) :
    answer (tryRegister name entry) r = (answer (register name entry) r).isOk ∧
      after (tryRegister name entry) r = after (register name entry) r := by
  rw [tryRegister, answer_bind, after_bind]
  cases answer (register name entry) r <;> exact ⟨rfl, rfl⟩

theorem after_registerBuiltin (r : Registry) (name : String) (entry : Registration) :
    after (registerBuiltin name entry) r = after (register name entry) r := by
  rw [registerBuiltin, after_bind]
  cases answer (register name entry) r with
  | ok _ => rfl
  | error e => cases e <;> rfl

theorem after_registerBuiltins (r : Registry) :
    after registerBuiltins r = r.afterAll builtins := by
  rw [registerBuiltins, after_forM, afterAll]
  exact congrArg (List.foldl · r builtins)
    (funext fun r => funext fun ask => after_registerBuiltin r ask.1 ask.2)

/-- Every call asks for registrations and changes nothing else. -/
theorem after_perform (call : Call) (r : Registry) :
    after (perform call) r = r.afterAll call.asks := by
  cases call with
  | register name entry =>
    rw [perform, after_bind, after_pure]
    rfl
  | tryRegister name entry =>
    rw [perform, after_bind, after_pure, (tryRegister_eq r name entry).2]
    rfl
  | registerBuiltins =>
    rw [perform, after_bind, after_pure, after_registerBuiltins]
    rfl

theorem after_performAll (calls : List Call) (r : Registry) :
    after (performAll calls) r = r.afterAll (calls.flatMap Call.asks) := by
  induction calls generalizing r with
  | nil => rw [performAll, List.mapM_nil]; rfl
  | cons call rest ih =>
    rw [performAll] at ih
    rw [performAll, List.mapM_cons, after_bind, after_bind, after_pure, ih, after_perform,
      List.flatMap_cons, afterAll_append]

/-! ## The entries are the history -/

variable {asks : List (String × Registration)}

/-- **The registrations that are granted stand behind the entries of the beginning.** -/
theorem entries_afterAll (r : Registry) (asks : List (String × Registration)) :
    (r.afterAll asks).entries = r.entries ++ granted r asks := by
  induction asks generalizing r with
  | nil => exact (List.append_nil _).symm
  | cons ask rest ih =>
    rw [granted, afterAll, List.foldl_cons, ← afterAll, ih]
    rcases register_cases r ask.1 ask.2 with ⟨hok, -, -, hentries⟩ | ⟨⟨e, herror⟩, -, hsame⟩
    · rw [hok, hentries, List.append_assoc]
      rfl
    · rw [herror, hsame]
      rfl

theorem keys_afterAll (r : Registry) (asks : List (String × Registration)) :
    (r.afterAll asks).keys = r.keys ++ (granted r asks).map Prod.fst := by
  rw [Table.keys, entries_afterAll, List.map_append]
  rfl

/-- A name stands for what was registered under it first. -/
theorem get?_afterAll (r : Registry) (asks : List (String × Registration)) (name : String) :
    (r.afterAll asks).get? name = (r.get? name).or ((granted r asks).lookup name) := by
  rw [Table.get?, entries_afterAll, List.lookup_append]
  rfl

/-- Of different names, just the free ones are granted. -/
theorem granted_of_nodup (hvalid : ∀ ask ∈ asks, ValidName ask.1)
    (hnodup : (asks.map Prod.fst).Nodup) (r : Registry) :
    granted r asks = asks.filter fun ask => ask.1 ∉ r.keys := by
  induction asks generalizing r with
  | nil => rfl
  | cons ask rest ih =>
    obtain ⟨hask, hrest⟩ := List.forall_mem_cons.1 hvalid
    rw [List.map_cons, List.nodup_cons] at hnodup
    have hmore := ih hrest hnodup.2 (after (register ask.1 ask.2) r)
    rw [granted, hmore, List.filter_cons]
    rcases register_cases r ask.1 ask.2 with ⟨hok, -, hfree, hentries⟩ | ⟨⟨e, herror⟩, hno, hsame⟩
    · have hkeys : (after (register ask.1 ask.2) r).keys = r.keys ++ [ask.1] := by
        rw [Table.keys, hentries, List.map_append]
        rfl
      -- the name that was taken just now is none of the names still to come
      have hlater : rest.filter (fun ask' => ask'.1 ∉ (after (register ask.1 ask.2) r).keys) =
          rest.filter fun ask' => ask'.1 ∉ r.keys := by
        refine List.filter_congr fun ask' hmem => ?_
        have hne : ask'.1 ≠ ask.1 := fun h => hnodup.1 (h ▸ List.mem_map_of_mem hmem)
        rw [hkeys, decide_eq_decide, List.mem_append, List.mem_singleton, or_iff_left hne]
      rw [hok, hlater, if_pos (decide_eq_true hfree)]
      rfl
    · have htaken : ¬ ask.1 ∉ r.keys := fun hfree => hno ⟨hask, hfree⟩
      rw [herror, hsame]
      exact (if_neg (mt of_decide_eq_true htaken)).symm

/-! ## The built-in validators -/

theorem validName_of_mem_builtins : ∀ ask ∈ builtins, ValidName ask.1 := by
  have hall : ∀ ask ∈ builtins, isName ask.1 = true := by decide +kernel
  exact fun ask hmem => isName_iff.1 (hall ask hmem)

theorem nodup_builtins : (builtins.map Prod.fst).Nodup := by decide

/-- The built-in validators whose names are free come last, and nothing else is new. -/
theorem entries_registerBuiltins (r : Registry) :
    (after registerBuiltins r).entries =
      r.entries ++ builtins.filter fun ask => ask.1 ∉ r.keys := by
  rw [after_registerBuiltins, entries_afterAll,
    granted_of_nodup validName_of_mem_builtins nodup_builtins]

/-- Once the built-in validators are registered, or others under their names, they need not be
registered again. -/
theorem registerBuiltins_again (r : Registry) :
    after registerBuiltins (after registerBuiltins r) = after registerBuiltins r := by
  have hnone : builtins.filter (fun ask => ask.1 ∉ (after registerBuiltins r).keys) = [] := by
    refine List.filter_eq_nil_iff.2 fun ask hmem => ?_
    rw [decide_eq_true_eq, not_not, Table.keys, entries_registerBuiltins, List.map_append,
      List.mem_append]
    by_cases hold : ask.1 ∈ r.keys
    · exact .inl hold
    · exact .inr (List.mem_map_of_mem (List.mem_filter.2 ⟨hmem, decide_eq_true hold⟩))
  refine Table.ext ?_
  rw [entries_registerBuiltins (after registerBuiltins r), hnone, List.append_nil]

/-! ## The whole history -/

/-- What is known of a registry that began as `start` when the registrations `made` have been
granted, in this order.

* `entries`, `names`, `lookup` — it holds what there was and what was granted, in order, each name
  once, and a name stands for the first that was granted under it.
* `registers`, `tries`, `fails` — another registration is granted just if its name is one, was not
  there and has not been granted, and otherwise nothing changes.
* `builtins`, `again` — registering the built-in validators adds those whose names are free, and a
  second time nothing.
* `permanent`, `steady` — whatever is asked for later, a name that stands for a validator goes on to
  do so, and a binding to it leaves the same behind. -/
structure FollowsHistory (start r : Registry) (made : List (String × Registration)) : Prop where
  entries : r.entries = start.entries ++ made
  names : r.keys = start.keys ++ made.map Prod.fst ∧ r.keys.Nodup
  lookup : ∀ name, r.get? name = (start.get? name).or (made.lookup name)
  registers : ∀ name entry, answer (register name entry) r = .ok () ↔
    ValidName name ∧ name ∉ start.keys ∧ name ∉ made.map Prod.fst
  tries : ∀ name entry, answer (tryRegister name entry) r = true ↔
    ValidName name ∧ name ∉ start.keys ∧ name ∉ made.map Prod.fst
  fails : ∀ name entry, answer (register name entry) r ≠ .ok () →
    after (register name entry) r = r ∧ after (tryRegister name entry) r = r
  builtins : (after registerBuiltins r).entries =
    r.entries ++ builtins.filter fun ask => ask.1 ∉ r.keys
  again : after registerBuiltins (after registerBuiltins r) = after registerBuiltins r
  permanent : ∀ name entry, r.get? name = some entry → ∀ more,
    (after (performAll more) r).get? name = some entry
  steady : ∀ b : Binding, (∃ entry, r.get? b.validator = some entry) → ∀ more config d n index,
    Engine.runBinding config (after (performAll more) r) d n index b =
      Engine.runBinding config r d n index b

theorem get?_performAll {name : String} {entry : Registration} (h : r.get? name = some entry)
    (more : List Call) : (after (performAll more) r).get? name = some entry := by
  rw [after_performAll, get?_afterAll, h, Option.some_or]

/-- **A registry follows the history of its registrations**, after any calls. -/
theorem follows_history (start : Registry) (calls : List Call) :
    FollowsHistory start (after (performAll calls) start)
      (granted start (calls.flatMap Call.asks)) := by
  have hentries := after_performAll calls start ▸ entries_afterAll start (calls.flatMap Call.asks)
  have hkeys := after_performAll calls start ▸ keys_afterAll start (calls.flatMap Call.asks)
  have hlookup := after_performAll calls start ▸ get?_afterAll start (calls.flatMap Call.asks)
  generalize after (performAll calls) start = r at hentries hkeys hlookup
  generalize granted start (calls.flatMap Call.asks) = made at hentries hkeys hlookup
  have hfree : ∀ name, name ∉ r.keys ↔ name ∉ start.keys ∧ name ∉ made.map Prod.fst := fun name =>
    by rw [hkeys, List.mem_append, not_or]
  have hregisters : ∀ name entry, answer (register name entry) r = .ok () ↔
      ValidName name ∧ name ∉ start.keys ∧ name ∉ made.map Prod.fst := by
    intro name entry
    rw [← hfree]
    rcases register_cases r name entry with ⟨hok, hname, hnot, -⟩ | ⟨⟨e, herror⟩, hno, -⟩
    · exact iff_of_true hok ⟨hname, hnot⟩
    · exact iff_of_false (herror ▸ nofun) hno
  exact {
    entries := hentries
    names := ⟨hkeys, r.nodup_keys⟩
    lookup := hlookup
    registers := hregisters
    tries := fun name entry => by
      rw [← hregisters name entry, (tryRegister_eq r name entry).1]
      rcases register_cases r name entry with ⟨hok, -⟩ | ⟨⟨e, herror⟩, -⟩
      · exact iff_of_true (hok ▸ rfl) hok
      · exact iff_of_false (herror ▸ nofun) (herror ▸ nofun)
    fails := fun name entry hno => by
      obtain ⟨-, -, hsame⟩ := (register_cases r name entry).resolve_left fun h => hno h.1
      exact ⟨hsame, (tryRegister_eq r name entry).2.trans hsame⟩
    builtins := entries_registerBuiltins r
    again := registerBuiltins_again r
    permanent := fun _ _ h => get?_performAll h
    steady := fun b ⟨entry, h⟩ more config d n index => by
      rw [Engine.runBinding, Engine.runBinding, get?_performAll h, h] }

end TreeRules.Registry
