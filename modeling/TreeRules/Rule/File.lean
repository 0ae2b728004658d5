import TreeRules.Json.Printer
import TreeRules.Json.Reader
import TreeRules.Json.Record
import TreeRules.Rule.Basic
import TreeRules.Rule.Fault

/-!
# Rule/File — rules as they are written

A file holds entries, each with a selector or a list of nodes and with bindings that may stand in
groups.  Reading a group by group or one by one gives the same rule: only the order counts.  The
first entry that makes no sense spoils the whole file.
-/

namespace TreeRules

/-! ## Bindings -/

/-- A binding as it is written. -/
structure BindingConfig where
  generate : String
  validator : String
  options : Options
  errors : Table String

/-- The binding of a rule that is written so. -/
def BindingConfig.toBinding (c : BindingConfig) : Binding :=
  { Binding.of c.generate c.validator with options := c.options, messages := c.errors }

/-- A binding, or several written together. -/
inductive BindingEntry where
  | single (binding : BindingConfig)
  | group (bindings : List BindingConfig)

/-- The bindings of an entry in reading order. -/
def BindingEntry.bindings : BindingEntry → List BindingConfig
  | single c => [c]
  | group cs => cs

/-! ## Entries -/

/-- A rule as it is written. -/
structure RuleEntry where
  selector : Option String
  elements : Option (List Nat)
  event : String
  either : Bool
  addMessages : Bool
  bindings : List BindingEntry

/-- Why an entry makes no rule. -/
inductive EntryFault where
  | noTarget
  | blankValidator
  deriving DecidableEq, Repr

def EntryFault.message : EntryFault → String
  | noTarget => "needs a selector or a non-empty elements list"
  | blankValidator => "validator name must not be empty"

/-- The rule with bindings behind those it has, up to the first one that names no validator. -/
def Rule.withBindings (rule : Rule) : List BindingConfig → Except EntryFault Rule
  | [] => .ok rule
  | c :: rest =>
    if isBlankString c.validator then .error .blankValidator
    else withBindings { rule with bindings := rule.bindings ++ [c.toBinding] } rest

namespace RuleEntry

/-- The target that the entry names: its selector unless that is blank, else its elements. -/
def target? (e : RuleEntry) : Option RuleTarget :=
  match e.selector.filter (!isBlankString ·), e.elements.filter (· ≠ []) with
  | some selector, _ => some (.selector selector)
  | none, some nodes => some (.nodes nodes)
  | none, none => none

def allBindings (e : RuleEntry) : List BindingConfig := e.bindings.flatMap (·.bindings)

/-- The rule that the entry writes. -/
def toRule (e : RuleEntry) : Except EntryFault Rule :=
  match e.target? with
  | none => .error .noTarget
  | some target =>
    Rule.withBindings
      { Rule.ofTarget target with
        event := e.event, combination := .ofOrFlag e.either, addMessages := e.addMessages }
      e.allBindings

end RuleEntry

/-! ## Files -/

/-- The entries of a file. -/
structure RulesFile where
  entries : List RuleEntry

namespace RulesFile

/-- The rules of entries that are numbered from `index` on. -/
def rulesFrom (index : Nat) : List RuleEntry → Except Fault (List Rule)
  | [] => .ok []
  | e :: rest =>
    match e.toRule with
    | .error f => .error (.invalid (ruleText index ++ ": " ++ f.message))
    | .ok rule => (rulesFrom (index + 1) rest).map (rule :: ·)

/-- The rules that the file writes, one for each entry. -/
def toRules (f : RulesFile) : Except Fault (List Rule) := rulesFrom 0 f.entries

end RulesFile

/-! ## Reading -/

open Json (Written)
open Json.Written (required orDefault nullable?)

/-- The names of a binding's fields. -/
abbrev BindingConfig.fieldNames : List String := ["generate", "validator", "options", "errors"]

/-- A binding, nested at most `levels` deep. -/
def BindingConfig.ofWritten? (levels : Nat) (w : Written) : Option BindingConfig :=
  match levels, w.fields? fieldNames with
  | l + 1, some [generate, validator, options, errors] => do
    return {
      generate := ← orDefault "error" Written.string? generate
      validator := ← required Written.string? validator
      options := ← orDefault .empty (Written.valueTable? l) options
      errors := ← orDefault .empty (Written.stringTable? l) errors }
  | _, _ => none

/-- A binding or a group of them; every literal in it has to be readable, used or not. -/
def BindingEntry.ofWritten? (levels : Nat) (w : Written) : Option BindingEntry := do
  let _ ← w.value? levels
  (BindingConfig.ofWritten? levels w).map .single <|>
    (w.list? BindingConfig.ofWritten? levels).map .group

/-- The names of an entry's fields. -/
abbrev RuleEntry.fieldNames : List String :=
  ["selector", "elements", "validateOn", "validationOr", "addMessages", "validators"]

/-- An entry, nested at most `levels` deep. -/
def RuleEntry.ofWritten? (levels : Nat) (w : Written) : Option RuleEntry :=
  match levels, w.fields? fieldNames with
  | l + 1, some [selector, elements, event, either, addMessages, bindings] => do
    return {
      selector := ← orDefault none (nullable? Written.string?) selector
      elements := ← orDefault none (nullable? (Written.list? (fun _ => Written.nat?) l)) elements
      event := ← orDefault Rule.defaultEvent Written.string? event
      either := ← orDefault false Written.bool? either
      addMessages := ← orDefault false Written.bool? addMessages
      bindings := ← orDefault [] (Written.list? BindingEntry.ofWritten? l) bindings }
  | _, _ => none

namespace RulesFile

def ofWritten? (w : Written) : Option RulesFile :=
  match w.fields? ["rules"] with
  | some [rules] =>
    (orDefault [] (Written.list? RuleEntry.ofWritten? (Written.maxDepth - 1)) rules).map .mk
  | _ => none

/-- The file that a text writes. -/
def ofText? (text : String) : Option RulesFile := (Written.ofText? text).bind ofWritten?

end RulesFile

/-! ## Writing -/

def BindingConfig.toJson (c : BindingConfig) : Json :=
  .object
    [
      ("generate", .string c.generate), ("validator", .string c.validator),
      ("options", .ofTable id c.options), ("errors", .ofTable .string c.errors)
    ]

def BindingEntry.toJson : BindingEntry → Json
  | single c => c.toJson
  | group cs => .array (cs.map BindingConfig.toJson)

def RuleEntry.toJson (e : RuleEntry) : Json :=
  .object <|
    Json.memberIf "selector" .string e.selector ++
    Json.memberIf "elements" (fun ns => .array (ns.map fun (n : Nat) => .int n)) e.elements ++
    [
      ("validateOn", .string e.event), ("validationOr", .bool e.either),
      ("addMessages", .bool e.addMessages), ("validators", .array (e.bindings.map (·.toJson)))
    ]

namespace RulesFile

def toJson (f : RulesFile) : Json := .object [("rules", .array (f.entries.map (·.toJson)))]

/-- The text of a file. -/
def text (f : RulesFile) : String := f.toJson.pretty

end RulesFile

end TreeRules
