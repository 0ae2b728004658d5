import Mathlib.Data.List.Forall2
import TreeRules.Rule.File

/-!
# Proofs/Rule/Conversion — a file of rules is converted as a whole or not at all

An entry makes a rule or lacks something, and which of the two it is can be read off what is written:
the target is looked for first, then the names of the validators (`RuleEntry.valid_or_lacks`).  Each
binding of the rule carries what one that is written says (`BindingConfig.Carries`).  The entries of
a file are gone through in order, so there is either one rule for each of them
(`RulesFile.rulesFrom_of_valid`) or the fault of the first that makes none
(`RulesFile.FirstFault.rulesFrom`).
-/

namespace TreeRules

/-- There is something besides blanks in the text. -/
def Text.Shows (s : String) : Prop := ∃ c ∈ s.toList, Text.isBlank c = false

theorem isBlankString_eq_false_iff {s : String} : isBlankString s = false ↔ Text.Shows s := by
  rw [isBlankString, Text.isBlankText, List.all_eq_false, Text.Shows]
  simp only [Bool.not_eq_true]

theorem isBlankString_iff {s : String} : isBlankString s = true ↔ ¬ Text.Shows s := by
  rw [← isBlankString_eq_false_iff, Bool.not_eq_false]

/-! ## Bindings -/

/-- A binding of a rule says what is written: the same severity, validator, options and messages. -/
structure BindingConfig.Carries (c : BindingConfig) (b : Binding) : Prop where
  severity : b.severity = c.generate
  validator : b.validator = c.validator
  options : b.options = c.options
  messages : b.messages = c.errors

theorem BindingConfig.carries_toBinding (c : BindingConfig) : c.Carries c.toBinding :=
  ⟨rfl, rfl, rfl, rfl⟩

namespace Rule

variable {c : BindingConfig} {cs : List BindingConfig}

/-- A binding that names a validator is put behind the others, and the loop goes on. -/
theorem withBindings_cons_of_shows (hc : Text.Shows c.validator) (rule : Rule) :
    rule.withBindings (c :: cs) =
      withBindings { rule with bindings := rule.bindings ++ [c.toBinding] } cs := by
  rw [withBindings, isBlankString_eq_false_iff.2 hc, if_neg Bool.false_ne_true]

/-- Bindings that all name a validator stand behind those of the rule, and change nothing else. -/
theorem withBindings_of_shows (h : ∀ c ∈ cs, Text.Shows c.validator) (rule : Rule) :
    rule.withBindings cs =
      .ok { rule with bindings := rule.bindings ++ cs.map BindingConfig.toBinding } := by
  induction cs generalizing rule with
  | nil => rw [withBindings, List.map_nil, List.append_nil]
  | cons c rest ih =>
    obtain ⟨hc, hrest⟩ := List.forall_mem_cons.1 h
    rw [withBindings_cons_of_shows hc, ih hrest, List.map_cons,
      List.append_cons _ _ (rest.map _)]

/-- One that names none spoils the rule, wherever it stands. -/
theorem withBindings_of_hidden (h : ∃ c ∈ cs, ¬ Text.Shows c.validator) (rule : Rule) :
    rule.withBindings cs = .error .blankValidator := by
  induction cs generalizing rule with
  | nil =>
    obtain ⟨c, hc, -⟩ := h
    exact absurd hc List.not_mem_nil
  | cons c rest ih =>
    by_cases hc : Text.Shows c.validator
    · have hrest : ∃ c ∈ rest, ¬ Text.Shows c.validator :=
        ((List.exists_mem_cons_iff ..).1 h).resolve_left (not_not_intro hc)
      rw [withBindings_cons_of_shows hc, ih hrest]
    · rw [withBindings, if_pos (isBlankString_iff.2 hc)]

end Rule

/-! ## Entries -/

namespace RuleEntry

variable {e e' : RuleEntry} {rule : Rule}

/-- There is a selector that shows, or a list of elements with something in it. -/
def HasTarget (e : RuleEntry) : Prop :=
  (∃ s, e.selector = some s ∧ Text.Shows s) ∨ ∃ ns, e.elements = some ns ∧ ns ≠ []

/-- Every binding, in a group or by itself, names its validator. -/
def NamesValidators (e : RuleEntry) : Prop :=
  ∀ part ∈ e.bindings, ∀ c ∈ part.bindings, Text.Shows c.validator

def Valid (e : RuleEntry) : Prop := e.HasTarget ∧ e.NamesValidators

/-- What is wrong with an entry that makes no rule: of two faults it is the target. -/
inductive Lacks (e : RuleEntry) : EntryFault → Prop where
  | noTarget (no : ¬ e.HasTarget) : Lacks e .noTarget
  | blankValidator (target : e.HasTarget) (no : ¬ e.NamesValidators) : Lacks e .blankValidator

/-- The target of an entry: its selector if that shows, whatever the elements are, and otherwise its
elements. -/
inductive Targets (e : RuleEntry) : RuleTarget → Prop where
  | selector {s : String} (h : e.selector = some s) (shows : Text.Shows s) :
    Targets e (.selector s)
  | nodes {ns : List Nat} (hidden : ∀ s, e.selector = some s → ¬ Text.Shows s)
    (h : e.elements = some ns) (ne : ns ≠ []) : Targets e (.nodes ns)

/-- The rule that an entry writes: its target, its switches, and its bindings one behind the other,
whichever of them stand in a group. -/
structure Writes (e : RuleEntry) (rule : Rule) : Prop where
  target : e.Targets rule.target
  event : rule.event = e.event
  combination : rule.combination = if e.either then .or else .and
  addMessages : rule.addMessages = e.addMessages
  bindings : List.Forall₂ BindingConfig.Carries (e.bindings.flatMap BindingEntry.bindings)
    rule.bindings

/-- The same entry but for the groups in which its bindings are written. -/
def Regroups (e e' : RuleEntry) : Prop :=
  { e' with bindings := e.bindings } = e ∧ e'.allBindings = e.allBindings

theorem target?_eq_some_iff {t : RuleTarget} : e.target? = some t ↔ e.Targets t := by
  have hselector {s : String} : e.selector.filter (!isBlankString ·) = some s ↔
      e.selector = some s ∧ Text.Shows s := by
    rw [Option.filter_eq_some_iff, Bool.not_eq_true', isBlankString_eq_false_iff]
  have helements {ns : List Nat} : e.elements.filter (· ≠ []) = some ns ↔
      e.elements = some ns ∧ ns ≠ [] := by
    rw [Option.filter_eq_some_iff, decide_eq_true_eq]
  rw [target?]
  constructor
  · intro h
    split at h
    · next s _ hs =>
      obtain rfl := Option.some.inj h
      obtain ⟨hs, hshows⟩ := hselector.1 hs
      exact .selector hs hshows
    · next ns hs hns =>
      obtain rfl := Option.some.inj h
      obtain ⟨hns, hne⟩ := helements.1 hns
      refine .nodes (fun s hsome hshows => ?_) hns hne
      exact absurd (hs.symm.trans (hselector.2 ⟨hsome, hshows⟩)) nofun
    · exact absurd h nofun
  · rintro (⟨hs, hshows⟩ | ⟨hhidden, hns, hne⟩)
    · rw [hselector.2 ⟨hs, hshows⟩]
    · have hnone : e.selector.filter (!isBlankString ·) = none := by
        refine Option.eq_none_iff_forall_ne_some.2 fun s hs => ?_
        obtain ⟨hs, hshows⟩ := hselector.1 hs
        exact hhidden s hs hshows
      rw [hnone, helements.2 ⟨hns, hne⟩]

theorem hasTarget_iff : e.HasTarget ↔ ∃ t, e.Targets t := by
  constructor
  · intro h
    by_cases hs : ∃ s, e.selector = some s ∧ Text.Shows s
    · obtain ⟨s, hs, hshows⟩ := hs
      exact ⟨_, .selector hs hshows⟩
    · obtain ⟨ns, hns, hne⟩ := h.resolve_left hs
      exact ⟨_, .nodes (fun s hsome hshows => hs ⟨s, hsome, hshows⟩) hns hne⟩
  · rintro ⟨_, ⟨hs, hshows⟩ | ⟨-, hns, hne⟩⟩
    · exact .inl ⟨_, hs, hshows⟩
    · exact .inr ⟨_, hns, hne⟩

theorem namesValidators_iff :
    e.NamesValidators ↔ ∀ c ∈ e.allBindings, Text.Shows c.validator := by
  rw [allBindings, List.forall_mem_flatMap, NamesValidators]

theorem valid_or_lacks (e : RuleEntry) : e.Valid ∨ ∃ f, e.Lacks f := by
  by_cases htarget : e.HasTarget
  · by_cases hnames : e.NamesValidators
    · exact .inl ⟨htarget, hnames⟩
    · exact .inr ⟨_, .blankValidator htarget hnames⟩
  · exact .inr ⟨_, .noTarget htarget⟩

theorem Valid.toRule (h : e.Valid) : ∃ rule, e.toRule = .ok rule ∧ e.Writes rule := by
  obtain ⟨htarget, hnames⟩ := h
  obtain ⟨t, ht⟩ := hasTarget_iff.1 htarget
  have hcarries : List.Forall₂ BindingConfig.Carries e.allBindings
      (e.allBindings.map BindingConfig.toBinding) := by
    rw [List.forall₂_map_right_iff, List.forall₂_same]
    exact fun c _ => c.carries_toBinding
  refine ⟨⟨t, e.event, .ofOrFlag e.either, e.addMessages, e.allBindings.map BindingConfig.toBinding⟩, ?_,
    ht, rfl, rfl, rfl, hcarries⟩
  rw [RuleEntry.toRule, target?_eq_some_iff.2 ht]
  exact Rule.withBindings_of_shows (namesValidators_iff.1 hnames) _

/-- A missing target is found before the validators are looked at. -/
theorem Lacks.toRule {f : EntryFault} (h : e.Lacks f) : e.toRule = .error f := by
  cases h with
  | noTarget no =>
    have hnone : e.target? = none := by
      refine Option.eq_none_iff_forall_ne_some.2 fun t ht => no (hasTarget_iff.2 ⟨t, ?_⟩)
      exact target?_eq_some_iff.1 ht
    rw [RuleEntry.toRule, hnone]
  | blankValidator target no =>
    obtain ⟨t, ht⟩ := hasTarget_iff.1 target
    rw [RuleEntry.toRule, target?_eq_some_iff.2 ht]
    rw [namesValidators_iff] at no
    push Not at no
    exact Rule.withBindings_of_hidden no _

/-- How its bindings are grouped makes no difference to the rule. -/
theorem Regroups.toRule_eq (h : e.Regroups e') : e'.toRule = e.toRule := by
  obtain ⟨hsame, hall⟩ := h
  rw [← hsame] at hall ⊢
  rw [toRule, toRule, hall]
  rfl

end RuleEntry

/-! ## Files -/

namespace RulesFile

open RuleEntry (Valid Lacks Writes Regroups)

variable {entries : List RuleEntry} {i : Nat} {f : EntryFault}

/-- The entry at a place lacks something, and it is the first that does. -/
structure FirstFault (entries : List RuleEntry) (i : Nat) (f : EntryFault) : Prop where
  lacks : ∃ e, entries[i]? = some e ∧ e.Lacks f
  before : ∀ e ∈ entries.take i, e.Valid

theorem FirstFault.cons {e : RuleEntry} (h : FirstFault entries i f) (he : e.Valid) :
    FirstFault (e :: entries) (i + 1) f :=
  ⟨h.lacks, List.forall_mem_cons.2 ⟨he, h.before⟩⟩

theorem valid_or_firstFault (entries : List RuleEntry) :
    (∀ e ∈ entries, e.Valid) ∨ ∃ i f, FirstFault entries i f := by
  induction entries with
  | nil => exact .inl (List.forall_mem_nil _)
  | cons e rest ih =>
    rcases e.valid_or_lacks with he | ⟨f, hf⟩
    · rcases ih with hrest | ⟨i, f, hfirst⟩
      · exact .inl (List.forall_mem_cons.2 ⟨he, hrest⟩)
      · exact .inr ⟨i + 1, f, hfirst.cons he⟩
    · exact .inr ⟨0, f, ⟨e, rfl, hf⟩, List.forall_mem_nil _⟩

theorem rulesFrom_of_valid (h : ∀ e ∈ entries, e.Valid) (first : Nat) :
    ∃ rules, rulesFrom first entries = .ok rules ∧ List.Forall₂ Writes entries rules := by
  induction entries generalizing first with
  | nil => exact ⟨[], rfl, .nil⟩
  | cons e rest ih =>
    obtain ⟨he, hrest⟩ := List.forall_mem_cons.1 h
    obtain ⟨rule, hrule, hwrites⟩ := he.toRule
    obtain ⟨rules, hrules, hall⟩ := ih hrest (first + 1)
    refine ⟨rule :: rules, ?_, .cons hwrites hall⟩
    rw [rulesFrom, hrule]
    dsimp only
    rw [hrules]
    rfl

theorem FirstFault.rulesFrom (h : FirstFault entries i f) (first : Nat) :
    RulesFile.rulesFrom first entries =
      .error (.invalid (ruleText (first + i) ++ ": " ++ f.message)) := by
  induction entries generalizing i first with
  | nil =>
    obtain ⟨e, he, -⟩ := h.lacks
    exact absurd he nofun
  | cons e rest ih =>
    cases i with
    | zero =>
      obtain ⟨e', he', hlacks⟩ := h.lacks
      obtain rfl := Option.some.inj he'
      rw [RulesFile.rulesFrom, hlacks.toRule]
      rfl
    | succ i =>
      obtain ⟨he, hbefore⟩ := List.forall_mem_cons.1 h.before
      obtain ⟨rule, hrule, -⟩ := he.toRule
      have hrest := ih ⟨h.lacks, hbefore⟩ (first + 1)
      rw [RulesFile.rulesFrom, hrule]
      dsimp only
      rw [hrest, Nat.add_right_comm first 1 i]
      rfl

theorem rulesFrom_regrouped {entries' : List RuleEntry} (h : List.Forall₂ Regroups entries entries')
    (first : Nat) : rulesFrom first entries' = rulesFrom first entries := by
  induction h generalizing first with
  | nil => rfl
  | cons hhead _ ih => rw [rulesFrom, rulesFrom, hhead.toRule_eq, ih]

/-- What a file of rules comes to. -/
structure Converts (file : RulesFile) : Prop where
  /-- Every entry has to make sense, or there are no rules at all. -/
  accepted : (∃ rules, file.toRules = .ok rules) ↔ ∀ e ∈ file.entries, e.Valid
  /-- There is one rule for each entry, in order. -/
  written {rules : List Rule} (h : file.toRules = .ok rules) :
    List.Forall₂ Writes file.entries rules
  /-- The fault is that of the first entry that lacks something. -/
  rejected {fault : Fault} : file.toRules = .error fault ↔
    ∃ i f, FirstFault file.entries i f ∧
      fault = .invalid ("rule " ++ toString i ++ ": " ++ f.message)
  /-- The groups do not count, in one entry or in all of them. -/
  regrouped {file' : RulesFile} (h : List.Forall₂ Regroups file.entries file'.entries) :
    file'.toRules = file.toRules

/-- **A file is converted as a whole or not at all**, entry by entry and in order. -/
theorem converts (file : RulesFile) : file.Converts := by
  have hfault {i : Nat} {f : EntryFault} (h : FirstFault file.entries i f) :
      file.toRules = .error (.invalid ("rule " ++ toString i ++ ": " ++ f.message)) := by
    rw [toRules, h.rulesFrom, Nat.zero_add]
    rfl
  have hvalid {rules : List Rule} (h : file.toRules = .ok rules) :
      ∀ e ∈ file.entries, e.Valid := by
    refine (valid_or_firstFault file.entries).resolve_right ?_
    rintro ⟨i, f, hfirst⟩
    exact absurd (h.symm.trans (hfault hfirst)) nofun
  constructor
  case accepted =>
    refine ⟨fun ⟨_, h⟩ => hvalid h, fun h => ?_⟩
    obtain ⟨rules, hrules, -⟩ := rulesFrom_of_valid h 0
    exact ⟨rules, hrules⟩
  case written =>
    intro rules h
    obtain ⟨rules', hrules, hwrites⟩ := rulesFrom_of_valid (hvalid h) 0
    obtain rfl := Except.ok.inj (h.symm.trans hrules)
    exact hwrites
  case rejected =>
    intro fault
    constructor
    · intro h
      rcases valid_or_firstFault file.entries with hall | ⟨i, f, hfirst⟩
      · obtain ⟨rules, hrules, -⟩ := rulesFrom_of_valid hall 0
        exact absurd (h.symm.trans hrules) nofun
      · exact ⟨i, f, hfirst, Except.error.inj (h.symm.trans (hfault hfirst))⟩
    · rintro ⟨i, f, hfirst, rfl⟩
      exact hfault hfirst
  case regrouped =>
    intro file' h
    exact rulesFrom_regrouped h 0

end RulesFile

end TreeRules
