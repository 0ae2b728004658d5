import TreeRules.Proofs.Json.Record
import TreeRules.Rule.File

/-!
# Proofs/Rule/RoundTrip — a file of rules comes back from its text

What stands for a binding is an object or an array that begins with a string, and a group is an array
of such things, so nothing is both (`BindingConfig.not_group`): a string is no binding.  Every record is
read from what it writes, level by level, once its options can be read at all (`RulesFile.Fits`).
-/

namespace TreeRules

open Json (Written)
open Json.Written (fields? list? nat? nullable? orDefault required string? stringTable? valueTable?)

variable {levels l : Nat} {w : Written} {items : List Written} {c : BindingConfig}

/-! ## A binding or a group -/

/-- A binding is read field by field, and of the four only the validator has to be there. -/
theorem BindingConfig.ofWritten?_eq_some_iff : BindingConfig.ofWritten? (l + 1) w = some c ↔
    ∃ generate validator options errors,
      w.fields? BindingConfig.fieldNames = some [generate, validator, options, errors] ∧
      orDefault "error" string? generate = some c.generate ∧
      required string? validator = some c.validator ∧
      orDefault .empty (valueTable? l) options = some c.options ∧
      orDefault .empty (stringTable? l) errors = some c.errors := by
  rw [BindingConfig.ofWritten?.eq_def]
  constructor
  · intro h
    split at h
    · next l' generate validator options errors heq hfields =>
      obtain rfl := Nat.succ.inj heq
      obtain ⟨g, hg, h⟩ := Option.bind_eq_some_iff.1 h
      obtain ⟨v, hv, h⟩ := Option.bind_eq_some_iff.1 h
      obtain ⟨o, ho, h⟩ := Option.bind_eq_some_iff.1 h
      obtain ⟨e, he, h⟩ := Option.bind_eq_some_iff.1 h
      obtain rfl := Option.some.inj h
      exact ⟨_, _, _, _, hfields, hg, hv, ho, he⟩
    · exact absurd h nofun
  · rintro ⟨generate, validator, options, errors, hfields, hg, hv, ho, he⟩
    rw [hfields]
    simp only [hg, hv, ho, he]
    rfl

/-- A string is no binding. -/
theorem BindingConfig.ofWritten?_string (levels : Nat) (s : String) :
    BindingConfig.ofWritten? levels (.string s) = none := by
  cases levels <;> rfl

/-- The first item of a binding's array is a string. -/
theorem BindingConfig.exists_string (h : BindingConfig.ofWritten? levels (.array items) = some c) :
    ∃ s rest, items = .string s :: rest := by
  cases levels with
  | zero => exact absurd h nofun
  | succ l =>
    obtain ⟨generate, validator, _, _, hfields, hgenerate, hvalidator, -⟩ :=
      BindingConfig.ofWritten?_eq_some_iff.1 h
    cases items with
    | nil =>
      have htail := (List.cons.inj (Option.some.inj hfields)).2
      obtain rfl : none = validator := (List.cons.inj htail).1
      exact absurd hvalidator nofun
    | cons item rest =>
      rw [fields?] at hfields
      split at hfields
      · obtain rfl : some item = generate := (List.cons.inj (Option.some.inj hfields)).1
        cases item with
        | string s => exact ⟨s, rest, rfl⟩
        | _ => exact absurd hgenerate nofun
      · exact absurd hfields nofun

/-- **Nothing is a binding and a group of them**: a string is no binding. -/
theorem BindingConfig.not_group (h : BindingConfig.ofWritten? levels w = some c) :
    w.list? BindingConfig.ofWritten? levels = none := by
  cases w with
  | array items =>
    obtain ⟨s, rest, rfl⟩ := BindingConfig.exists_string h
    cases levels with
    | zero => rfl
    | succ l => rw [list?, List.mapM_cons, BindingConfig.ofWritten?_string]; rfl
  | _ => cases levels <;> rfl

/-- The same as `BindingEntry.ofWritten?`, but with the group tried first. -/
def BindingEntry.ofWrittenGroupFirst? (levels : Nat) (w : Written) : Option BindingEntry := do
  let _ ← w.value? levels
  (w.list? BindingConfig.ofWritten? levels).map .group <|> (BindingConfig.ofWritten? levels w).map .single

/-- So it makes no difference which of the two is tried first. -/
theorem BindingEntry.ofWritten?_eq_groupFirst (levels : Nat) (w : Written) :
    BindingEntry.ofWritten? levels w = BindingEntry.ofWrittenGroupFirst? levels w := by
  rw [ofWritten?, ofWrittenGroupFirst?]
  cases hc : BindingConfig.ofWritten? levels w with
  | some c => rw [BindingConfig.not_group hc]; rfl
  | none => cases w.list? BindingConfig.ofWritten? levels <;> rfl

/-! ## Records -/

/-- A binding is read from what is written of it, two levels above its options. -/
theorem BindingConfig.ofWritten?_toJson (h : ∀ m ∈ c.options.entries, m.2.Legible levels) :
    BindingConfig.ofWritten? (levels + 2) c.toJson.written = some c := by
  refine BindingConfig.ofWritten?_eq_some_iff.2 ⟨_, _, _, _, rfl, rfl, rfl, ?_, ?_⟩
  · exact Json.valueTable?_written h
  · exact Json.stringTable?_written levels c.errors

theorem BindingConfig.legible_toJson (h : ∀ m ∈ c.options.entries, m.2.Legible levels) :
    c.toJson.Legible (levels + 2) := by
  refine .object (by decide : BindingConfig.fieldNames.Nodup) ?_
  simp only [List.forall_mem_cons]
  exact ⟨.string _, .string _, .ofTable h, .ofTable fun _ _ => .string _, List.forall_mem_nil _⟩

/-- Every option can be read with the levels that are left inside a binding of a group; a binding by
itself leaves one more. -/
def BindingEntry.Fits (levels : Nat) : BindingEntry → Prop
  | single c => ∀ m ∈ c.options.entries, m.2.Legible (levels + 1)
  | group cs => ∀ c ∈ cs, ∀ m ∈ c.options.entries, m.2.Legible levels

theorem BindingEntry.legible_toJson {part : BindingEntry} (h : part.Fits levels) :
    part.toJson.Legible (levels + 3) := by
  cases part with
  | single c => exact BindingConfig.legible_toJson h
  | group cs =>
    refine .array (List.forall_mem_map.2 fun c hc => ?_)
    exact BindingConfig.legible_toJson (h c hc)

/-- A part is read as what it is, a binding or a group. -/
theorem BindingEntry.ofWritten?_toJson {part : BindingEntry} (h : part.Fits levels) :
    BindingEntry.ofWritten? (levels + 3) part.toJson.written = some part := by
  rw [ofWritten?, Json.value?_written (BindingEntry.legible_toJson h), Option.bind_eq_bind,
    Option.bind_some]
  cases part with
  | single c =>
    rw [toJson, BindingConfig.ofWritten?_toJson h]
    rfl
  | group cs =>
    have hgroup : list? BindingConfig.ofWritten? (levels + 3) (toJson (.group cs)).written = some cs :=
      Json.list?_written fun c hc => BindingConfig.ofWritten?_toJson (h c hc)
    have hsingle : BindingConfig.ofWritten? (levels + 3) (toJson (.group cs)).written = none := by
      refine Option.eq_none_iff_forall_ne_some.2 fun c hc => ?_
      exact absurd (hgroup.symm.trans (BindingConfig.not_group hc)) nofun
    rw [hsingle, hgroup]
    rfl

namespace RuleEntry

variable {e : RuleEntry}

/-- The nodes are machine words, and every part fits. -/
structure Fits (levels : Nat) (e : RuleEntry) : Prop where
  nodes {ns : List Nat} (h : e.elements = some ns) : ∀ n ∈ ns, n < 2 ^ 64
  parts : ∀ part ∈ e.bindings, part.Fits levels

/-- The nodes as they are written. -/
def nodesJson (ns : List Nat) : Json := .array (ns.map fun (n : Nat) => .int n)

/-- The fields of an entry that are written, and those that are left away. -/
theorem fields?_toJson (e : RuleEntry) : fields? fieldNames e.toJson.written =
    some [
      e.selector.map .string, e.elements.map fun ns => (nodesJson ns).written,
      some (.string e.event), some (.bool e.either), some (.bool e.addMessages),
      some (Json.array (e.bindings.map (·.toJson))).written] := by
  obtain ⟨selector, elements, event, either, addMessages, bindings⟩ := e
  cases selector <;> cases elements <;> rfl

theorem nat?_written (n : Nat) : nat? (Json.int n).written = some n := by
  rw [Json.written, nat?, if_pos (Int.natCast_nonneg n), Int.toNat_natCast]

/-- An entry is read from what is written of it. -/
theorem ofWritten?_toJson (h : e.Fits levels) :
    RuleEntry.ofWritten? (levels + 5) e.toJson.written = some e := by
  have hselector : orDefault none (nullable? string?) (e.selector.map .string) =
      some e.selector := Json.orDefault_nullable_string e.selector
  have helements : orDefault none (nullable? (list? (fun _ => nat?) (levels + 4)))
      (e.elements.map fun ns => (nodesJson ns).written) = some e.elements := by
    cases e.elements with
    | none => rfl
    | some ns =>
      have hnodes : list? (fun _ => nat?) (levels + 4) (nodesJson ns).written = some ns :=
        Json.list?_written fun n _ => nat?_written n
      exact congrArg (Option.map some) hnodes
  have hbindings : orDefault [] (list? BindingEntry.ofWritten? (levels + 4))
      (some (Json.array (e.bindings.map (·.toJson))).written) = some e.bindings :=
    Json.list?_written fun part hpart => BindingEntry.ofWritten?_toJson (h.parts part hpart)
  rw [ofWritten?.eq_def, fields?_toJson]
  simp only [hselector, helements, hbindings]
  rfl

theorem legible_toJson (h : e.Fits levels) : e.toJson.Legible (levels + 5) := by
  have hparts : (Json.array (e.bindings.map (·.toJson))).Legible (levels + 4) :=
    .array (List.forall_mem_map.2 fun part hpart => BindingEntry.legible_toJson (h.parts part hpart))
  have hnodes (ns : List Nat) (hns : e.elements = some ns) :
      (nodesJson ns).Legible (levels + 4) := by
    refine .array (List.forall_mem_map.2 fun n hn => .int (by omega) ?_)
    have hlt := h.nodes hns n hn
    omega
  rw [toJson]
  refine .object ?_ ?_
  · rw [List.map_append, List.map_append]
    refine List.Nodup.sublist (((Json.names_memberIf _ _ _).append
      (Json.names_memberIf _ _ _)).append (List.Sublist.refl _)) (by decide : fieldNames.Nodup)
  · rw [List.forall_mem_append, List.forall_mem_append, Json.forall_mem_memberIf,
      Json.forall_mem_memberIf]
    refine ⟨⟨fun _ _ => .string _, hnodes⟩, ?_⟩
    simp only [List.forall_mem_cons]
    exact ⟨.string _, .bool _, .bool _, hparts, List.forall_mem_nil _⟩

end RuleEntry

namespace RulesFile

variable {f : RulesFile}

/-- Every entry fits, an option of a group's binding being seven levels down. -/
def Fits (f : RulesFile) : Prop := ∀ e ∈ f.entries, e.Fits (Written.maxDepth - 7)

theorem legible_toJson (h : f.Fits) : f.toJson.Legible Written.maxDepth := by
  refine .object (List.nodup_singleton _) (List.forall_mem_singleton.2 ?_)
  refine .array (List.forall_mem_map.2 fun e he => ?_)
  exact RuleEntry.legible_toJson (h e he)

theorem ofWritten?_toJson (h : f.Fits) : ofWritten? f.toJson.written = some f := by
  have hentries : list? RuleEntry.ofWritten? (Written.maxDepth - 1)
      (Json.array (f.entries.map (·.toJson))).written = some f.entries :=
    Json.list?_written fun e he => RuleEntry.ofWritten?_toJson (h e he)
  exact congrArg (Option.map mk) hentries

/-- **A file comes back from its text.** -/
theorem ofText?_text (h : f.Fits) : ofText? f.text = some f := by
  rw [ofText?, text, Written.ofText?_of_prints (legible_toJson h) .pretty]
  exact ofWritten?_toJson h

/-- **Files come back**, as nothing written is a binding and a group of them, whichever of the two is
tried first. -/
theorem comes_back (f : RulesFile) :
    (f.Fits → ofText? f.text = some f) ∧
    (∀ levels w c cs, ¬ (BindingConfig.ofWritten? levels w = some c ∧
      list? BindingConfig.ofWritten? levels w = some cs)) ∧
    ∀ levels w, BindingEntry.ofWritten? levels w = BindingEntry.ofWrittenGroupFirst? levels w := by
  refine ⟨ofText?_text, ?_, BindingEntry.ofWritten?_eq_groupFirst⟩
  rintro levels w c cs ⟨hc, hcs⟩
  exact absurd (hcs.symm.trans (BindingConfig.not_group hc)) nofun

/-- One half, the value of `0.5`. -/
def half : Binary64 := .ofDecimal false 5 (-1)

theorem readsBack_half : Json.ReadsBack half := by
  have hscale : Json.NumberText.scale (Binary64.ofNat 5) (-1) = some half := by
    rw [Json.NumberText.scale]
    decide +kernel
  refine ⟨⟨false, ['0'], some ['5'], none⟩, by decide +kernel, ?_⟩
  exact congrArg (Option.map Json.float) hscale

def nestedOptions : Options :=
  ⟨[
    ("min", .float half), ("targets", .array [.string "a\"\n", .null]),
    ("range", .object [("max", .int (-30)), ("open", .bool true)])], by decide⟩

/-- An entry without a target that counts, and one with a binding, an empty group and a group. -/
def mixedFile : RulesFile :=
  let first : BindingConfig := ⟨"warning", "range", nestedOptions, ⟨[("min", "too small")], by decide⟩⟩
  let second : BindingConfig := ⟨"error", "number", .empty, .empty⟩
  ⟨[
    ⟨some " ", some [], "change", false, false, []⟩,
    ⟨none, some [3, 4], "input", true, true, [.single first, .group [], .group [second, first]]⟩]⟩

theorem legible_nestedOptions (levels : Nat) :
    ∀ m ∈ nestedOptions.entries, m.2.Legible (levels + 1) := by
  have hrange : Json.Legible (levels + 1) (.object [("max", .int (-30)), ("open", .bool true)]) := by
    refine .object (by decide) ?_
    simp only [List.forall_mem_cons]
    exact ⟨.int (by decide) (by decide), .bool true, List.forall_mem_nil _⟩
  have htargets : Json.Legible (levels + 1) (.array [.string "a\"\n", .null]) := by
    refine .array ?_
    simp only [List.forall_mem_cons]
    exact ⟨.string _, .null, List.forall_mem_nil _⟩
  simp only [nestedOptions, List.forall_mem_cons]
  exact ⟨.float readsBack_half, htargets, hrange, List.forall_mem_nil _⟩

theorem fits_mixedFile : mixedFile.Fits := by
  refine List.forall_mem_cons.2 ⟨?_, List.forall_mem_singleton.2 ?_⟩
  · refine ⟨fun h => ?_, List.forall_mem_nil _⟩
    obtain rfl := Option.some.inj h
    exact List.forall_mem_nil _
  · refine ⟨fun h => ?_, ?_⟩
    · obtain rfl := Option.some.inj h
      decide
    · simp only [List.forall_mem_cons]
      refine ⟨legible_nestedOptions _, List.forall_mem_nil _, ?_, List.forall_mem_nil _⟩
      simp only [BindingEntry.Fits, List.forall_mem_cons]
      exact ⟨List.forall_mem_nil _, legible_nestedOptions _, List.forall_mem_nil _⟩

theorem mixedFile_comes_back : mixedFile.Fits ∧ ofText? mixedFile.text = some mixedFile :=
  ⟨fits_mixedFile, (comes_back mixedFile).1 fits_mixedFile⟩

end RulesFile

end TreeRules
