import TreeRules.Document.Json
import TreeRules.Proofs.Document.Placing
import TreeRules.Proofs.Json.Record

/-!
# Proofs/Document/RoundTrip — descriptions of elements come back from their text

Four fields of a description may be left away, and each for one thing only: the identifier and the
class text if there are none, the attributes and the children if there are none in them.  So an empty
identifier, which is written, is not taken for a missing one, although the elements of both are the
same.  What is read into a missing field is what it was left away for, and by induction on the tree a
description is read from what is written of it, with as many levels as that is deep
(`ElementSpec.comesBack`).  A list of descriptions comes back with them, and so does the document
that it builds (`ElementSpec.texts_reread`).
-/

namespace TreeRules

attribute [ext] ElementSpec

open Json (ComesBack Written)
open Json.Written (fields? list? nullable? orDefault required string? stringTable?)

namespace ElementSpec

variable {s t : ElementSpec} {l : Nat} {w : Written}

/-! ## What is written -/

/-- The attributes, if there are any. -/
def attributes? (s : ElementSpec) : Option (Table String) :=
  if s.attributes.isEmpty then none else some s.attributes

/-- The children, if there are any. -/
def children? (s : ElementSpec) : Option (List ElementSpec) :=
  if s.children.isEmpty then none else some s.children

theorem getD_attributes? (s : ElementSpec) : s.attributes?.getD .empty = s.attributes := by
  rw [attributes?]
  split
  · next hnil => exact (Table.ext (List.isEmpty_iff.1 hnil)).symm
  · rfl

theorem getD_children? (s : ElementSpec) : s.children?.getD [] = s.children := by
  rw [children?]
  split
  · next hnil => exact (List.isEmpty_iff.1 hnil).symm
  · rfl

theorem mem_children_of_children? {cs : List ElementSpec} {c : ElementSpec}
    (h : s.children? = some cs) (hc : c ∈ cs) : c ∈ s.children := by
  rw [← getD_children?, h]
  exact hc

/-- A list of descriptions as it is written. -/
def listJson (ss : List ElementSpec) : Json := .array (ss.map toJson)

@[simp] theorem toJsons_eq_map (ss : List ElementSpec) : toJsons ss = ss.map toJson := by
  induction ss with
  | nil => rfl
  | cons s rest ih => rw [toJsons, ih, List.map_cons]

/-- The members of a description in order. -/
def members (s : ElementSpec) : List (String × Json) :=
  ("tag", .string s.tag) :: (Json.memberIf "id" .string s.id ++
    (Json.memberIf "class" .string s.classText ++
      (Json.memberIf "attributes" (.ofTable .string) s.attributes? ++
        ("value", .string s.value) :: Json.memberIf "children" listJson s.children?)))

theorem toJson_eq (s : ElementSpec) : s.toJson = .object s.members := by
  obtain ⟨tag, id, classText, attributes, value, children⟩ := s
  have hattributes : (if attributes.isEmpty then []
      else [("attributes", Json.ofTable .string attributes)]) =
      Json.memberIf "attributes" (.ofTable .string)
        (if attributes.isEmpty then none else some attributes) := by
    split <;> rfl
  rw [toJson.eq_def]
  simp only [hattributes, members, attributes?, children?]
  cases id <;> cases classText <;> cases children <;> simp [Json.memberIf, listJson]

theorem nodup_names (s : ElementSpec) : (s.members.map Prod.fst).Nodup := by
  have hnames : (s.members.map Prod.fst).Sublist fieldNames := by
    simp only [members, List.map_cons, List.map_append]
    exact .cons_cons _ ((Json.names_memberIf ..).append ((Json.names_memberIf ..).append
      ((Json.names_memberIf ..).append (.cons_cons _ (Json.names_memberIf ..)))))
  exact hnames.nodup (by decide)

/-! ## What is read -/

/-- Each field is there, or left away. -/
theorem fields?_toJson (s : ElementSpec) : fields? fieldNames s.toJson.written = some [
    some (.string s.tag), s.id.map .string, s.classText.map .string,
    s.attributes?.map fun t => (Json.ofTable .string t).written, some (.string s.value),
    s.children?.map fun cs => (listJson cs).written] := by
  rw [toJson_eq, members]
  cases s.id <;> cases s.classText <;> cases s.attributes? <;> cases s.children? <;> rfl

section

variable {tag id classText attributes value children : Option Written}

/-- A description is read field by field, the children like any list. -/
theorem ofWritten?_eq
    (h : w.fields? fieldNames = some [tag, id, classText, attributes, value, children]) :
    ofWritten? (l + 1) w = do
      return {
        tag := ← required Written.string? tag
        id := ← orDefault none (nullable? Written.string?) id
        classText := ← orDefault none (nullable? Written.string?) classText
        attributes := ← orDefault .empty (stringTable? l) attributes
        value := ← orDefault "" Written.string? value
        children := ← orDefault [] (list? ofWritten? l) children } := by
  rw [ofWritten?, h]
  cases children with
  | none => rfl
  | some v => cases v <;> cases l <;> rfl

theorem ofWritten?_eq_some_iff
    (h : w.fields? fieldNames = some [tag, id, classText, attributes, value, children]) :
    ofWritten? (l + 1) w = some s ↔
      required Written.string? tag = some s.tag ∧
      orDefault none (nullable? Written.string?) id = some s.id ∧
      orDefault none (nullable? Written.string?) classText = some s.classText ∧
      orDefault .empty (stringTable? l) attributes = some s.attributes ∧
      orDefault "" Written.string? value = some s.value ∧
      orDefault [] (list? ofWritten? l) children = some s.children := by
  obtain ⟨tag', id', classText', attributes', value', children'⟩ := s
  rw [ofWritten?_eq h]
  simp [Option.bind_eq_some_iff]

end

/-- A description is a level deeper than its attributes and its children. -/
theorem depth_toJson_le_iff : s.toJson.depth ≤ l + 1 ↔
    (∀ t, s.attributes? = some t → (Json.ofTable .string t).depth ≤ l) ∧
      ∀ cs, s.children? = some cs → (listJson cs).depth ≤ l := by
  have hstring (t : String) : (Json.string t).depth ≤ l := Nat.zero_le l
  rw [toJson_eq, Json.depth_object_le_iff, members]
  simp only [List.forall_mem_cons, List.forall_mem_append, Json.forall_mem_memberIf, hstring,
    implies_true, true_and]

/-- A description comes back if the list of its children does. -/
theorem comesBack_of_children
    (h : ∀ cs, s.children? = some cs → ComesBack (list? ofWritten?) listJson cs) :
    ComesBack ofWritten? toJson s where
  legible := by
    rw [toJson_eq]
    refine Json.legible_object s.nodup_names ?_
    simp only [members, List.forall_mem_cons, List.forall_mem_append, Json.forall_mem_memberIf]
    exact ⟨.string _, fun _ _ => .string _, fun _ _ => .string _,
      fun t _ => (ComesBack.table t).legible, .string _, fun cs hcs => (h cs hcs).legible⟩
  read_iff {levels t} := by
    cases levels with
    | zero =>
      rw [toJson_eq]
      exact iff_of_false nofun fun hdepth => Nat.not_succ_le_zero _ hdepth.1
    | succ l =>
      rw [ofWritten?_eq_some_iff s.fields?_toJson, Json.orDefault_nullable_string,
        Json.orDefault_nullable_string, ComesBack.orDefault_eq_some_iff fun t _ => .table t,
        ComesBack.orDefault_eq_some_iff h, getD_attributes?, getD_children?, depth_toJson_le_iff]
      constructor
      · rintro ⟨htag, hid, hclass, ⟨hinner, hattributes⟩, hvalue, hbelow, hchildren⟩
        exact ⟨⟨hinner, hbelow⟩, ElementSpec.ext (Option.some.inj htag) (Option.some.inj hid)
          (Option.some.inj hclass) hattributes (Option.some.inj hvalue) hchildren⟩
      · rintro ⟨⟨hinner, hbelow⟩, rfl⟩
        exact ⟨rfl, rfl, rfl, ⟨hinner, rfl⟩, rfl, hbelow, rfl⟩

/-- **A description comes back** from what is written of it. -/
theorem comesBack (s : ElementSpec) : ComesBack ofWritten? toJson s := by
  induction s using tree_induction with
  | node s ih =>
    refine comesBack_of_children fun cs hcs => .list fun c hc => ?_
    exact ih c (mem_children_of_children? hcs hc)

theorem comesBack_list (ss : List ElementSpec) : ComesBack (list? ofWritten?) listJson ss :=
  .list fun s _ => comesBack s

/-! ## Texts -/

/-- The description that a text writes. -/
def ofText? (text : String) : Option ElementSpec :=
  (Written.ofText? text).bind (ofWritten? Written.maxDepth)

/-- **Descriptions come back from their texts**, and so does the document that a list of them
builds, node by node — whether they are printed on one line or laid out, and unless what is printed,
the list itself included, is nested too deep to be read at all. -/
theorem texts_reread (text : String) :
    (∀ s : ElementSpec, s.toJson.Prints text →
      ofText? text = if s.toJson.depth ≤ Written.maxDepth then some s else none) ∧
    ∀ ss : List ElementSpec, (listJson ss).Prints text →
      Document.ofText? text =
        if (listJson ss).depth ≤ Written.maxDepth then some (Document.ofSpecs ss) else none := by
  refine ⟨fun s hs => (comesBack s).read_of_prints hs, fun ss hss => ?_⟩
  have hlist : (Written.ofText? text).bind (list? ofWritten? Written.maxDepth) =
      if (listJson ss).depth ≤ Written.maxDepth then some ss else none :=
    (comesBack_list ss).read_of_prints hss
  have hmap : Document.ofText? text =
      ((Written.ofText? text).bind (list? ofWritten? Written.maxDepth)).map Document.ofSpecs := by
    rw [Document.ofText?, Option.map_bind]
    rfl
  rw [hmap, hlist]
  split <;> rfl

/-- A form with an empty identifier, attributes out of order, and a field without class text beside
one whose class text is empty. -/
def mixedSpec : ElementSpec :=
  let first := ((ofTag "INPUT").withId "a").withValue "say \"1\"\n"
  let second := (ofTag "input").withClass ""
  (((((ofTag "form").withId "").withAttribute "title" "").withAttribute "class" "x").withChildren
    [first, second])

theorem mixedSpec_reread :
    (mixedSpec.toJson.Prints mixedSpec.toJson.compact ∧
      ofText? mixedSpec.toJson.compact = some mixedSpec) ∧
    (listJson [mixedSpec, mixedSpec]).Prints (listJson [mixedSpec, mixedSpec]).pretty ∧
      Document.ofText? (listJson [mixedSpec, mixedSpec]).pretty =
        some (Document.ofSpecs [mixedSpec, mixedSpec]) := by
  refine ⟨⟨.compact, ?_⟩, .pretty, ?_⟩
  · exact ((texts_reread _).1 mixedSpec .compact).trans (if_pos (by decide))
  · exact ((texts_reread _).2 [mixedSpec, mixedSpec] .pretty).trans (if_pos (by decide))

end ElementSpec

end TreeRules
