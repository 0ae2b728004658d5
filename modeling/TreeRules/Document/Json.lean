import TreeRules.Document.Spec
import TreeRules.Json.Reader
import TreeRules.Json.Record

/-!
# Document/Json — element descriptions in JSON

A description is a record of `tag`, `id`, `class`, `attributes`, `value` and `children`, of which
only the tag must be given.  Written out, a missing identifier or class text, an empty attribute
table and an empty list of children are left away.
-/

namespace TreeRules

namespace ElementSpec

def fieldNames : List String := ["tag", "id", "class", "attributes", "value", "children"]

/-- The description that is written, nested at most `levels` deep. -/
def ofWritten? : Nat → Json.Written → Option ElementSpec
  | 0, _ => none
  | l + 1, w =>
    match w.fields? fieldNames with
    | some [tag, id, classText, attributes, value, children] => do
      let tag ← Json.Written.required Json.Written.string? tag
      let id ← Json.Written.orDefault none (Json.Written.nullable? Json.Written.string?) id
      let classText ←
        Json.Written.orDefault none (Json.Written.nullable? Json.Written.string?) classText
      let attributes ← Json.Written.orDefault .empty (Json.Written.stringTable? l) attributes
      let value ← Json.Written.orDefault "" Json.Written.string? value
      let children ← match children, l with
        | none, _ => some []
        | some (.array items), l' + 1 => items.mapM (ofWritten? l')
        | some _, _ => none
      return ⟨tag, id, classText, attributes, value, children⟩
    | _ => none

mutual

def toJson : ElementSpec → Json
  | ⟨tag, id, classText, attributes, value, children⟩ =>
    .object <|
      [("tag", .string tag)] ++
      (match id with | some t => [("id", .string t)] | none => []) ++
      (match classText with | some t => [("class", .string t)] | none => []) ++
      (if attributes.isEmpty then [] else [("attributes", .ofTable .string attributes)]) ++
      [("value", .string value)] ++
      (match children with
        | [] => []
        | c :: rest => [("children", .array (c.toJson :: toJsons rest))])

def toJsons : List ElementSpec → List Json
  | [] => []
  | s :: rest => s.toJson :: toJsons rest

end

end ElementSpec

namespace Document

/-- The document of a written list of descriptions. -/
def ofWritten? (w : Json.Written) : Option Document :=
  (w.list? ElementSpec.ofWritten? Json.Written.maxDepth).map ofSpecs

/-- The document that a text describes. -/
def ofText? (text : String) : Option Document :=
  (Json.Written.ofText? text).bind ofWritten?

end Document

end TreeRules
