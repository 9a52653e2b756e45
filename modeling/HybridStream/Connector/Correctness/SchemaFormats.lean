import HybridStream.Common.Schema
import HybridStream.Connector.SchemaRegistry
import HybridStream.Py.Collections

/-!
# `Connector.Correctness.SchemaFormats` — the two schema loaders read different formats

The files of `schema-registry/schemas` name the class `operator_class` and list the fields as objects
(`InFormat`). The Python registry reads them so (`read_inFormat`). The Java registry looks for
`operator_type` and casts the fields to a map, so it rejects every such file (`loadSchema_inFormat`): a
directory of them registers nothing.

The disagreement does not depend on the other entries of a document: `InFormat` fixes what the format asks for and
leaves the rest open, and an additional `operator_type` only moves the check that fails.
-/

namespace HybridStream
namespace Connector

open Lib Py

variable {F : Type} {doc : Record F} {schema : Common.Schema}

/-! ## The format, and how Python reads it

The format of the checked-in schema files, as a property of documents that leaves their other entries open, and the
reading of it in Python. -/

/-- A document in the format of `schema-registry/schemas`, declaring `schema`. -/
structure InFormat (doc : Record F) (schema : Common.Schema) : Prop where
  version  : doc.get "schema_version" = some (.int schema.schemaVersion)
  positive : 0 < schema.schemaVersion
  class_   : doc.get "operator_class" = some (.str schema.operatorClass)
  named    : isBlank schema.operatorClass = false
  fields   : ∃ defs : List (Record F), doc.get "fields" = some (.list (defs.map Record.toValue)) ∧
               List.Forall₂ (fun d name => d.get "name" = some (.str name) ∧ d.contains "type" = true)
                 defs schema.fields

/-- `doc[key]` -/
def item (doc : Record F) (key : String) : Except PyError (Value F) :=
  match doc.get key with
  | some v => .ok v
  | none   => .error ⟨.keyError, s!"'{key}'"⟩

/-- `schema["schema_version"]`, packed as an integer. -/
def versionOf : Value F → Except PyError Int
  | .int i => .ok i
  | _      => .error ⟨.structError, "required argument is not an integer"⟩

/-- `[field["name"] for field in schema["fields"]]` -/
def fieldNames : Value F → Except PyError (List String)
  | .list defs => defs.mapM fun d => do (← item (← d.recordOf) "name").textOf
  | _          => .error ⟨.typeError, "object is not iterable"⟩

/-- A schema document as `register_all_from_dir`, `serialize` and `deserialize` read it; loading it checks
    nothing. -/
def readSchema (doc : Record F) : Except PyError Common.Schema := do
  let version ← versionOf (← item doc "schema_version")
  let operatorClass ← (← item doc "operator_class").textOf
  let fields ← fieldNames (← item doc "fields")
  .ok ⟨version, operatorClass, fields⟩

theorem item_eq {key : String} {v : Value F} (h : doc.get key = some v) : item doc key = .ok v := by
  unfold item
  rw [h]

/-- **Python reads the schema a document declares.** -/
theorem read_inFormat (h : InFormat doc schema) : readSchema doc = .ok schema := by
  obtain ⟨defs, hdefs, hall⟩ := h.fields
  have hnames : fieldNames (.list (defs.map Record.toValue)) = .ok schema.fields := by
    apply mapM_of_forall₂
    rw [List.forall₂_map_left_iff]
    refine hall.imp fun d name hd => ?_
    rw [Record.recordOf_toValue]
    exact bind_eq_ok.mpr ⟨d, rfl, bind_eq_ok.mpr ⟨.str name, item_eq hd.1, rfl⟩⟩
  unfold readSchema
  rw [item_eq h.version, item_eq h.class_, item_eq hdefs]
  calc (do
          let version ← versionOf (.int schema.schemaVersion : Value F)
          let operatorClass ← (Value.str schema.operatorClass : Value F).textOf
          let fields ← fieldNames (.list (defs.map Record.toValue))
          .ok (⟨version, operatorClass, fields⟩ : Common.Schema))
      = fieldNames (.list (defs.map Record.toValue)) >>= fun fields =>
          .ok ⟨schema.schemaVersion, schema.operatorClass, fields⟩ := rfl
    _ = .ok schema := by rw [hnames]; rfl

/-! ## How Java reads it

Java asks for other names and for another shape of the fields. Every document of the format fails one of its checks,
and loading stops there. -/

namespace SchemaRegistry

variable [PyRuntime F]

/-- The Java registry takes the document over as Python reads it: the version of the class is supported and
    its schema has the same fields. -/
def LoadsAlike (r : SchemaRegistry F) (fileName : String) (doc : Record F) (schema : Common.Schema) : Prop :=
  ∃ r' fields, (loadSchema fileName doc).exec r = (.ok ⟨⟩, r') ∧
    r'.isVersionSupported schema.operatorClass schema.schemaVersion = true ∧
    r'.getSchema schema.operatorClass = .ok fields ∧ ∀ name, name ∈ fields.keys ↔ name ∈ schema.fields

/-- **Java rejects every document in the format**, even one that has an `operator_type` besides. -/
theorem loadSchema_inFormat (h : InFormat doc schema) (fileName : String) (r : SchemaRegistry F) :
    ∃ e, (loadSchema fileName doc).exec r = (.error e, r) := by
  cases hparse : parseSchema fileName doc with
  | error e =>
      refine ⟨e, ?_⟩
      unfold loadSchema
      rw [hparse]
      rfl
  | ok parsed =>
      obtain ⟨operatorType, version, fields⟩ := parsed
      -- Java casts `fields` to a map where the format has a list
      obtain ⟨-, -, -, -, kvs, hkvs, -⟩ := parseSchema_eq_ok hparse
      obtain ⟨defs, hdefs, -⟩ := h.fields
      rw [hdefs] at hkvs
      cases hkvs

theorem not_loadsAlike (h : InFormat doc schema) (fileName : String) (r : SchemaRegistry F) :
    ¬ LoadsAlike r fileName doc schema := by
  rintro ⟨r', fields, hload, -⟩
  obtain ⟨e, he⟩ := loadSchema_inFormat h fileName r
  rw [he] at hload
  cases hload

/-- A directory of documents in the format registers nothing: loading stops at the first. -/
theorem loadFromDirectory_inFormat (schemaDir : String) {files : List (String × Record F)}
    (h : ∀ file ∈ files, ∃ schema, InFormat file.2 schema) (r : SchemaRegistry F) :
    ((loadFromDirectory schemaDir (some files)).exec r).2 = r := by
  cases files with
  | nil => rfl
  -- the exception leaves the loop with the first file
  | cons file files =>
      obtain ⟨schema, hschema⟩ := h file List.mem_cons_self
      obtain ⟨e, he⟩ := loadSchema_inFormat hschema file.1 r
      have hfirst : loadFromDirectory schemaDir (some (file :: files)) =
          (do loadSchema file.1 file.2; files.forM fun file => loadSchema file.1 file.2) := rfl
      rw [hfirst, Proc.exec_bind, he]

/-- **The loaders agree on no document of the format.** Python reads the schema it declares; Java throws and leaves its
    registry as it was, so a registry loaded from a directory of such documents supports no version of any class. The
    format calls the type `operator_class`, and a missing `operator_type` is the first of the checks of `loadSchema`. -/
theorem loaders_disagree (h : InFormat doc schema) :
    readSchema doc = .ok schema ∧
      (∀ fileName (r : SchemaRegistry F),
        (∃ e, (loadSchema fileName doc).exec r = (.error e, r)) ∧ ¬ LoadsAlike r fileName doc schema) ∧
      ∀ schemaDir (files : List (String × Record F)), (∀ file ∈ files, ∃ schema, InFormat file.2 schema) →
        ∀ cls version,
          ((loadFromDirectory schemaDir (some files)).exec new).2.isVersionSupported cls version = false := by
  refine ⟨read_inFormat h, fun fileName r => ⟨loadSchema_inFormat h fileName r, not_loadsAlike h fileName r⟩, ?_⟩
  intro schemaDir files hfiles cls version
  rw [loadFromDirectory_inFormat schemaDir hfiles]
  unfold isVersionSupported
  split
  · rfl
  · rfl

/-! ## `schema-registry/schemas/v1/RiskCheck.json`

One of the files, for which the result is an instance. -/

/-- A field of the file, less its description. -/
def fieldDef (name type : String) : Record ℚ :=
  Dict.ofList [("name", .str name), ("type", .str type), ("nullable", .bool false)]

/-- The file. -/
def riskCheck : Record ℚ :=
  Dict.ofList
    [ ("schema_version", .int 1),
      ("operator_class", .str "RiskCheck"),
      ("fields", .list
        [ (fieldDef "rule_id" "str").toValue, (fieldDef "position_cache" "map[str, float64]").toValue,
          (fieldDef "watermark_ms" "int64").toValue,
          (fieldDef "kafka_offset_map" "map[int32, int64]").toValue ]) ]

/-- What it declares. -/
def riskCheckSchema : Common.Schema :=
  ⟨1, "RiskCheck", ["rule_id", "position_cache", "watermark_ms", "kafka_offset_map"]⟩

theorem riskCheck_inFormat : InFormat riskCheck riskCheckSchema where
  version  := rfl
  positive := by decide
  class_   := rfl
  named    := by decide
  fields   := by
    refine ⟨[fieldDef "rule_id" "str", fieldDef "position_cache" "map[str, float64]",
      fieldDef "watermark_ms" "int64", fieldDef "kafka_offset_map" "map[int32, int64]"], rfl, ?_⟩
    exact .cons ⟨rfl, rfl⟩ (.cons ⟨rfl, rfl⟩ (.cons ⟨rfl, rfl⟩ (.cons ⟨rfl, rfl⟩ .nil)))

theorem loaders_disagree_riskCheck : ¬ LoadsAlike new "RiskCheck.json" riskCheck riskCheckSchema :=
  ((loaders_disagree riskCheck_inFormat).2.1 "RiskCheck.json" new).2

/-- The Java registry does not take the file over. -/
theorem riskCheck_not_loaded :
    InFormat riskCheck riskCheckSchema ∧ readSchema riskCheck = .ok riskCheckSchema ∧
      ¬ LoadsAlike new "RiskCheck.json" riskCheck riskCheckSchema :=
  ⟨riskCheck_inFormat, read_inFormat riskCheck_inFormat, not_loadsAlike riskCheck_inFormat "RiskCheck.json" new⟩

end SchemaRegistry

end Connector
end HybridStream
