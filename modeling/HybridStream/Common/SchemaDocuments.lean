import HybridStream.Common.SchemaCache
import HybridStream.Py.Collections

/-!
# `Common.SchemaDocuments` — schemas as the JSON that was parsed

`get_schema` returns whatever JSON `_load` has parsed, and the comprehension of `deserialize` is the first to look into
it: `schema["fields"]`, then `f["name"]` of each item, which becomes a key of the result and is asked of the payload.
A document that is no schema raises there, not in the registry. Here the documents are Python values; where they are
the JSON of schemas, this is `Common.SchemaCache` (`exec_deserializeDocument`).
-/

namespace HybridStream
namespace Common

open Lib Py

variable {F : Type} [PyRuntime F]

/-- `f["name"]`, hashed as a key has to be. -/
def fieldName (f : Value F) : Except PyError (Value F) := do (← f.subscript "name").asKey

/-- `[f["name"] for f in schema["fields"]]` -/
def fieldNames (document : Value F) : Except PyError (List (Value F)) := do
  let fields ← (← document.subscript "fields").iterate
  fields.mapM fieldName

/-- `{f["name"]: doc.get(f["name"]) for f in schema["fields"]}` -/
def Unpacked.comprehension (u : Unpacked F) (document : Value F) : Except PyError (Dict (Value F) (Value F)) := do
  let names ← fieldNames document
  .ok (Dict.ofList (names.map (fun name => (name, (lookupEntry name u.doc).getD .none))))

/-- `deserialize` -/
def deserializeDocument (mp : MessagePack F) (data : List UInt8) :
    Proc PyError (CachedRegistry (Value F)) (Dict (Value F) (Value F)) :=
  CachedRegistry.deserializeBy Unpacked.comprehension mp data

/-! ## The documents of schemas

The two readers agree on them: the names are texts, which can be keys, and a text is a key of the payload's map where
it is one of the record. -/

/-- The JSON of a schema, as far as anybody reads it. -/
def Schema.toJson (schema : Schema) : Value F :=
  .dict [(.str "schema_version", .int schema.schemaVersion), (.str "operator_class", .str schema.operatorClass),
    (.str "fields", .list (schema.fields.map (fun name => .dict [(.str "name", .str name)])))]

/-- A record with its keys as values. -/
def textKeys (record : Record F) : Dict (Value F) (Value F) :=
  Dict.ofList (record.entries.map (fun e => (.str e.1, e.2)))

theorem fieldNames_toJson (schema : Schema) :
    fieldNames (schema.toJson : Value F) = .ok (schema.fields.map Value.str) := by
  have hitems : (schema.fields.map (fun name => (.dict [(.str "name", .str name)] : Value F))).mapM fieldName =
      .ok (schema.fields.map Value.str) := by
    apply mapM_of_forall₂
    rw [List.forall₂_map_left_iff, List.forall₂_map_right_iff, List.forall₂_same]
    intro name _
    simp [fieldName, Value.subscript, lookupEntry, Value.asKey, Value.hashable, bind, Except.bind]
  exact hitems

/-- Setting an entry under a text is setting it under the text as a value. -/
theorem setEntry_str (name : String) (v : Value F) (es : List (String × Value F)) :
    setEntry (.str name) v (es.map (fun e => ((.str e.1 : Value F), e.2))) =
      (setEntry name v es).map (fun e => ((.str e.1 : Value F), e.2)) := by
  induction es with
  | nil => rfl
  | cons e es ih =>
      rw [List.map_cons, setEntry, setEntry, ih, Value.beq_str]
      split <;> rfl

theorem entries_ofList_str (es : List (String × Value F)) :
    (Dict.ofList (es.map (fun e => ((.str e.1 : Value F), e.2)))).entries =
      (Dict.ofList es).entries.map (fun e => ((.str e.1 : Value F), e.2)) := by
  unfold Dict.ofList
  rw [Dict.entries_update, Dict.entries_update]
  show List.foldl _ [] _ = List.map _ (List.foldl _ [] es)
  generalize hnil : ([] : List (String × Value F)) = acc
  have hacc : ([] : List (Value F × Value F)) = acc.map (fun e => ((.str e.1 : Value F), e.2)) := by rw [← hnil]; rfl
  rw [hacc]
  clear hnil hacc
  induction es generalizing acc with
  | nil => rfl
  | cons e es ih => rw [List.map_cons, List.foldl_cons, List.foldl_cons, setEntry_str, ih]

theorem comprehension_toJson (u : Unpacked F) (schema : Schema) :
    u.comprehension schema.toJson = .ok (textKeys (u.select schema)) := by
  unfold Unpacked.comprehension textKeys Unpacked.select
  rw [fieldNames_toJson, ← entries_ofList_str, Dict.ofList_entries, List.map_map]
  show Except.ok (Dict.ofList ((schema.fields.map Value.str).map _)) = _
  rw [List.map_map]
  rfl

/-- **Where all documents are schemas, `deserialize` is what it is over schemas.** -/
theorem exec_deserializeDocument (mp : MessagePack F) {r : CachedRegistry Schema} {r' : CachedRegistry (Value F)}
    (hr : r.Agrees) (hr' : r'.Agrees)
    (hload : ∀ cls v, r'.load cls v = (r.load cls v).map (Option.map Schema.toJson)) (data : List UInt8) :
    ((deserializeDocument mp data).exec r').1 = (((CachedRegistry.deserialize mp data).exec r).1).map textKeys := by
  unfold deserializeDocument CachedRegistry.deserialize
  cases hunpack : unpack mp data with
  | error e =>
      rw [CachedRegistry.exec_deserializeBy_error hunpack, CachedRegistry.exec_deserializeBy_error hunpack]
      rfl
  | ok u =>
      rw [CachedRegistry.exec_deserializeBy_ok hunpack hr', CachedRegistry.exec_deserializeBy_ok hunpack hr, hload]
      rcases r.load u.operatorClass.toStr u.schemaVersion with e | _ | schema
      · rfl
      · rfl
      · exact comprehension_toJson u schema

end Common
end HybridStream
