import HybridStream.Connector.Jvm

/-!
# `Connector.SchemaRegistry` — the Java schema registry

`SchemaRegistry.java`. A schema file declares its operator type, its version and a map from field names to
field types. The casts to `Map<String, String>` are unchecked beyond `Map`, so field types are kept as the
values the file has.

Loading a file checks its entries one after the other and then writes two maps: the field map of the type, which
every further version replaces, and its versions, to which the version is added. The exception of a file that is not
accepted ends the loading of the directory.
-/

namespace HybridStream
namespace Connector

open Lib Py

variable {F : Type} [PyRuntime F]

/-- `SchemaRegistry`: the field map of each operator type, and the versions that were loaded for it. -/
structure SchemaRegistry (F : Type) where
  schemas           : Dict String (Record F)
  supportedVersions : Dict String (List Int)

namespace SchemaRegistry

/-- `new SchemaRegistry()`: nothing has been loaded. -/
def new : SchemaRegistry F := ⟨∅, ∅⟩

/-- A JSON object as a map; its keys are strings. -/
def mapOf (kvs : List (Value F × Value F)) : Record F := Dict.ofList (kvs.map (fun e => (e.1.toStr, e.2)))

/-- The checks of `loadSchema`: the type, the version and the fields a file declares. -/
def parseSchema (fileName : String) (raw : Record F) :
    Except JavaException (String × Int × Record F) := do
  let operatorType ← castString (raw.getD "operator_type" .none)
  match operatorType.filter (fun s => !isBlank s) with
  | none => .error (.io s!"Schema file missing 'operator_type' field: {fileName}")
  | some operatorType =>
      match wholeValue 32 (raw.getD "schema_version" .none) with
      | none => .error (.io s!"Schema file missing or non-numeric 'schema_version' field: {fileName}")
      | some version =>
          if version ≤ 0 then
            .error (.io
              s!"Invalid schema_version {version} in {fileName} — version must be a positive integer")
          else
            match raw.getD "fields" .none with
            | .none     => .error (.io s!"Schema file missing 'fields' field: {fileName}")
            | .dict kvs => .ok (operatorType, version, mapOf kvs)
            | _         => .error .classCast

/-- `loadSchema`; `raw` is the document of the file. -/
def loadSchema (fileName : String) (raw : Record F) : Proc JavaException (SchemaRegistry F) PUnit := do
  let (operatorType, version, fields) ← Proc.lift (parseSchema fileName raw)
  modify fun r =>
    { schemas           := r.schemas.set operatorType fields
      supportedVersions := r.supportedVersions.set operatorType
        (version :: (r.supportedVersions.getD operatorType []).erase version) }

/-- `loadFromDirectory`; `files` are the `.json` files of the directory itself, `none` if it is none. -/
def loadFromDirectory (schemaDir : String) :
    Option (List (String × Record F)) → Proc JavaException (SchemaRegistry F) PUnit
  | none       => throw (.io s!"Schema directory not found or empty: {schemaDir}")
  | some files => files.forM fun file => loadSchema file.1 file.2

/-- `isVersionSupported`: of the versions that were loaded, and never one that is not positive. -/
def isVersionSupported (r : SchemaRegistry F) (operatorType : String) (version : Int) : Bool :=
  if version ≤ 0 then false
  else match r.supportedVersions.get operatorType with
    | some versions => versions.contains version
    | none          => false

/-- `getSupportedVersions`; a set, here in the order of loading. -/
def getSupportedVersions (r : SchemaRegistry F) (operatorType : String) : List Int :=
  r.supportedVersions.getD operatorType []

/-- `getSchema`: the field map of the type, whichever version it came with. -/
def getSchema (r : SchemaRegistry F) (operatorType : String) :
    Except JavaException (Record F) :=
  match r.schemas.get operatorType with
  | some schema => .ok schema
  | none        => .error (.illegalArgument s!"No schema found for operator type: {operatorType}")

/-! ## What a file that is accepted has

The checks of `loadSchema` read backwards. -/

/-- An accepted file declares its fields as a map, under a type and a positive version. -/
theorem parseSchema_eq_ok {fileName : String} {raw : Record F} {operatorType : String} {version : Int}
    {fields : Record F} (h : parseSchema fileName raw = .ok (operatorType, version, fields)) :
    raw.get "operator_type" = some (.str operatorType) ∧ isBlank operatorType = false ∧ 0 < version ∧
      wholeValue 32 (raw.getD "schema_version" .none) = some version ∧
      ∃ kvs, raw.get "fields" = some (.dict kvs) ∧ fields = mapOf kvs := by
  obtain ⟨name, hname, h⟩ := bind_eq_ok.mp h
  split at h
  · cases h
  · rename_i hfilter
    obtain ⟨rfl, hblank⟩ := Option.filter_eq_some_iff.mp hfilter
    split at h
    · cases h
    · rename_i version' hversion
      split at h
      · cases h
      · rename_i hpositive
        split at h
        · cases h
        · rename_i kvs hfields
          cases h
          refine ⟨?_, by simpa using hblank, not_le.mp hpositive, hversion, kvs, ?_, rfl⟩
          · exact Dict.get_of_getD_ne (castString_eq_some hname) (by simp)
          · exact Dict.get_of_getD_ne hfields (by simp)
        · cases h

end SchemaRegistry

end Connector
end HybridStream
