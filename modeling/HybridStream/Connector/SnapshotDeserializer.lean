import HybridStream.Connector.SchemaRegistry

/-!
# `Connector.SnapshotDeserializer` — snapshots as the Java side reads them

`SnapshotDeserializer.java`. `deserialize` checks the header against the registry and hands the payload to
Jackson's MessagePack mapper, which is a parameter; `translateToFlinkState` keeps the entries the schema of
the operator type names, each converted to its declared type.

A header that is no header, a version that is not supported and a payload that cannot be read are told apart by the
exception. The class that the payload names is not among the checks: the type is the one of the request.
-/

namespace HybridStream
namespace Connector

open Lib Py

variable {F : Type} [JavaRuntime F]

namespace SnapshotDeserializer

/-- `MAGIC`: the letters HSMP. -/
def magic : List UInt8 := [0x48, 0x53, 0x4d, 0x50]

/-- `HEADER_SIZE`: the magic and the two bytes of the version. -/
def headerSize : Nat := 6

/-- `msgpackMapper.readValue(payload, Map.class)`; `none` is `null`, which a payload of nil is read as. -/
abbrev Mapper (F : Type) := List UInt8 → Except JavaException (Option (Record F))

/-- `deserialize`: the length, the magic and the version are checked before the mapper sees the payload. -/
def deserialize (readValue : Mapper F) (registry : SchemaRegistry F) (snapshotBytes : List UInt8)
    (operatorType : String) : Except JavaException (Record F) :=
  match snapshotBytes with
  | m₀ :: m₁ :: m₂ :: m₃ :: high :: low :: payload => do
      if [m₀, m₁, m₂, m₃] ≠ magic then .error (.io "Invalid snapshot magic bytes — expected HSMP header")
      let schemaVersion : Int := high.toNat * 256 + low.toNat
      if !registry.isVersionSupported operatorType schemaVersion then
        .error (.io (s!"Unsupported schema version {schemaVersion} for operator type {operatorType}. " ++
          s!"Supported: {registry.getSupportedVersions operatorType}"))
      match ← readValue payload with
      | some state => .ok state
      | none       => .error .nullPointer
  | _ => .error (.io
      s!"Snapshot too small: {snapshotBytes.length} bytes, expected at least {headerSize}")

/-- `translateValue`; the declared type is cast to `String` as it is passed. -/
def translateValue (value schemaType : Value F) : Except JavaException (Value F) := do
  let schemaType ← castString schemaType
  match value, schemaType with
  | .none, _ => .ok .none
  | _, none  => .error .nullPointer
  | value, some "float" =>
      match doubleValue value with
      | some x => .ok (.float x)
      | none   => match JavaRuntime.parseDouble (textOf value) with
        | some x => .ok (.float x)
        | none   => .error .numberFormat
  | value, some "int" =>
      match wholeValue 64 value with
      | some i => .ok (.int i)
      | none   => match JavaRuntime.parseLong F (textOf value) with
        | some i => .ok (.int i)
        | none   => .error .numberFormat
  | .bool b, some "bool"     => .ok (.bool b)
  | .bool b, some "boolean"  => .ok (.bool b)
  | value, some "bool"       => .ok (.bool (parseBoolean (textOf value)))
  | value, some "boolean"    => .ok (.bool (parseBoolean (textOf value)))
  | value, some "str"        => .ok (.str (textOf value))
  | value, some "string"     => .ok (.str (textOf value))
  | value, _                 => .ok value

/-- The loop of `translateToFlinkState` over the entries, with the field map of the schema. -/
def translateWith (schema rawState : Record F) : Except JavaException (Record F) := do
  let result ← (rawState.entries.filter (fun e => schema.contains e.1)).mapM fun e => do
    .ok (e.1, ← translateValue e.2 (schema.getD e.1 .none))
  .ok (Dict.ofList result)

/-- `translateToFlinkState`: the fields that the schema of the type declares, each converted to its type. -/
def translateToFlinkState (registry : SchemaRegistry F) (rawState : Record F) (operatorType : String) :
    Except JavaException (Record F) := do
  let schema ← registry.getSchema operatorType
  translateWith schema rawState

/-! ## What a translation has

Name by name: what the schema has a type for is converted, and everything else is left out. -/

theorem translateToFlinkState_eq (registry : SchemaRegistry F) (rawState : Record F) (operatorType : String) :
    translateToFlinkState registry rawState operatorType =
      registry.getSchema operatorType >>= fun schema => translateWith schema rawState := rfl

variable {schema rawState result : Record F}

/-- **What a translation has under a name**: the translated value, if the schema has the name. -/
theorem get_translateWith (h : translateWith schema rawState = .ok result) (name : String) :
    result.get name = (rawState.get name).bind fun v =>
      if schema.contains name then (translateValue v (schema.getD name .none)).toOption else none := by
  obtain ⟨es, hes, h⟩ := bind_eq_ok.mp h
  cases h
  have hnames : es.map Prod.fst = (rawState.entries.filter (fun e => schema.contains e.1)).map Prod.fst := by
    refine map_of_mapM hes fun e e' he => ?_
    obtain ⟨v, -, he⟩ := bind_eq_ok.mp he
    cases he
    rfl
  have hnodup : (es.map Prod.fst).Nodup := by
    rw [hnames]
    exact (List.filter_sublist.map Prod.fst).nodup rawState.keys_nodup
  -- a name of the result is one of the raw state and of the schema
  have habsent : (∀ v, rawState.get name = some v → schema.contains name = false) →
      (Dict.ofList es).get name = none := by
    intro hno
    refine Dict.get_ofList_of_not_mem fun hmem => ?_
    rw [hnames] at hmem
    obtain ⟨e, he, rfl⟩ := List.mem_map.mp hmem
    obtain ⟨he, hcontains⟩ := List.mem_filter.mp he
    rw [hno e.2 (Dict.get_eq_some_iff.mpr he)] at hcontains
    cases hcontains
  cases hraw : rawState.get name with
  | none => exact habsent fun v hv => absurd (hraw.symm.trans hv) nofun
  | some v =>
      dsimp only [Option.bind_some]
      by_cases hcontains : schema.contains name = true
      · rw [if_pos hcontains]
        have hmem : (name, v) ∈ rawState.entries.filter (fun e => schema.contains e.1) :=
          List.mem_filter.mpr ⟨Dict.get_eq_some_iff.mp hraw, hcontains⟩
        obtain ⟨i, hi⟩ := List.mem_iff_getElem?.mp hmem
        obtain ⟨e', he', htranslate⟩ := mapM_getElem? hes hi
        obtain ⟨v', hv', he⟩ := bind_eq_ok.mp htranslate
        cases he
        rw [hv']
        exact Dict.get_update_of_mem hnodup (List.mem_of_getElem? he')
      · rw [if_neg hcontains]
        exact habsent fun _ _ => Bool.eq_false_iff.mpr hcontains

/-- A translation throws only where a value of it does. -/
theorem exists_translateWith (h : ∀ e ∈ rawState.entries, schema.contains e.1 = true →
    ∃ v, translateValue e.2 (schema.getD e.1 .none) = .ok v) :
    ∃ result, translateWith schema rawState = .ok result := by
  have hall : ∀ e ∈ rawState.entries.filter (fun e => schema.contains e.1), ∃ e' : String × Value F,
      (do Except.ok (e.1, ← translateValue e.2 (schema.getD e.1 .none))) = (.ok e' : Except JavaException _) := by
    intro e he
    obtain ⟨he, hcontains⟩ := List.mem_filter.mp he
    obtain ⟨v, hv⟩ := h e he hcontains
    exact ⟨(e.1, v), bind_eq_ok.mpr ⟨v, hv, rfl⟩⟩
  obtain ⟨es, hes⟩ := exists_mapM_ok hall
  exact ⟨Dict.ofList es, bind_eq_ok.mpr ⟨es, hes, rfl⟩⟩

end SnapshotDeserializer

end Connector
end HybridStream
