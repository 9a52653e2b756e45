import HybridStream.Common.Schema
import HybridStream.Lib.Proc
import HybridStream.Py.MessagePack

/-!
# `Common.Snapshot` — snapshot bytes and the object store

`hybridstream/common/snapshot.py` and `object_store.py`. A snapshot is the magic `HSMP`, the schema version
as an unsigned 16-bit integer and a MessagePack document that holds the *schema's* fields of the state: a
state entry the schema does not name is dropped, a schema field the state lacks becomes `None`.

`deserialize_serialize` is the composition: what comes back is exactly the schema's fields, tuples read back
as lists.
-/

namespace HybridStream
namespace Common

open Py Lib

variable {F : Type} [PyRuntime F]

/-! ## `serialize`

A header of four bytes with the magic number and the version, and MessagePack of a document: the envelope and the
fields that the schema names, each as the state has it or `None`. -/

/-- `MAGIC`: the letters HSMP. -/
def magic : List UInt8 := [0x48, 0x53, 0x4d, 0x50]

/-- `struct.pack(">H", n)`, which raises beyond sixteen bits. -/
def packUint16 (n : Int) : Except PyError (List UInt8) :=
  if 0 ≤ n ∧ n < 65536 then .ok [UInt8.ofNat (n.toNat / 256), UInt8.ofNat (n.toNat % 256)]
  else .error ⟨.structError, "'H' format requires 0 <= number <= 65535"⟩

/-- `struct.unpack(">H", bytes)[0]` of two bytes: the first one counts 256 times. -/
def unpackUint16 (high low : UInt8) : Int := high.toNat * 256 + low.toNat

/-- The document of a snapshot: the version and the class, then the fields of the schema, `None` where the state has
    none. -/
def document (schema : Schema) (operatorClass : String) (state : Record F) : Record F :=
  (Dict.ofList [("schema_version", .int schema.schemaVersion), ("operator_class", .str operatorClass)]).update
    (schema.fields.map (fun name => (name, state.getD name .none)))

/-- What `serialize` does once it has the schema. -/
def pack (mp : MessagePack F) (schema : Schema) (operatorClass : String) (state : Record F) :
    Except PyError (List UInt8) := do
  let payload ← mp.packb (document schema operatorClass state).toValue
  let version ← packUint16 schema.schemaVersion
  .ok (magic ++ version ++ payload)

/-- `serialize`: always by version 1 of the schema. -/
def serialize (mp : MessagePack F) (registry : SchemaRegistry) (operatorClass : String) (state : Record F) :
    Except PyError (List UInt8) := do
  let schema ← registry.getSchema operatorClass 1
  pack mp schema operatorClass state

/-! ## `deserialize`

The header is checked and the payload unpacked before the schema is looked up, so bytes that are no snapshot are
rejected whatever the registry holds. What becomes of the payload is taken apart into the part before and the part
after the look-up. -/

/-- `doc.get` on what was unpacked, which only a map has. -/
def fieldsOf : Value F → Except PyError (List (Value F × Value F))
  | .dict kvs => .ok kvs
  | _         => .error ⟨.attributeError, "object has no attribute 'get'"⟩

/-- What `deserialize` has read when it looks up the schema. -/
structure Unpacked (F : Type) where
  operatorClass : Value F
  schemaVersion : Int
  doc           : List (Value F × Value F)

/-- What `deserialize` does before it looks up the schema. -/
def unpack (mp : MessagePack F) (data : List UInt8) : Except PyError (Unpacked F) :=
  match data with
  | m₀ :: m₁ :: m₂ :: m₃ :: high :: low :: payload =>
      if [m₀, m₁, m₂, m₃] ≠ magic then
        .error ⟨.valueError, "Invalid snapshot magic bytes: expected " ++ Value.reprBytes magic ++
          ", got " ++ Value.reprBytes [m₀, m₁, m₂, m₃]⟩
      else if payload = [] then
        .error ⟨.valueError, "Snapshot payload is empty (truncated after header)"⟩
      else match mp.unpackb payload with
        | .error e => .error ⟨.valueError, s!"Failed to unpack snapshot payload: {e.text}"⟩
        | .ok doc  => do
            let doc ← fieldsOf doc
            let operatorClass := Record.lookup doc "operator_class"
            if !operatorClass.truthy then
              .error ⟨.valueError, "Missing operator_class in snapshot payload"⟩
            else .ok ⟨operatorClass, unpackUint16 high low, doc⟩
  | _ => .error ⟨.valueError, "Snapshot too short: expected at least 6 bytes"⟩

/-- What `deserialize` does with the schema. -/
def Unpacked.select (u : Unpacked F) (schema : Schema) : Record F :=
  Dict.ofList (schema.fields.map (fun name => (name, Record.lookup u.doc name)))

/-- `deserialize`: the class and the version are those of the bytes, and the schema for them says what is kept. -/
def deserialize (mp : MessagePack F) (registry : SchemaRegistry) (data : List UInt8) :
    Except PyError (Record F) := do
  let u ← unpack mp data
  let schema ← registry.getSchema u.operatorClass.toStr u.schemaVersion
  .ok (u.select schema)

/-! ## What a snapshot brings back

Packing and unpacking are inverse to each other up to tuples, which MessagePack gives back as lists; the fields that
the schema does not name are lost. -/

theorem unpackUint16_packUint16 {n : Int} {bytes : List UInt8} (h : packUint16 n = .ok bytes) :
    ∃ high low, bytes = [high, low] ∧ unpackUint16 high low = n := by
  unfold packUint16 at h
  split at h
  · rename_i hn
    obtain ⟨hpos, hlt⟩ := hn
    refine ⟨_, _, (Except.ok.inj h).symm, ?_⟩
    have h1 : n.toNat / 256 < 256 := by omega
    have h2 : n.toNat % 256 < 256 := by omega
    simp only [unpackUint16, UInt8.toNat_ofNat_of_lt' h1, UInt8.toNat_ofNat_of_lt' h2]
    omega
  · cases h

/-- Reading a field of an unpacked record. -/
theorem lookup_untuple (doc : Record F) (name : String) :
    Record.lookup (Value.untuplePairs (doc.entries.map (fun e => ((.str e.1 : Value F), e.2)))) name
      = (doc.getD name .none).untuple := by
  have hentries : ∀ es : List (String × Value F),
      Lib.lookupEntry (.str name) (Value.untuplePairs (es.map (fun e => ((.str e.1 : Value F), e.2))))
        = (Lib.lookupEntry name es).map Value.untuple := by
    intro es
    induction es with
    | nil => rfl
    | cons e es ih =>
        rw [List.map_cons, Value.untuplePairs, lookupEntry, lookupEntry, ih, Value.untuple_str,
          Value.beq_str]
        split <;> rfl
  unfold Record.lookup Dict.getD Dict.get
  rw [hentries]
  cases Lib.lookupEntry name doc.entries with
  | none   => exact Value.untuple_none.symm
  | some v => rfl

/-- A record of packable values is packable. -/
theorem packable_toValue {doc : Record F} (h : ∀ e ∈ doc.entries, e.2.packable = true) :
    doc.toValue.packable = true := by
  have hkeys : ∀ es : List (String × Value F), KeysDistinct es →
      Value.keysDistinct (es.map (fun e => ((.str e.1 : Value F), e.2))) = true := by
    intro es hes
    induction es with
    | nil => rfl
    | cons e es ih =>
        obtain ⟨hhead, htail⟩ := List.pairwise_cons.mp hes
        rw [List.map_cons, Value.keysDistinct, ih htail, Bool.and_true, List.all_map, List.all_eq_true]
        intro e' he'
        have hne : ((.str e.1 : Value F) == .str e'.1) = false := by rw [Value.beq_str]; exact hhead e' he'
        show (!Value.keyEq (.str e.1) (.str e'.1)) = true
        rw [show Value.keyEq (.str e.1 : Value F) (.str e'.1) = false from hne]
        rfl
  have hvalues : ∀ es : List (String × Value F), (∀ e ∈ es, e.2.packable = true) →
      Value.packablePairs (es.map (fun e => ((.str e.1 : Value F), e.2))) = true := by
    intro es hes
    induction es with
    | nil => rfl
    | cons e es ih =>
        rw [List.map_cons, Value.packablePairs, ih (fun e' he' => hes e' (List.mem_cons_of_mem _ he')),
          hes e List.mem_cons_self]
        rfl
  unfold Record.toValue
  rw [Value.packable, hkeys _ doc.distinct, hvalues _ h]
  rfl

omit [PyRuntime F] in
/-- A field of the document is the state's value for it. -/
theorem getD_document {schema : Schema} {cls : String} {state : Record F} {name : String}
    (h : name ∈ schema.fields) : (document schema cls state).getD name .none = state.getD name .none := by
  unfold Dict.getD document
  rw [Dict.get_update_map_of_mem _ _ h]
  rfl

omit [PyRuntime F] in
/-- The envelope of the document is not overwritten. -/
theorem getD_document_class {schema : Schema} {cls : String} {state : Record F}
    (h : "operator_class" ∉ schema.fields) :
    (document schema cls state).getD "operator_class" .none = .str cls := by
  unfold Dict.getD document
  rw [Dict.get_update_map_of_not_mem _ _ h]
  rfl

theorem packable_document {schema : Schema} {cls : String} {state : Record F}
    (h : ∀ name ∈ schema.fields, (state.getD name .none).packable = true) :
    (document schema cls state).toValue.packable = true := by
  refine packable_toValue fun e he => ?_
  have hget : (document schema cls state).get e.1 = some e.2 := Dict.get_eq_some_iff.mpr he
  unfold document at hget
  by_cases hfield : e.1 ∈ schema.fields
  · rw [Dict.get_update_map_of_mem _ _ hfield] at hget
    rw [← Option.some.inj hget]
    exact h _ hfield
  · rw [Dict.get_update_map_of_not_mem _ _ hfield, Dict.get_eq_some_iff] at hget
    rw [Dict.entries_ofList (by simp)] at hget
    simp only [List.mem_cons, Prod.ext_iff, List.not_mem_nil, or_false] at hget
    rcases hget with ⟨-, hv⟩ | ⟨-, hv⟩ <;> rw [hv] <;> simp

/-- **What was packed is unpacked**: the class, the version, and the schema's fields as the state had them (or
    `None`), with tuples read back as lists. -/
theorem unpack_pack {mp : MessagePack F} {schema : Schema} {cls : String} {state : Record F} {bytes : List UInt8}
    (hcls : cls ≠ "") (hclash : "operator_class" ∉ schema.fields)
    (hpackable : ∀ name ∈ schema.fields, (state.getD name .none).packable = true)
    (h : pack mp schema cls state = .ok bytes) :
    ∃ u, unpack mp bytes = .ok u ∧ u.operatorClass = .str cls ∧ u.schemaVersion = schema.schemaVersion ∧
      u.select schema =
        Dict.ofList (schema.fields.map (fun name => (name, (state.getD name .none).untuple))) := by
  obtain ⟨payload, hpayload, h⟩ := bind_eq_ok.mp h
  obtain ⟨version, hpack, h⟩ := bind_eq_ok.mp h
  obtain ⟨high, low, rfl, hunpack⟩ := unpackUint16_packUint16 hpack
  cases h
  have hunpackb := mp.unpackb_packb (packable_document hpackable) hpayload
  have hne : payload ≠ [] := fun hnil => mp.unpackb_nil _ (hnil ▸ hunpackb)
  have hdoc : fieldsOf (document schema cls state).toValue.untuple = .ok (Value.untuplePairs
      ((document schema cls state).entries.map (fun e => ((.str e.1 : Value F), e.2)))) := by
    unfold Record.toValue
    rw [Value.untuple]
    rfl
  have hclass : Record.lookup (Value.untuplePairs
      ((document schema cls state).entries.map (fun e => ((.str e.1 : Value F), e.2)))) "operator_class" =
        .str cls := by
    rw [lookup_untuple, getD_document_class hclash, Value.untuple_str]
  have htruthy : (Value.str cls : Value F).truthy = true := by simp [Value.truthy, hcls]
  have hread : unpack mp (0x48 :: 0x53 :: 0x4d :: 0x50 :: high :: low :: payload) = .ok
      ⟨.str cls, unpackUint16 high low, Value.untuplePairs
        ((document schema cls state).entries.map (fun e => ((.str e.1 : Value F), e.2)))⟩ := by
    simp only [unpack, magic, ne_eq, not_true_eq_false, if_false, hne, hunpackb, hdoc, bind, Except.bind, hclass,
      htruthy, Bool.not_true, Bool.false_eq_true]
  refine ⟨_, hread, rfl, hunpack, ?_⟩
  unfold Unpacked.select
  congr 1
  refine List.map_congr_left fun name hname => ?_
  rw [lookup_untuple, getD_document hname]

/-- **What a snapshot brings back**: the fields the schema names, each as the state had it (or `None`), with
    tuples read back as lists. -/
theorem deserialize_serialize {mp : MessagePack F} {registry : SchemaRegistry} {cls : String} {schema : Schema}
    {state : Record F} {bytes : List UInt8} (hload : registry.load cls 1 = some schema)
    (hpackable : ∀ name ∈ schema.fields, (state.getD name .none).packable = true)
    (h : serialize mp registry cls state = .ok bytes) :
    deserialize mp registry bytes
      = .ok (Dict.ofList (schema.fields.map (fun name => (name, (state.getD name .none).untuple)))) := by
  unfold serialize at h
  rw [SchemaRegistry.getSchema_eq_ok.mpr hload] at h
  obtain ⟨u, hunpack, hcls, hversion, hselect⟩ := unpack_pack (registry.named hload)
    (registry.no_clash hload _ (by simp [envelope])) hpackable h
  unfold deserialize
  rw [hunpack]
  show registry.getSchema u.operatorClass.toStr u.schemaVersion >>= _ = _
  rw [hcls, hversion, registry.version_eq hload]
  show registry.getSchema cls 1 >>= _ = _
  rw [SchemaRegistry.getSchema_eq_ok.mpr hload, ← hselect]
  rfl

/-! ## The object store

What was put under a key is read under it until the key is written again. -/

/-- `ObjectStore`: the objects of the bucket. -/
abbrev ObjectStore := Dict String (List UInt8)

namespace ObjectStore

/-- `upload`: the byte size and the bucket afterwards. -/
def upload (store : ObjectStore) (key : String) (data : List UInt8) : Int × ObjectStore :=
  (data.length, store.set key data)

/-- `download`, which raises for a key without an object. -/
def download (store : ObjectStore) (key : String) : Except PyError (List UInt8) :=
  match store.get key with
  | some data => .ok data
  | none      => .error ⟨.other, "NoSuchKey"⟩

theorem download_upload (store : ObjectStore) (key : String) (data : List UInt8) :
    (store.upload key data).2.download key = .ok data := by
  unfold download upload
  rw [Dict.get_set_self]

end ObjectStore

end Common
end HybridStream
