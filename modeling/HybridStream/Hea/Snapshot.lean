import HybridStream.Common.Snapshot
import HybridStream.Hea.Operator
import HybridStream.Py.Json

/-!
# `Hea.Snapshot` — exporting and importing an operator's state

`hea/state/snapshot.py`, the `TriggerSnapshot` handler of `hea/grpc/server.py`, and the import on the other
side: a fresh instance takes over what `deserialize` reads from the stored bytes.

The handler runs on a gRPC thread and needs the engine's event loop; `loop` is the outcome of
`asyncio.get_event_loop()` there.

The export reads the state and adds the drain offsets, whatever the operator is doing at that moment; what it does
meanwhile is the matter of `Hea.Handoff`. Of the way in which the handler waits for the upload all three ends are
there: it is told of a success, of an exception, or of neither in time.
-/

namespace HybridStream
namespace Hea

open Lib Py Common

variable {F σ : Type} [PyRuntime F]

/-- The state `create_migration_snapshot` hands to `serialize`. -/
def stateWithOffsets (C : BaseOperator F σ) (s : σ) (drainOffsetMap : Value F) : Record F :=
  (C.getState s).set "kafka_offset_map" drainOffsetMap

/-- The key the snapshot is stored under. -/
def objectKey (operatorId : String) (migrationSeq : Int) : String :=
  s!"{operatorId}/{migrationSeq}/snapshot.msgpack"

/-- `create_migration_snapshot`: the object key, the byte size and the bucket afterwards. -/
def createMigrationSnapshot (mp : MessagePack F) (registry : SchemaRegistry) (C : BaseOperator F σ) (s : σ)
    (store : ObjectStore) (migrationSeq : Int) (drainOffsetMap : Value F) :
    Except PyError (String × Int × ObjectStore) := do
  let bytes ← serialize mp registry C.operatorType (stateWithOffsets C s drainOffsetMap)
  let key := objectKey (C.operatorId s) migrationSeq
  let (byteSize, store) := store.upload key bytes
  .ok (key, byteSize, store)

/-- `SnapshotRequest`; an empty `drain_offset_map` is `none`. -/
structure SnapshotRequest where
  operatorId     : String
  migrationSeq   : Int
  drainOffsetMap : Option Json

/-- `SnapshotResponse` -/
structure SnapshotResponse where
  operatorId    : String
  objectKey     : String
  byteSize      : Int
  schemaVersion : Int
  errorMsg      : String

/-- A response that carries an error only. -/
def SnapshotResponse.failed (operatorId errorMsg : String) : SnapshotResponse := ⟨operatorId, "", 0, 0, errorMsg⟩

/-! ## The handler and its future

`TriggerSnapshot` hands `create_migration_snapshot` to the event loop and waits thirty seconds for the
future. The upload may raise, and may carry through although nobody waits for it any more. -/

/-- What becomes of the upload. -/
inductive Upload where
  | returned
  /-- `put_object` raises; the object may be in the bucket nevertheless. -/
  | raised (e : PyError) (stored : Bool)
  /-- `future.result(timeout=30)` raises a `TimeoutError`, whose text is empty. -/
  | timedOut (stored : Bool)

/-- `future.result(timeout=30)` of `create_migration_snapshot`: what the handler gets, and the bucket. -/
def awaitSnapshot (mp : MessagePack F) (registry : SchemaRegistry) (C : BaseOperator F σ) (s : σ)
    (upload : Upload) (store : ObjectStore) (migrationSeq : Int) (drainOffsetMap : Value F) :
    Except PyError (String × Int) × ObjectStore :=
  match createMigrationSnapshot mp registry C s store migrationSeq drainOffsetMap, upload with
  | .ok (key, byteSize, store'), .returned => (.ok (key, byteSize), store')
  | .ok (_, _, store'), .raised e stored   => (.error e, if stored then store' else store)
  | .ok (_, _, store'), .timedOut stored   => (.error ⟨.other, ""⟩, if stored then store' else store)
  | .error _, .timedOut _                  => (.error ⟨.other, ""⟩, store)
  | .error e, _                            => (.error e, store)

/-- `drain_offsets` -/
def SnapshotRequest.drainOffsets (request : SnapshotRequest) : Except PyError (Value F) :=
  match request.drainOffsetMap with
  | some doc => Json.loads doc
  | none     => .ok (.dict [])

/-- The `try` block of `TriggerSnapshot` for an operator that is there, and the bucket it leaves. -/
def snapshotBody (mp : MessagePack F) (registry : SchemaRegistry) (C : BaseOperator F σ) (s : σ)
    (loop : Except PyError Unit) (upload : Upload) (store : ObjectStore) (request : SnapshotRequest) :
    Except PyError (String × Int) × ObjectStore :=
  match (request.drainOffsets : Except PyError (Value F)), loop with
  | .error e, _             => (.error e, store)
  | .ok _, .error e         => (.error e, store)
  | .ok drainOffsets, .ok _ => awaitSnapshot mp registry C s upload store request.migrationSeq drainOffsets

/-- `TriggerSnapshot`, where `operator` is what `_operators` holds for the requested id and `loop` the outcome of
    `asyncio.get_event_loop()` in the handler. -/
def triggerSnapshot (mp : MessagePack F) (registry : SchemaRegistry) (C : BaseOperator F σ)
    (operator : Option σ) (loop : Except PyError Unit) (upload : Upload) (store : ObjectStore)
    (request : SnapshotRequest) : SnapshotResponse × ObjectStore :=
  match operator with
  | none => (.failed request.operatorId s!"Operator {request.operatorId} not found on this HEA", store)
  | some s =>
      match snapshotBody mp registry C s loop upload store request with
      | (.ok (key, byteSize), store) => (⟨request.operatorId, key, byteSize, 1, ""⟩, store)
      | (.error e, store)            => (.failed request.operatorId e.text, store)

/-- The state a snapshot brings to the target: `deserialize` of the stored bytes, taken over by a fresh
    instance. -/
def importSnapshot (mp : MessagePack F) (registry : SchemaRegistry) (C : BaseOperator F σ) (fresh : σ)
    (clock : Clock F) (store : ObjectStore) (key : String) : Except PyError σ := do
  let bytes ← store.download key
  let state ← deserialize mp registry bytes
  let (outcome, restored) := (C.restoreState clock state).exec fresh
  let _ ← outcome
  .ok restored

/-! ## What the handler leaves behind

Every way in which the handler can end, with the response and the bucket: a snapshot is stored whether or not the
handler was still waiting for it. -/

variable {mp : MessagePack F} {registry : SchemaRegistry} {C : BaseOperator F σ} {s : σ}
  {store store' : ObjectStore} {migrationSeq byteSize : Int} {key : String} {drainOffsetMap : Value F}
  {schema : Schema}

/-- What `create_migration_snapshot` makes is the serialized state, under the key of the operator and the number. -/
theorem createMigrationSnapshot_eq_ok {bytes : List UInt8}
    (h : serialize mp registry C.operatorType (stateWithOffsets C s drainOffsetMap) = .ok bytes) :
    createMigrationSnapshot mp registry C s store migrationSeq drainOffsetMap =
      .ok (objectKey (C.operatorId s) migrationSeq, bytes.length,
        store.set (objectKey (C.operatorId s) migrationSeq) bytes) := by
  unfold createMigrationSnapshot
  rw [h]
  rfl

/-- What waiting for the snapshot comes to: nothing is stored, or the serialized state under its key; and the
    handler gets that key only if it is stored. -/
theorem awaitSnapshot_cases (mp : MessagePack F) (registry : SchemaRegistry) (C : BaseOperator F σ) (s : σ)
    (upload : Upload) (store : ObjectStore) (migrationSeq : Int) (drainOffsets : Value F) :
    (∃ e stored, awaitSnapshot mp registry C s upload store migrationSeq drainOffsets = (.error e, stored) ∧
      (stored = store ∨ ∃ bytes, stored = store.set (objectKey (C.operatorId s) migrationSeq) bytes)) ∨
    ∃ bytes, serialize mp registry C.operatorType (stateWithOffsets C s drainOffsets) = .ok bytes ∧
      awaitSnapshot mp registry C s upload store migrationSeq drainOffsets =
        (.ok (objectKey (C.operatorId s) migrationSeq, bytes.length),
          store.set (objectKey (C.operatorId s) migrationSeq) bytes) := by
  unfold awaitSnapshot
  cases hser : serialize mp registry C.operatorType (stateWithOffsets C s drainOffsets) with
  | error e =>
      have hcreated : createMigrationSnapshot mp registry C s store migrationSeq drainOffsets = .error e := by
        unfold createMigrationSnapshot
        rw [hser]
        rfl
      rw [hcreated]
      cases upload with
      -- serializing raises before anything is uploaded
      | returned | raised | timedOut => exact Or.inl ⟨_, store, rfl, Or.inl rfl⟩
  | ok bytes =>
      rw [createMigrationSnapshot_eq_ok hser]
      cases upload with
      | returned => exact Or.inr ⟨bytes, rfl, rfl⟩
      | raised e stored | timedOut stored =>
          -- the upload thread goes on: the object may be stored all the same
          refine Or.inl ⟨_, _, rfl, ?_⟩
          cases stored with
          | true  => exact Or.inr ⟨bytes, rfl⟩
          | false => exact Or.inl rfl

/-- The same for the handler's `try` block. -/
theorem snapshotBody_cases (mp : MessagePack F) (registry : SchemaRegistry) (C : BaseOperator F σ) (s : σ)
    (loop : Except PyError Unit) (upload : Upload) (store : ObjectStore) (request : SnapshotRequest) :
    (∃ e stored, snapshotBody mp registry C s loop upload store request = (.error e, stored) ∧
      (stored = store ∨ ∃ bytes, stored = store.set (objectKey (C.operatorId s) request.migrationSeq) bytes)) ∨
    ∃ drainOffsets bytes, request.drainOffsets = .ok drainOffsets ∧
      serialize mp registry C.operatorType (stateWithOffsets C s drainOffsets) = .ok bytes ∧
      snapshotBody mp registry C s loop upload store request =
        (.ok (objectKey (C.operatorId s) request.migrationSeq, bytes.length),
          store.set (objectKey (C.operatorId s) request.migrationSeq) bytes) := by
  unfold snapshotBody
  cases (request.drainOffsets : Except PyError (Value F)) with
  | error e => exact Or.inl ⟨e, store, rfl, Or.inl rfl⟩
  | ok drainOffsets =>
      cases loop with
      | error e => exact Or.inl ⟨e, store, rfl, Or.inl rfl⟩
      | ok u =>
          rcases awaitSnapshot_cases mp registry C s upload store request.migrationSeq drainOffsets with
            h | ⟨bytes, hser, h⟩
          · exact Or.inl h
          · exact Or.inr ⟨drainOffsets, bytes, rfl, hser, h⟩

/-! ## What is read back

The object under the key reads back as the exported state, cut down to the fields of the schema, and with the drain
offsets as they came out of JSON. -/

/-- The document a snapshot brings back: the schema's fields of the state and the drain offsets. -/
def survivingState (C : BaseOperator F σ) (s : σ) (drainOffsetMap : Value F) (schema : Schema) : Record F :=
  Dict.ofList (schema.fields.map (fun name =>
    (name, ((stateWithOffsets C s drainOffsetMap).getD name .none).untuple)))

/-- The exported state is packable where the operator's own entries and the offsets are. -/
theorem packable_stateWithOffsets {names : List String}
    (hstate : ∀ name ∈ names, ((C.getState s).getD name .none).packable = true)
    (hoffsets : drainOffsetMap.packable = true) :
    ∀ name ∈ names, ((stateWithOffsets C s drainOffsetMap).getD name .none).packable = true := by
  intro name hname
  unfold stateWithOffsets Dict.getD
  by_cases hkey : name = "kafka_offset_map"
  · subst hkey
    rw [Dict.get_set_self]
    exact hoffsets
  · rw [Dict.get_set_ne _ hkey]
    exact hstate name hname

/-- **A stored snapshot reads back as the surviving part of the state.** -/
theorem deserialize_created
    (h : createMigrationSnapshot mp registry C s store migrationSeq drainOffsetMap = .ok (key, byteSize, store'))
    (hload : registry.load C.operatorType 1 = some schema)
    (hpackable : ∀ name ∈ schema.fields,
      ((stateWithOffsets C s drainOffsetMap).getD name .none).packable = true) :
    ∃ bytes, store'.download key = .ok bytes ∧
      deserialize mp registry bytes = .ok (survivingState C s drainOffsetMap schema) := by
  unfold createMigrationSnapshot at h
  cases hser : serialize mp registry C.operatorType (stateWithOffsets C s drainOffsetMap) with
  | error e => rw [hser] at h; cases h
  | ok bytes =>
      rw [hser] at h
      cases h
      exact ⟨bytes, ObjectStore.download_upload _ _ _, deserialize_serialize hload hpackable hser⟩

omit [PyRuntime F] in
/-- A field of the surviving state that the schema names. -/
theorem get_survivingState_of_mem {name : String} (h : name ∈ schema.fields) :
    (survivingState C s drainOffsetMap schema).get name
      = some ((stateWithOffsets C s drainOffsetMap).getD name .none).untuple :=
  Dict.get_update_map_of_mem _ _ h

omit [PyRuntime F] in
/-- An entry of the state that the schema does not name is gone. -/
theorem get_survivingState_of_not_mem {name : String} (h : name ∉ schema.fields) :
    (survivingState C s drainOffsetMap schema).get name = none :=
  Dict.get_update_map_of_not_mem _ _ h

omit [PyRuntime F] in
/-- `restore_state` takes its default for an entry the schema does not name. -/
theorem getD_survivingState_of_not_mem {name : String} (h : name ∉ schema.fields) (dflt : Value F) :
    (survivingState C s drainOffsetMap schema).getD name dflt = dflt := by
  unfold Dict.getD
  rw [get_survivingState_of_not_mem h]
  rfl

end Hea
end HybridStream
