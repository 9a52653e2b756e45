import HybridStream.Aode.Pctr
import HybridStream.Hea.Snapshot
import HybridStream.Py.Exact
import HybridStream.Workloads.W1

/-!
# `Hea.Correctness.DrainOffsets` — the offset map on its way through the hand-off

The map a drain returned is written as JSON by `_phase_2_snapshot`, read by `TriggerSnapshot`, packed into
the snapshot and unpacked again. JSON turns the integer partitions into text and nothing turns them back:
what arrives is the string-keyed map (`loads_dumpsIntMap`), which equals the map sent only if that is empty.

The four conversions are the models of the functions that make them, composed as the migration does; no step of the
way is assumed to be harmless. The snapshot in between is a real one, with the state of the operator and its schema.
-/

namespace HybridStream
namespace Hea

open Lib Py Common Aode

variable {F σ : Type} [PyRuntime F]

/-- The request `trigger_snapshot` puts on the wire. -/
def SnapshotRequest.ofRpc : Rpc → Option SnapshotRequest
  | .triggerSnapshot _ operatorId migrationSeq doc => some ⟨operatorId, migrationSeq, some doc⟩
  | _ => none

/-- The stored snapshot reads back with the given offset map. -/
def OffsetsArrive (mp : MessagePack F) (registry : SchemaRegistry) (store : ObjectStore) (key : String)
    (m : Dict Int Int) : Prop :=
  ∃ bytes state, store.download key = .ok bytes ∧ deserialize mp registry bytes = .ok state ∧
    state.get "kafka_offset_map" = some (Json.ofIntMap m)

/-! ## The string-keyed map

Text keys and integer keys are never equal, so the map that is read back is the one that was sent only if it has no
entries. -/

theorem packable_stringKeyed (m : Dict Int Int) :
    (Record.toValue (Json.stringKeyed (F := F) m)).packable = true := by
  refine packable_toValue fun e he => ?_
  obtain ⟨e', he', -⟩ | ⟨e', he', hv⟩ := Dict.value_of_mem_update he
  · exact absurd he' List.not_mem_nil
  · obtain ⟨e₀, -, rfl⟩ := List.mem_map.mp he'
    rw [← hv]
    exact Value.packable_int _

omit [PyRuntime F] in
/-- Read back, the string-keyed map is the map sent only if there is nothing in it. -/
theorem untuple_stringKeyed_eq_iff (m : Dict Int Int) :
    (Record.toValue (Json.stringKeyed (F := F) m)).untuple = Json.ofIntMap m ↔ m = ∅ := by
  unfold Record.toValue Json.ofIntMap
  rw [Value.untuple, Value.untuplePairs_eq_map, List.map_map, Value.dict.injEq]
  constructor
  · intro h
    cases hes : (Json.stringKeyed (F := F) m).entries with
    | nil =>
        have hempty : Json.stringKeyed (F := F) m = ∅ := Dict.ext hes
        exact Dict.ext (List.map_eq_nil_iff.mp (Dict.ofList_eq_empty.mp hempty))
    | cons e es =>
        -- a text key on the left, an integer key on the right
        rw [hes, List.map_cons] at h
        cases hm : m.entries with
        | nil => rw [hm] at h; cases h
        | cons e' es' =>
            rw [hm, List.map_cons, List.cons.injEq] at h
            exact absurd (congrArg Prod.fst h.1) (by simp)
  · rintro rfl
    rfl

/-! ## The whole way

From the drained offsets through JSON into the request, out of the request into the snapshot, through MessagePack into
the bucket, and back; each of the four steps keeps what it is given but for the keys. -/

variable {mp : MessagePack F} {registry : SchemaRegistry} {C : BaseOperator F σ} {s : σ} {schema : Schema}
  {store store' : ObjectStore} {clients : HeaClients} {now : Int} {m : PCTRMigration} {rpc : Rpc}
  {request : SnapshotRequest} {response : SnapshotResponse} {loop : Except PyError Unit} {upload : Upload}

/-- What phase 2 sends: the drained offsets, as JSON. -/
theorem request_of_phase2 (hsent : m.phase2Snapshot clients now = .ok rpc)
    (hrequest : SnapshotRequest.ofRpc rpc = some request) :
    request.drainOffsetMap = some (Json.dumpsIntMap m.drainOffsetMap) := by
  unfold PCTRMigration.phase2Snapshot at hsent
  cases hclient : m.sourceClient clients with
  | error text => rw [hclient] at hsent; cases hsent
  | ok client =>
      rw [hclient] at hsent
      cases hsent
      cases hrequest
      rfl

/-- A handled request has stored a snapshot of the operator with the offsets as JSON reads them. -/
theorem created_of_handled (hdoc : request.drainOffsetMap = some (Json.dumpsIntMap m.drainOffsetMap))
    (hhandled : triggerSnapshot mp registry C (some s) loop upload store request = (response, store'))
    (hkey : response.objectKey ≠ "") :
    createMigrationSnapshot mp registry C s store request.migrationSeq
        (Record.toValue (Json.stringKeyed m.drainOffsetMap))
      = .ok (response.objectKey, response.byteSize, store') := by
  have hoffsets : request.drainOffsets = .ok (Record.toValue (Json.stringKeyed m.drainOffsetMap) : Value F) := by
    unfold SnapshotRequest.drainOffsets
    rw [hdoc]
    exact Json.loads_dumpsIntMap _
  unfold triggerSnapshot at hhandled
  dsimp only at hhandled
  rcases snapshotBody_cases mp registry C s loop upload store request with
    ⟨e, stored, hbody, -⟩ | ⟨drainOffsets, bytes, hread, hser, hbody⟩
  · -- a response with an error has no key
    rw [hbody] at hhandled
    cases hhandled
    exact absurd rfl hkey
  · rw [hbody] at hhandled
    cases hhandled
    cases hoffsets.symm.trans hread
    exact createMigrationSnapshot_eq_ok hser

/-- The stored snapshot reads back with the string-keyed map. -/
theorem deserialize_handled (hsent : m.phase2Snapshot clients now = .ok rpc)
    (hrequest : SnapshotRequest.ofRpc rpc = some request)
    (hhandled : triggerSnapshot mp registry C (some s) loop upload store request = (response, store'))
    (hkey : response.objectKey ≠ "") (hload : registry.load C.operatorType 1 = some schema)
    (hfield : "kafka_offset_map" ∈ schema.fields)
    (hpackable : ∀ name ∈ schema.fields, ((C.getState s).getD name .none).packable = true) :
    ∃ bytes state, store'.download response.objectKey = .ok bytes ∧
      deserialize mp registry bytes = .ok state ∧
      state.get "kafka_offset_map" = some (Record.toValue (Json.stringKeyed m.drainOffsetMap)).untuple := by
  have hcreated := created_of_handled (request_of_phase2 hsent hrequest) hhandled hkey
  obtain ⟨bytes, hbytes, hstate⟩ := deserialize_created hcreated hload
    (packable_stateWithOffsets hpackable (packable_stringKeyed m.drainOffsetMap))
  refine ⟨bytes, _, hbytes, hstate, ?_⟩
  rw [get_survivingState_of_mem hfield]
  unfold stateWithOffsets Dict.getD
  rw [Dict.get_set_self]
  rfl

/-- What arrives is determined by the stored bytes. -/
theorem offsetsArrive_iff_of_get {key : String} {bytes : List UInt8} {state : Record F} {offsets : Value F}
    {sent : Dict Int Int} (hbytes : store.download key = .ok bytes)
    (hstate : deserialize mp registry bytes = .ok state)
    (hget : state.get "kafka_offset_map" = some offsets) :
    OffsetsArrive mp registry store key sent ↔ offsets = Json.ofIntMap sent := by
  constructor
  · rintro ⟨bytes', state', hbytes', hstate', hget'⟩
    cases Except.ok.inj (hbytes.symm.trans hbytes')
    cases Except.ok.inj (hstate.symm.trans hstate')
    exact Option.some.inj (hget.symm.trans hget')
  · exact fun heq => ⟨bytes, state, hbytes, hstate, hget.trans (congrArg some heq)⟩

/-- **The drain offsets arrive exactly when there are none.** JSON makes a text of every partition number and nothing on
    the way makes a number of it again, so what is read is the map with its keys as texts. -/
theorem drain_offsets_arrive_iff (hsent : m.phase2Snapshot clients now = .ok rpc)
    (hrequest : SnapshotRequest.ofRpc rpc = some request)
    (hhandled : triggerSnapshot mp registry C (some s) loop upload store request = (response, store'))
    (hkey : response.objectKey ≠ "") (hload : registry.load C.operatorType 1 = some schema)
    (hfield : "kafka_offset_map" ∈ schema.fields)
    (hpackable : ∀ name ∈ schema.fields, ((C.getState s).getD name .none).packable = true) :
    OffsetsArrive mp registry store' response.objectKey m.drainOffsetMap ↔ m.drainOffsetMap = ∅ := by
  obtain ⟨bytes, state, hbytes, hstate, hget⟩ :=
    deserialize_handled hsent hrequest hhandled hkey hload hfield hpackable
  rw [offsetsArrive_iff_of_get hbytes hstate hget]
  exact untuple_stringKeyed_eq_iff m.drainOffsetMap

/-- A migration off `edge-node-1` that has drained the given offsets. -/
def drainedMigration (offsets : Dict Int Int) : PCTRMigration :=
  (PCTRMigration.new "migration-0001" "normalizer-zone_1" "edge-node-1" "cloud").phase1Drained ⟨some offsets⟩

/-- The request it sends. -/
def drainedRequest (offsets : Dict Int Int) : SnapshotRequest :=
  ⟨"normalizer-zone_1", 7, some (Json.dumpsIntMap offsets)⟩

/-- The operator it asks for, which has processed nothing yet. -/
def idleNormalizer : Workloads.NormalizerOperator ℚ := .new "normalizer-zone_1" "zone_1" 0.01

/-- What the HEA that hosts it answers, and the bucket afterwards. -/
def answered (offsets : Dict Int Int) : SnapshotResponse × ObjectStore :=
  triggerSnapshot Exact.messagePack registryV1 Workloads.NormalizerOperator.operator (some idleNormalizer)
    (.ok ()) .returned ∅ (drainedRequest offsets)

theorem answered_eq (offsets : Dict Int Int) :
    triggerSnapshot Exact.messagePack registryV1 Workloads.NormalizerOperator.operator (some idleNormalizer)
      (.ok ()) .returned ∅ (drainedRequest offsets) = ((answered offsets).1, (answered offsets).2) := rfl

theorem drainedMigration_sends (offsets : Dict Int Int) :
    ∃ rpc, (drainedMigration offsets).phase2Snapshot (Dict.ofList [("edge-node-1", ⟨"edge-node-1:50051"⟩)]) 7
        = .ok rpc ∧ SnapshotRequest.ofRpc rpc = some (drainedRequest offsets) :=
  ⟨_, rfl, rfl⟩

theorem drain_offsets_arrive_iff_none :
    (answered ∅).1.objectKey ≠ "" ∧
    OffsetsArrive Exact.messagePack registryV1 (answered ∅).2 (answered ∅).1.objectKey ∅ := by
  obtain ⟨rpc, hsent, hrequest⟩ := drainedMigration_sends ∅
  have hkey : (answered ∅).1.objectKey ≠ "" := by decide
  exact ⟨hkey, (drain_offsets_arrive_iff hsent hrequest (answered_eq ∅) hkey rfl (by decide) (by decide)).mpr rfl⟩

/-- One partition at offset 41 is drained; the snapshot comes back with another map. -/
theorem drain_offsets_rekeyed :
    (∃ rpc, (drainedMigration (Dict.ofList [(0, 41)])).phase2Snapshot
        (Dict.ofList [("edge-node-1", ⟨"edge-node-1:50051"⟩)]) 7 = .ok rpc ∧
      SnapshotRequest.ofRpc rpc = some (drainedRequest (Dict.ofList [(0, 41)]))) ∧
    (answered (Dict.ofList [(0, 41)])).1.objectKey ≠ "" ∧
    ¬ OffsetsArrive Exact.messagePack registryV1 (answered (Dict.ofList [(0, 41)])).2
        (answered (Dict.ofList [(0, 41)])).1.objectKey (Dict.ofList [(0, 41)]) := by
  obtain ⟨rpc, hsent, hrequest⟩ := drainedMigration_sends (Dict.ofList [(0, 41)])
  have hkey : (answered (Dict.ofList [(0, 41)])).1.objectKey ≠ "" := by decide
  refine ⟨⟨rpc, hsent, hrequest⟩, hkey, fun harrive => ?_⟩
  obtain ⟨bytes, state, hbytes, hstate, hget⟩ :=
    deserialize_handled hsent hrequest (answered_eq _) hkey rfl (by decide) (by decide)
  have hsame := (offsetsArrive_iff_of_get hbytes hstate hget).mp harrive
  exact absurd ((untuple_stringKeyed_eq_iff (drainedMigration (Dict.ofList [(0, 41)])).drainOffsetMap).mp hsame)
    (by decide)

end Hea
end HybridStream
