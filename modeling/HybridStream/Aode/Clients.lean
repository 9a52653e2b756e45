import HybridStream.Aode.Pctr
import HybridStream.Lib.Protobuf

/-!
# `Aode.Clients` — the gRPC clients and the requests they build

`aode/grpc/clients.py` over the message types of `proto/hybridstream.proto`. A client method builds its
request and awaits a method of the stub; an RPC of a migration ends before anything is sent where the client
class has no such method, or where the request cannot be built.

The generated classes check names and types of keyword arguments when they are called, which is before anything is
sent; what they raise there is an exception of the migration. Which requests can be built at all is decided by the
source alone, and two of the four that a migration makes cannot.
-/

namespace HybridStream
namespace Aode

open Lib Lib.Protobuf Py

/-! ## The message types of the requests

Field names and types as the generated module has them. A request is built by keyword arguments, so an unknown name or
a value of another type raises before anything is sent. -/

/-- `TelemetryRequest`, which only says who asks. -/
def telemetryRequest : MessageType := ⟨"TelemetryRequest", [("requester_id", .string)], by decide⟩

/-- `PlacementDirective`: where the operators are to be, in one map. -/
def placementDirective : MessageType where
  name     := "PlacementDirective"
  fields   := [("directive_id", .string), ("operator_to_tier", .stringMap), ("issued_at_ms", .int64)]
  distinct := by decide

/-- `SnapshotRequest`, with the offsets as text. -/
def snapshotRequest : MessageType where
  name     := "SnapshotRequest"
  fields   := [("operator_id", .string), ("migration_seq", .int32), ("drain_offset_map", .string)]
  distinct := by decide

/-- `TerminateRequest`, with a topic for what arrives meanwhile that no client fills. -/
def terminateRequest : MessageType where
  name     := "TerminateRequest"
  fields   := [("operator_id", .string), ("flush_state", .bool), ("migration_buffer_topic", .string)]
  distinct := by decide

/-- `RestoreRequest` of the generated class, which calls the key `object_key`. -/
def restoreRequest : MessageType where
  name     := "RestoreRequest"
  fields   := [("operation_id", .string), ("operator_id", .string), ("object_key", .string),
                ("operator_type", .string), ("drain_offset", .string)]
  distinct := by decide

/-- A generated class, called with keyword arguments. -/
def construct (t : MessageType) (kwargs : List (String × Option FieldValue)) : Except PyError (Message t) :=
  match Message.build t kwargs with
  | .ok m => .ok m
  | .error (.noField message field) =>
      .error ⟨.valueError, s!"Protocol message {message} has no \"{field}\" field."⟩
  | .error (.badValue message field) =>
      .error ⟨.typeError, s!"bad argument for {message}.{field}"⟩
  | .error (.outOfRange value) => .error ⟨.valueError, s!"Value out of range: {value}"⟩

/-- A message the stub's `method` is called with. -/
structure StubCall where
  method  : String
  type    : MessageType
  request : Message type

/-! ## `HEAClient`

The four methods the class has. A migration also calls `drain_operator` and `restore_operator` on it, which it does
not have. -/

namespace HEAClient

/-- `get_telemetry`: a request without anything in it. -/
def getTelemetry : Except PyError StubCall := do
  let request ← construct telemetryRequest []
  .ok ⟨"GetTelemetry", _, request⟩

/-- `apply_placement`: the id and the map; the time is not filled. -/
def applyPlacement (directiveId : String) (operatorToTier : Dict String String) : Except PyError StubCall := do
  let request ← construct placementDirective
    [("directive_id", some (.string directiveId)), ("operator_to_tier", some (.stringMap operatorToTier))]
  .ok ⟨"ApplyPlacement", _, request⟩

/-- `trigger_snapshot`: the three fields of the request, all of them by their names. -/
def triggerSnapshot (operatorId : String) (migrationSeq : Int) (drainOffsetMap : String) :
    Except PyError StubCall := do
  let request ← construct snapshotRequest
    [ ("operator_id", some (.string operatorId)), ("migration_seq", some (.int migrationSeq)),
      ("drain_offset_map", some (.string drainOffsetMap)) ]
  .ok ⟨"TriggerSnapshot", _, request⟩

/-- `terminate_operator`: the operator and whether its state is flushed. -/
def terminateOperator (operatorId : String) (flushState : Bool) : Except PyError StubCall := do
  let request ← construct terminateRequest
    [("operator_id", some (.string operatorId)), ("flush_state", some (.bool flushState))]
  .ok ⟨"TerminateOperator", _, request⟩

/-- Looking up a method the class does not have. -/
def noAttribute (name : String) : PyError :=
  ⟨.attributeError, s!"'HEAClient' object has no attribute '{name}'"⟩

end HEAClient

/-! ## `FlinkConnectorClient`

Its `restore_operator` names a field that the message does not have. -/

namespace FlinkConnectorClient

/-- `restore_operator`: its second keyword is no field of the request. -/
def restoreOperator (operatorId : String) (snapshotKey : Option String) : Except PyError StubCall := do
  let request ← construct restoreRequest
    [("operator_id", some (.string operatorId)), ("snapshot_key", snapshotKey.map .string)]
  .ok ⟨"RestoreOperator", _, request⟩

/-- **`restore_operator` never builds a request**: `RestoreRequest` has no field `snapshot_key`. -/
theorem restoreOperator_error (operatorId : String) (snapshotKey : Option String) :
    ∃ e, restoreOperator operatorId snapshotKey = .error e := by
  have hundeclared : restoreRequest.typeOf "snapshot_key" = none := by decide
  have hbuild : ∃ e, Message.build restoreRequest
      [("operator_id", some (.string operatorId)), ("snapshot_key", snapshotKey.map .string)] = .error e :=
    Message.build_of_undeclared (List.mem_cons_of_mem _ (List.mem_singleton_self _)) hundeclared
  obtain ⟨e, he⟩ := hbuild
  unfold restoreOperator construct
  rw [he]
  cases e with
  | noField message field  => exact ⟨_, rfl⟩
  | badValue message field => exact ⟨_, rfl⟩
  | outOfRange value       => exact ⟨_, rfl⟩

end FlinkConnectorClient

/-! ## The RPCs of a migration

What becomes of each of the four RPCs before the wire: a message for the stub, or an exception. -/

/-- What the client called by a migration hands to its stub. `drain_operator` and `restore_operator` are
    called on a `HEAClient` that has no such methods. -/
def Rpc.stubCall : Rpc → Except PyError StubCall
  | .drainOperator _ _ => .error (HEAClient.noAttribute "drain_operator")
  | .triggerSnapshot _ operatorId migrationSeq drainOffsetMap =>
      HEAClient.triggerSnapshot operatorId migrationSeq drainOffsetMap.text
  | .restoreOperator tier operatorId snapshotKey =>
      if tier = "cloud" then FlinkConnectorClient.restoreOperator operatorId snapshotKey
      else .error (HEAClient.noAttribute "restore_operator")
  | .terminateOperator _ operatorId flushState => HEAClient.terminateOperator operatorId flushState

end Aode
end HybridStream
