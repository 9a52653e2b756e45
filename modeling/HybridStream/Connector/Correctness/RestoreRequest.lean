import HybridStream.Connector.Service

/-!
# `Connector.Correctness.RestoreRequest` — the restore request of a migration to the cloud

Phase 3 of a migration calls `restore_operator`, which builds a `RestoreRequest`; the connector's service
restores what the request names (`restoreOperator_restores`). `Arrives` puts the two together: the request
names the snapshot of the migration, the type of the operator and the drain offsets.

The client passes the key under a name `RestoreRequest` does not declare, so no request is ever built.
-/

namespace HybridStream
namespace Connector

open Lib Lib.Protobuf Py Aode FlinkConnectorServiceImpl

/-- The request makes the service restore the snapshot of the migration as an operator of the type, and it
    carries the drain offsets. -/
def Carries (F : Type) [JavaRuntime F] (m : PCTRMigration) (operatorType : String)
    (request : Message restoreRequest) : Prop :=
  ∃ key, m.snapshotObjectKey = some key ∧
    (∀ (b : Backends F) registry now service, ∃ calls,
      ((restoreOperator b registry now request).exec service).2.calls = service.calls ++ calls ∧
        Restores b key operatorType calls) ∧
    request.getString "drain_offset" = (Json.dumpsIntMap m.drainOffsetMap).text

/-- Phase 3 hands such a request to the stub. -/
def Arrives (F : Type) [JavaRuntime F] (clients : HeaClients) (m : PCTRMigration) (operatorType : String) :
    Prop :=
  ∃ rpc request, m.phase3Restore clients = .ok rpc ∧
    rpc.stubCall = .ok ⟨"RestoreOperator", restoreRequest, request⟩ ∧ Carries F m operatorType request

variable {F : Type} [JavaRuntime F]

/-- What phase 3 calls for a migration to the cloud. -/
theorem phase3Restore_cloud (clients : HeaClients) {m : PCTRMigration} (hcloud : m.targetTier = "cloud") :
    m.phase3Restore clients = .ok (.restoreOperator "cloud" m.operatorId m.snapshotObjectKey) := by
  unfold PCTRMigration.phase3Restore
  rw [if_pos hcloud, hcloud]

/-- What is called for it raises. -/
theorem stubCall_cloud (operatorId : String) (key : Option String) :
    ∃ e, (Rpc.restoreOperator "cloud" operatorId key).stubCall = .error e :=
  FlinkConnectorClient.restoreOperator_error operatorId key

theorem not_arrives (clients : HeaClients) {m : PCTRMigration} (operatorType : String)
    (hcloud : m.targetTier = "cloud") : ¬ Arrives F clients m operatorType := by
  rintro ⟨rpc, request, hrpc, hcall, -⟩
  rw [phase3Restore_cloud clients hcloud] at hrpc
  cases hrpc
  -- the constructor has raised: there is no message to carry anything
  obtain ⟨e, he⟩ := stubCall_cloud m.operatorId m.snapshotObjectKey
  rw [he] at hcall
  cases hcall

/-- **No restore request arrives.** For every migration to the cloud the client raises before it has a request, whatever
    the operator, its type, the key and the drain offsets are. The call has a keyword that is no field of the request,
    and the generated class looks at its keywords first. -/
theorem no_request_arrives (clients : HeaClients) (m : PCTRMigration) (operatorType : String)
    (hcloud : m.targetTier = "cloud") :
    (∃ rpc e, m.phase3Restore clients = .ok rpc ∧ rpc.stubCall = .error e) ∧
      ¬ Arrives F clients m operatorType := by
  obtain ⟨e, he⟩ := stubCall_cloud m.operatorId m.snapshotObjectKey
  exact ⟨⟨_, e, phase3Restore_cloud clients hcloud, he⟩, not_arrives clients operatorType hcloud⟩

/-- A migration of a risk check from an edge node to the cloud, its snapshot taken at offset 41. -/
def toCloud : PCTRMigration :=
  { PCTRMigration.new "m-1" "risk-credit" "edge-node-1" "cloud" with
    phase             := .phase3Restore
    drainOffsetMap    := Dict.ofList [(0, 41)]
    snapshotObjectKey := some "edge-node-1/risk-credit/7/snapshot.msgpack" }

theorem no_request_arrives_toCloud : ¬ Arrives ℚ ∅ toCloud "RiskCheck" :=
  (no_request_arrives ∅ toCloud "RiskCheck" rfl).2

/-- Its restore request does not arrive. -/
theorem toCloud_not_arrived : toCloud.targetTier = "cloud" ∧ ¬ Arrives ℚ ∅ toCloud "RiskCheck" :=
  ⟨rfl, not_arrives ∅ "RiskCheck" rfl⟩

end Connector
end HybridStream
