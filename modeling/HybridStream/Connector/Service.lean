import HybridStream.Aode.Clients
import HybridStream.Connector.OperatorFactory
import HybridStream.Connector.SnapshotDeserializer

/-!
# `Connector.Service` — the gRPC service of the connector

`FlinkConnectorServiceImpl.java`. The object store and Jackson are parameters (`Backends`). The service's state
is its map of job ids and, so that one can say what a request makes it do, the calls it has made so far for
restores; `ConnectorJobs` adds the jobs it has cancelled.

`restoreOperator_restores` is the summary of one `RestoreOperator` request: the object it names is downloaded,
what was downloaded is deserialized as the type it names, and at most a job is submitted after that.
`restoreOperator_cases` says when a job is.
-/

namespace HybridStream
namespace Connector

open Lib Lib.Protobuf Py Aode

variable {F : Type} [JavaRuntime F]

/-- What the service calls outside the repository. -/
structure Backends (F : Type) where
  /-- `MinIOClient.downloadSnapshot`: an object of the bucket, read to its end. -/
  downloadSnapshot : String → Except JavaException (List UInt8)
  readValue        : SnapshotDeserializer.Mapper F

/-- A call made for a request. -/
inductive Call (F : Type) where
  | downloadSnapshot (objectKey : String)
  | deserialize (snapshotBytes : List UInt8) (operatorType : String)
  | submitFlinkJob (jobId : String) (operator : MigratedOperator F)

/-- The operator and the job of a submission. -/
def Call.submission : Call F → Option (String × String)
  | .submitFlinkJob jobId operator => some (operator.operatorId, jobId)
  | _                              => none

/-- `RestoreResponse` as the service fills it. -/
structure RestoreResponse where
  operationId  : String
  success      : Bool
  flinkJobId   : String
  errorMessage : String

/-- `FlinkConnectorServiceImpl`: the map of jobs, and the calls made so far to what is outside. -/
structure FlinkConnectorServiceImpl (F : Type) where
  operatorJobIds : Dict String String
  calls          : List (Call F)

namespace FlinkConnectorServiceImpl

/-- Note a call to the cluster or to the bucket. -/
def call (c : Call F) : Proc JavaException (FlinkConnectorServiceImpl F) PUnit :=
  modify fun service => { service with calls := service.calls ++ [c] }

/-- `submitFlinkJob`; `now` is `System.currentTimeMillis()`, which the id of the job is made of. -/
def submitFlinkJob (now : Int) (operatorId : String) (operator : MigratedOperator F) :
    Proc JavaException (FlinkConnectorServiceImpl F) String := do
  let jobId := s!"flink-job-{operatorId}-{now}"
  call (.submitFlinkJob jobId operator)
  return jobId

/-- The body of the `try` of `restoreOperator`. -/
def restore (b : Backends F) (registry : SchemaRegistry F) (now : Int) (request : Message restoreRequest) :
    Proc JavaException (FlinkConnectorServiceImpl F) RestoreResponse := do
  let operatorId := request.getString "operator_id"
  let snapshotKey := request.getString "object_key"
  let operatorType := request.getString "operator_type"
  call (.downloadSnapshot snapshotKey)
  let snapshotBytes ← Proc.lift (b.downloadSnapshot snapshotKey)
  call (.deserialize snapshotBytes operatorType)
  let rawState ← Proc.lift (SnapshotDeserializer.deserialize b.readValue registry snapshotBytes operatorType)
  let flinkState ← Proc.lift (SnapshotDeserializer.translateToFlinkState registry rawState operatorType)
  let operator := OperatorFactory.create operatorId operatorType (some flinkState)
  let jobId ← submitFlinkJob now operatorId operator
  modify fun service => { service with operatorJobIds := service.operatorJobIds.set operatorId jobId }
  return { operationId  := request.getString "operation_id"
           success      := true
           flinkJobId   := jobId
           errorMessage := "" }

/-- `restoreOperator`: whatever is thrown becomes a response. -/
def restoreOperator (b : Backends F) (registry : SchemaRegistry F) (now : Int)
    (request : Message restoreRequest) : Proc JavaException (FlinkConnectorServiceImpl F) RestoreResponse :=
  tryCatch (restore b registry now request) fun e =>
    return { operationId  := request.getString "operation_id"
             success      := false
             flinkJobId   := ""
             errorMessage := e.message.getD e.className }

/-! ## What a request makes the service do

The calls that a restore makes, in their order, up to the one that throws; and when it comes to a submission. -/

/-- The handler of `restoreOperator` makes no call and writes nothing. -/
theorem exec_restoreOperator (b : Backends F) (registry : SchemaRegistry F) (now : Int)
    (request : Message restoreRequest) (service : FlinkConnectorServiceImpl F) :
    ((restoreOperator b registry now request).exec service).2 =
      ((restore b registry now request).exec service).2 := by
  unfold restoreOperator
  rw [Proc.exec_tryCatch]
  rcases (restore b registry now request).exec service with ⟨e | response, t⟩
  · rfl
  · rfl

/-- The calls of a restore of the object `key` as an operator of the type. -/
def Restores (b : Backends F) (key operatorType : String) (calls : List (Call F)) : Prop :=
  match b.downloadSnapshot key with
  | .error _  => calls = [.downloadSnapshot key]
  | .ok bytes => ∃ submitted, calls = .downloadSnapshot key :: .deserialize bytes operatorType :: submitted ∧
      ∀ c ∈ submitted, ∃ jobId operator, c = .submitFlinkJob jobId operator

/-- **A request restores the object it names as the type it names.** -/
theorem restoreOperator_restores (b : Backends F) (registry : SchemaRegistry F) (now : Int)
    (request : Message restoreRequest) (service : FlinkConnectorServiceImpl F) :
    ∃ calls, ((restoreOperator b registry now request).exec service).2.calls = service.calls ++ calls ∧
      Restores b (request.getString "object_key") (request.getString "operator_type") calls := by
  rw [exec_restoreOperator]
  unfold restore submitFlinkJob call Restores
  simp only [Proc.exec_bind, Proc.exec_modify, Proc.exec_lift]
  -- one case for each place where the restore can end
  cases b.downloadSnapshot (request.getString "object_key") with
  | error e => exact ⟨_, rfl, rfl⟩
  | ok bytes =>
      simp only [List.append_assoc]
      cases SnapshotDeserializer.deserialize b.readValue registry bytes (request.getString "operator_type") with
      | error e => exact ⟨_, rfl, [], rfl, fun _ hc => absurd hc List.not_mem_nil⟩
      | ok rawState =>
          dsimp only
          cases SnapshotDeserializer.translateToFlinkState registry rawState
              (request.getString "operator_type") with
          | error e => exact ⟨_, rfl, [], rfl, fun _ hc => absurd hc List.not_mem_nil⟩
          | ok flinkState =>
              simp only [Proc.exec_pure, List.append_assoc]
              exact ⟨_, rfl, [_], rfl, fun c hc => ⟨_, _, List.mem_singleton.mp hc⟩⟩

/-- The snapshot of a request can be downloaded, deserialized and translated. -/
def Restorable (b : Backends F) (registry : SchemaRegistry F) (request : Message restoreRequest) : Prop :=
  ∃ snapshotBytes rawState flinkState,
    b.downloadSnapshot (request.getString "object_key") = .ok snapshotBytes ∧
    SnapshotDeserializer.deserialize b.readValue registry snapshotBytes (request.getString "operator_type") =
      .ok rawState ∧
    SnapshotDeserializer.translateToFlinkState registry rawState (request.getString "operator_type") =
      .ok flinkState

/-- **When a job is submitted**: exactly one for a snapshot that can be restored, and it is put under its operator;
    none otherwise, and then the map is left alone. -/
theorem restoreOperator_cases (b : Backends F) (registry : SchemaRegistry F) (now : Int)
    (request : Message restoreRequest) (service : FlinkConnectorServiceImpl F) :
    (Restorable b registry request ∧ ∃ jobId calls,
      ((restoreOperator b registry now request).exec service).2 =
        ⟨service.operatorJobIds.set (request.getString "operator_id") jobId, service.calls ++ calls⟩ ∧
      calls.filterMap Call.submission = [(request.getString "operator_id", jobId)]) ∨
    (¬ Restorable b registry request ∧ ∃ calls,
      ((restoreOperator b registry now request).exec service).2 = ⟨service.operatorJobIds, service.calls ++ calls⟩ ∧
      calls.filterMap Call.submission = []) := by
  unfold Restorable
  rw [exec_restoreOperator]
  unfold restore submitFlinkJob call
  simp only [Proc.exec_bind, Proc.exec_modify, Proc.exec_lift]
  -- by where the restore fails: at the download, at the bytes, at the schema, or not at all
  cases hdownload : b.downloadSnapshot (request.getString "object_key") with
  | error e =>
      refine Or.inr ⟨?_, _, rfl, rfl⟩
      rintro ⟨snapshotBytes, rawState, flinkState, h, -⟩
      cases h
  | ok bytes =>
      simp only [List.append_assoc]
      cases hread : SnapshotDeserializer.deserialize b.readValue registry bytes
          (request.getString "operator_type") with
      | error e =>
          refine Or.inr ⟨?_, _, rfl, rfl⟩
          rintro ⟨snapshotBytes, rawState, flinkState, h, hread', -⟩
          cases h
          rw [hread] at hread'
          cases hread'
      | ok rawState =>
          dsimp only
          cases htranslate : SnapshotDeserializer.translateToFlinkState registry rawState
              (request.getString "operator_type") with
          | error e =>
              refine Or.inr ⟨?_, _, rfl, rfl⟩
              rintro ⟨snapshotBytes, rawState', flinkState, h, hread', htranslate'⟩
              cases h
              rw [hread] at hread'
              cases hread'
              rw [htranslate] at htranslate'
              cases htranslate'
          | ok flinkState =>
              simp only [Proc.exec_pure, List.append_assoc]
              exact Or.inl ⟨⟨bytes, rawState, flinkState, rfl, hread, htranslate⟩, _, _, rfl, rfl⟩

/-! ## Terminating and reporting jobs

The map from operators to jobs is looked through for a job, and loses its entry before the job is cancelled. -/

/-- `JobStatusRequest`, which names a job and not its operator. -/
def jobStatusRequest : MessageType := ⟨"JobStatusRequest", [("flink_job_id", .string)], by decide⟩

/-- `JobStatusResponse` as the service fills it. -/
structure JobStatusResponse where
  operatorId : String
  jobId      : String
  status     : String

/-- `getJobStatus`: the first operator found that has the job. -/
def getJobStatus (service : FlinkConnectorServiceImpl F) (request : Message jobStatusRequest) : JobStatusResponse :=
  let flinkJobId := request.getString "flink_job_id"
  match service.operatorJobIds.entries.find? (fun e => e.2 == flinkJobId) with
  | some e => ⟨e.1, flinkJobId, "RUNNING"⟩
  | none   => ⟨"", "", "NOT_FOUND"⟩

end FlinkConnectorServiceImpl

/-- `TerminateAck` as the service fills it. -/
structure TerminateAck where
  operatorId : String
  success    : Bool
  errorMsg   : String

/-- The service, and the jobs `cancelFlinkJob` has cancelled, with the operators they were cancelled for. -/
structure ConnectorJobs (F : Type) where
  service   : FlinkConnectorServiceImpl F
  cancelled : List (String × String)

namespace ConnectorJobs

/-- `cancelFlinkJob`, which throws or not; only if it does not, the job is cancelled. -/
def cancelFlinkJob (outcome : Except JavaException PUnit) (operatorId jobId : String) :
    Proc JavaException (ConnectorJobs F) PUnit := do
  Proc.lift outcome
  modify fun s => { s with cancelled := s.cancelled ++ [(operatorId, jobId)] }

/-- `terminateOperator`; `outcome` is that of `cancelFlinkJob`. The job is taken from the map before it is
    cancelled. -/
def terminateOperator (outcome : Except JavaException PUnit) (request : Message terminateRequest) :
    Proc JavaException (ConnectorJobs F) TerminateAck := do
  let operatorId := request.getString "operator_id"
  let jobId := (← get).service.operatorJobIds.get operatorId
  modify fun s =>
    { s with service := { s.service with operatorJobIds := s.service.operatorJobIds.pop operatorId } }
  match jobId with
  | none =>
      return { operatorId := operatorId
               success    := false
               errorMsg   := "No active Flink job found for operator " ++ operatorId }
  | some jobId =>
      tryCatch (do
          cancelFlinkJob outcome operatorId jobId
          return { operatorId := operatorId, success := true, errorMsg := "" })
        fun e => return { operatorId := operatorId
                          success    := false
                          errorMsg   := e.message.getD e.className }

end ConnectorJobs

end Connector
end HybridStream
