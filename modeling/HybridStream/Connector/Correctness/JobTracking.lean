import HybridStream.Connector.Service
import HybridStream.Lib.Assignment
import HybridStream.Lib.Lts
import Mathlib.Algebra.Order.Group.Multiset

/-!
# `Connector.Correctness.JobTracking` — whether the service knows every job that runs

A job runs from its submission until it is cancelled, and the service knows the jobs in its map. Two calls lose
one: a restore that puts its job over one the operator already has, and a termination whose cancellation throws
after the job was taken from the map. In every run without such calls the jobs that run are the entries of the
map (`no_orphan_jobs`).
-/

namespace HybridStream
namespace Connector

open Lib Lib.Protobuf Py Aode

variable {F : Type} [JavaRuntime F] {registry : SchemaRegistry F}

/-- A request to the service, with what the environment answers to it. -/
inductive ServiceRequest (F : Type) where
  | restore (b : Backends F) (now : Int) (request : Message restoreRequest)
  | terminate (cancellation : Except JavaException PUnit) (request : Message terminateRequest)

namespace ConnectorJobs

/-- The service has not been called. -/
def new : ConnectorJobs F := ⟨⟨∅, []⟩, []⟩

/-- One request. -/
def step (registry : SchemaRegistry F) (s : ConnectorJobs F) : ServiceRequest F → Option (ConnectorJobs F)
  | .restore b now request =>
      some { s with service :=
        ((FlinkConnectorServiceImpl.restoreOperator b registry now request).exec s.service).2 }
  | .terminate cancellation request => some ((terminateOperator cancellation request).exec s).2

/-- The service under any sequence of requests. -/
def system (registry : SchemaRegistry F) : Lts (ConnectorJobs F) (ServiceRequest F) :=
  Lts.ofStep (fun s => s = new) (step registry)

/-- The jobs submitted, with their operators. -/
def submitted (s : ConnectorJobs F) : List (String × String) := s.service.calls.filterMap Call.submission

/-- The jobs that run: submitted, and not cancelled. -/
def live (s : ConnectorJobs F) : Multiset (String × String) :=
  (s.submitted : Multiset (String × String)) - s.cancelled

/-- The request does not lose a job: a snapshot that can be restored is one of an operator without a job, and a
    cancellation that throws is not come to. -/
def LosesNone (registry : SchemaRegistry F) (s : ConnectorJobs F) : ServiceRequest F → Prop
  | .restore b _ request => FlinkConnectorServiceImpl.Restorable b registry request →
      s.service.operatorJobIds.get (request.getString "operator_id") = none
  | .terminate cancellation request => cancellation ≠ .ok ⟨⟩ →
      s.service.operatorJobIds.get (request.getString "operator_id") = none

/-! ## The map holds the jobs that run

The jobs that were submitted and not cancelled, against the map of the service. The requests that would lose one are
those that restore an operator that has a job, and those whose cancellation throws after the entry has been
removed. -/

/-- What was submitted is in the map or was cancelled. -/
def Tracked (s : ConnectorJobs F) : Prop :=
  s.submitted.Perm (s.service.operatorJobIds.entries ++ s.cancelled)

variable {s s' : ConnectorJobs F}

omit [JavaRuntime F] in
theorem Tracked.live_eq (h : s.Tracked) :
    s.live = (s.service.operatorJobIds.entries : Multiset (String × String)) := by
  unfold live
  rw [Multiset.coe_eq_coe.mpr h, ← Multiset.coe_add, add_tsub_cancel_right]

omit [JavaRuntime F] in
/-- What a termination does. -/
theorem exec_terminateOperator (cancellation : Except JavaException PUnit) (request : Message terminateRequest)
    (s : ConnectorJobs F) :
    (s.service.operatorJobIds.get (request.getString "operator_id") = none ∧
      ((terminateOperator cancellation request).exec s).2 = s) ∨
    ∃ jobId, s.service.operatorJobIds.get (request.getString "operator_id") = some jobId ∧
      (cancellation = .ok ⟨⟩ →
        (terminateOperator cancellation request).exec s =
          (.ok ⟨request.getString "operator_id", true, ""⟩,
            ⟨{ s.service with operatorJobIds := s.service.operatorJobIds.pop (request.getString "operator_id") },
              s.cancelled ++ [(request.getString "operator_id", jobId)]⟩)) := by
  unfold terminateOperator cancelFlinkJob
  rw [Proc.exec_get_bind, Proc.exec_modify_bind]
  cases hget : s.service.operatorJobIds.get (request.getString "operator_id") with
  | none =>
      refine Or.inl ⟨rfl, ?_⟩
      rw [Dict.pop_of_get_none hget]
      rfl
  | some jobId =>
      refine Or.inr ⟨jobId, rfl, ?_⟩
      rintro rfl
      rfl

theorem Tracked.restore (h : s.Tracked) {b : Backends F} {now : Int} {request : Message restoreRequest}
    (hnone : FlinkConnectorServiceImpl.Restorable b registry request →
      s.service.operatorJobIds.get (request.getString "operator_id") = none) :
    Tracked { s with service :=
      ((FlinkConnectorServiceImpl.restoreOperator b registry now request).exec s.service).2 } := by
  unfold Tracked submitted at h ⊢
  rcases FlinkConnectorServiceImpl.restoreOperator_cases b registry now request s.service with
    ⟨hrestorable, jobId, calls, heq, hcalls⟩ | ⟨-, calls, heq, hcalls⟩
  · have hnew : request.getString "operator_id" ∉ s.service.operatorJobIds.keys := by
      rw [Dict.mem_keys_iff, hnone hrestorable]
      simp
    rw [heq, List.filterMap_append, hcalls, Dict.entries_set_of_not_mem hnew]
    refine (h.append_right _).trans ?_
    rw [List.append_assoc, List.append_assoc]
    exact List.perm_append_comm.append_left _
  · rw [heq, List.filterMap_append, hcalls, List.append_nil]
    exact h

omit [JavaRuntime F] in
theorem Tracked.terminate (h : s.Tracked) {cancellation : Except JavaException PUnit}
    {request : Message terminateRequest} (hnone : cancellation ≠ .ok ⟨⟩ →
      s.service.operatorJobIds.get (request.getString "operator_id") = none) :
    Tracked ((terminateOperator cancellation request).exec s).2 := by
  rcases exec_terminateOperator cancellation request s with ⟨-, heq⟩ | ⟨jobId, hget, heq⟩
  · rw [heq]
    exact h
  · have hok : cancellation = .ok ⟨⟩ := by
      by_contra hne
      rw [hnone hne] at hget
      cases hget
    rw [heq hok]
    unfold Tracked submitted at h ⊢
    refine h.trans ?_
    refine ((Dict.perm_entries_pop hget).append_right _).trans ?_
    rw [← List.append_assoc]
    exact (List.perm_append_singleton _ _).symm

theorem tracked_of_restricted (h : ((system registry).restrict (LosesNone registry)).Reachable s) : s.Tracked := by
  refine h.invariant ?_ ?_
  · rintro s rfl
    exact List.Perm.refl []
  · rintro s (⟨b, now, request⟩ | ⟨cancellation, request⟩) s' hs ⟨hstep, hnone⟩
    · cases hstep
      exact hs.restore hnone
    · cases hstep
      exact hs.terminate hnone

omit [JavaRuntime F] in
/-- A job in the map is reported as running, for an operator that has it. -/
theorem getJobStatus_of_mem {service : FlinkConnectorServiceImpl F} {op jobId : String}
    (hmem : (op, jobId) ∈ service.operatorJobIds.entries)
    {request : Message FlinkConnectorServiceImpl.jobStatusRequest}
    (hrequest : request.getString "flink_job_id" = jobId) :
    ∃ owner, (owner, jobId) ∈ service.operatorJobIds.entries ∧
      service.getJobStatus request = ⟨owner, jobId, "RUNNING"⟩ := by
  unfold FlinkConnectorServiceImpl.getJobStatus
  rw [hrequest]
  dsimp only
  cases hfind : service.operatorJobIds.entries.find? (fun e => e.2 == jobId) with
  | none => exact absurd (BEq.refl jobId) (List.find?_eq_none.mp hfind _ hmem)
  | some e =>
      have hequal := List.find?_some hfind
      have hjob : e.2 = jobId := eq_of_beq hequal
      refine ⟨e.1, ?_, rfl⟩
      rw [← hjob]
      exact List.mem_of_find?_eq_some hfind

/-- **No job is orphaned** in a run none of whose requests loses one: the jobs that run are the entries of the map, one
    an operator; each is reported as running, and a termination of its operator cancels it. Each request but those that
    lose a job changes the map and the jobs that run in the same way, so they stay equal. -/
theorem no_orphan_jobs (h : ((system registry).restrict (LosesNone registry)).Reachable s) :
    s.live = (s.service.operatorJobIds.entries : Multiset (String × String)) ∧
    (s.live.map Prod.fst).Nodup ∧
    ∀ op jobId, (op, jobId) ∈ s.live →
      (∀ request, request.getString "flink_job_id" = jobId →
        ∃ owner, (owner, jobId) ∈ s.live ∧ s.service.getJobStatus request = ⟨owner, jobId, "RUNNING"⟩) ∧
      ∀ request, request.getString "operator_id" = op →
        ∃ s', (terminateOperator (.ok ⟨⟩) request).exec s = (.ok ⟨op, true, ""⟩, s') ∧
          s'.live = s.live.erase (op, jobId) := by
  have htracked := tracked_of_restricted h
  have hlive := htracked.live_eq
  refine ⟨hlive, ?_, fun op jobId hmem => ⟨fun request hrequest => ?_, ?_⟩⟩
  · rw [hlive]
    exact Multiset.coe_nodup.mpr s.service.operatorJobIds.keys_nodup
  · rw [hlive] at hmem ⊢
    exact getJobStatus_of_mem (Multiset.mem_coe.mp hmem) hrequest
  · rintro request rfl
    rw [hlive] at hmem
    have hget := Dict.get_eq_some_iff.mpr (Multiset.mem_coe.mp hmem)
    rcases exec_terminateOperator (.ok ⟨⟩) request s with ⟨hnone, -⟩ | ⟨jobId', hget', heq⟩
    · rw [hnone] at hget
      cases hget
    · rw [hget] at hget'
      cases hget'
      refine ⟨_, heq rfl, ?_⟩
      unfold live
      rw [← Multiset.coe_add, Multiset.coe_singleton, ← tsub_tsub, Multiset.sub_singleton]
      rfl

/-! ### An operator restored twice

Restored, terminated and restored again it has one job; restored twice in a row it has two, one of which nobody
knows. -/

/-- A schema without fields. -/
def detectorRegistry : SchemaRegistry ℚ :=
  ⟨Dict.ofList [("VehicleDetector", ∅)], Dict.ofList [("VehicleDetector", [1])]⟩

/-- Every object is a snapshot of an empty state. -/
def snapshots : Backends ℚ :=
  ⟨fun _ => .ok [0x48, 0x53, 0x4d, 0x50, 0, 1], fun _ => .ok (some ∅)⟩

def restoreDetector : Message restoreRequest :=
  (Message.build restoreRequest
    [ ("operation_id", some (.string "op-001")), ("operator_id", some (.string "test-operator")),
      ("object_key", some (.string "test-key")),
      ("operator_type", some (.string "VehicleDetector")) ]).toOption.getD .empty

def terminateDetector : Message terminateRequest :=
  (Message.build terminateRequest [("operator_id", some (.string "test-operator"))]).toOption.getD .empty

/-- Restored, terminated and restored again: one job runs. -/
theorem no_orphan_jobs_restored_again : ∃ s : ConnectorJobs ℚ,
    s.service.operatorJobIds.entries = [("test-operator", "flink-job-test-operator-2000")] ∧
    s.live = ↑[("test-operator", "flink-job-test-operator-2000")] := by
  have hstart : ((system detectorRegistry).restrict (LosesNone detectorRegistry)).Run new [] new := .refl
  have hrestored := hstart.tail (a := ServiceRequest.restore snapshots 1000 restoreDetector) ⟨rfl, fun _ => rfl⟩
  have hterminated := hrestored.tail (a := ServiceRequest.terminate (.ok ⟨⟩) terminateDetector)
    ⟨rfl, fun h => absurd rfl h⟩
  have hagain := hterminated.tail (a := ServiceRequest.restore snapshots 2000 restoreDetector) ⟨rfl, fun _ => rfl⟩
  exact ⟨_, rfl, (no_orphan_jobs ⟨_, _, rfl, hagain⟩).1⟩

/-- A second restore leaves the first job without an entry, and so does a cancellation that throws. -/
theorem orphaned_jobs :
    (∃ s, (system detectorRegistry).Reachable s ∧
      s.live = ↑[("test-operator", "flink-job-test-operator-1000"), ("test-operator", "flink-job-test-operator-2000")] ∧
      s.service.operatorJobIds.entries = [("test-operator", "flink-job-test-operator-2000")]) ∧
    ∃ s, (system detectorRegistry).Reachable s ∧
      s.live = ↑[("test-operator", "flink-job-test-operator-1000")] ∧ s.service.operatorJobIds.entries = [] := by
  have htwice : Lts.exec (step detectorRegistry)
      [.restore snapshots 1000 restoreDetector, .restore snapshots 2000 restoreDetector] new = some _ := rfl
  have hthrown : Lts.exec (step detectorRegistry)
      [.restore snapshots 1000 restoreDetector, .terminate (.error .nullPointer) terminateDetector] new =
        some _ := rfl
  exact ⟨⟨_, Lts.reachable_of_exec rfl htwice, rfl, rfl⟩, _, Lts.reachable_of_exec rfl hthrown, rfl, rfl⟩

end ConnectorJobs

end Connector
end HybridStream
