import HybridStream.Aode.Orchestration
import HybridStream.Hea.Correctness.SnapshotSignal
import HybridStream.Lib.Decimal
import Mathlib.Data.List.Perm.Basic

/-!
# `Aode.Correctness.SnapshotKeys` — whether a snapshot overwrites an earlier one

A migration names its snapshot by the operator and by the second in which it enters phase 2. The HEA uploads
the snapshot under a key put together from both, whenever it comes to the request, if it does
(`stored_under_objectKey`). Operator and second are read back from the key (`objectKey_injective`), so two operators
never share one; two migrations of one operator share theirs exactly where they enter phase 2 in the same second. Where
none do, no key is used twice (`snapshot_keys_distinct`), and what was uploaded stays in the bucket
(`upload_survives`).
-/

namespace HybridStream
namespace Aode

open Lib

/-! ## Object keys

The key is the id, a separator and the number, so both can be read off it. Two requests of one operator with one
number have one key, and the later upload replaces the earlier one. -/

/-- The operator and the number are read back from an object key. -/
theorem objectKey_injective {op op' : String} {seq seq' : Int}
    (h : Hea.objectKey op seq = Hea.objectKey op' seq') : op = op' ∧ seq = seq' := by
  have hslash : ∀ i : Int, '/' ∉ (toString i).toList := fun i => not_mem_decimal (by decide) (by decide)
  have hchars := congrArg String.toList h
  simp only [Hea.objectKey, String.toList_append] at hchars
  have hobject := List.append_cancel_right hchars
  simp only [List.append_assoc] at hobject
  obtain ⟨hop, hseq⟩ := (append_separator_inj (hslash seq) (hslash seq')).mp hobject
  exact ⟨String.toList_inj.mp hop, decimal_injective (String.toList_inj.mp hseq)⟩

/-- A request that an HEA has come to: the operator found under its id, if any, and how its handler fared. An engine
    has its operators under their own ids. -/
structure Handled (F : Type) where
  σ        : Type
  cls      : Hea.BaseOperator F σ
  operator : Option σ
  loop     : Except Py.PyError Unit
  upload   : Hea.Upload
  request  : Hea.SnapshotRequest
  own      : ∀ s, operator = some s → cls.operatorId s = request.operatorId

/-- The operator and the number of its request. -/
def Handled.named {F : Type} (h : Handled F) : String × Int := (h.request.operatorId, h.request.migrationSeq)

section Bucket

variable {F : Type} [Py.PyRuntime F] (mp : Py.MessagePack F) (registry : Common.SchemaRegistry)

/-- The bucket after a request. -/
def Handled.bucket (store : Common.ObjectStore) (h : Handled F) : Common.ObjectStore :=
  (Hea.triggerSnapshot mp registry h.cls h.operator h.loop h.upload store h.request).2

/-- What a request stores, if anything, it stores under the key of its operator and its number. -/
theorem stored_under_objectKey (store : Common.ObjectStore) (h : Handled F) :
    h.bucket mp registry store = store ∨
      ∃ bytes, h.bucket mp registry store =
        store.set (Hea.objectKey h.request.operatorId h.request.migrationSeq) bytes := by
  obtain ⟨σ, cls, operator, loop, upload, request, own⟩ := h
  unfold Handled.bucket Hea.triggerSnapshot
  cases operator with
  | none => exact Or.inl rfl
  | some s =>
      dsimp only
      rw [← own s rfl]
      rcases Hea.snapshotBody_cases mp registry cls s loop upload store request with
        ⟨e, stored, hbody, hcases⟩ | ⟨drainOffsets, bytes, -, -, hbody⟩
      · rw [hbody]
        exact hcases
      · rw [hbody]
        exact Or.inr ⟨bytes, rfl⟩

/-- An object stays as it is while requests of other operators, or with other numbers, are handled. -/
theorem get_bucket_of_ne {op : String} {seq : Int} {handled : List (Handled F)}
    (hne : ∀ h ∈ handled, h.named ≠ (op, seq)) (store : Common.ObjectStore) :
    (handled.foldl (Handled.bucket mp registry) store).get (Hea.objectKey op seq) =
      store.get (Hea.objectKey op seq) := by
  induction handled generalizing store with
  | nil => rfl
  | cons h handled ih =>
      rw [List.foldl_cons, ih (fun h' hmem => hne h' (List.mem_cons_of_mem h hmem))]
      rcases stored_under_objectKey mp registry store h with heq | ⟨bytes, heq⟩
      · rw [heq]
      · rw [heq]
        refine Lib.Dict.get_set_ne _ (fun hkey => ?_) _
        obtain ⟨hop, hseq⟩ := objectKey_injective hkey
        exact hne h List.mem_cons_self (Prod.ext hop.symm hseq.symm)

end Bucket

/-! ## Requests and uploads

The orchestrator numbers its requests by the clock, in seconds, and the HEAs come to them in any order. Where each
request of an operator falls into a second of its own, no two keys are alike, and then an object that was uploaded is
never replaced. -/

/-- The operator and the number of a snapshot request. -/
def Rpc.snapshot : Rpc → Option (String × Int)
  | .triggerSnapshot _ operatorId migrationSeq _ => some (operatorId, migrationSeq)
  | _                                            => none

/-- The clock reading of a resumption: `int(time.time())` where the task goes on. -/
def TaskEvent.reading : TaskEvent → Option Int
  | .start now      => some now
  | .returned _ now => some now
  | _               => none

/-- The clock reading of a step. -/
def OrchestratorStep.reading : OrchestratorStep → Option Int
  | .migrate ..   => none
  | .task _ event => event.reading

namespace MigrationTask

variable {clients : HeaClients} {timeoutS now seq : Int} {m : PCTRMigration} {t t' : MigrationTask}
  {tier op : String} {offsets : Py.Json}

theorem seq_of_enter {phase : MigrationPhase}
    (h : (enter clients now phase m).2 = some (.triggerSnapshot tier op seq offsets)) : seq = now := by
  unfold enter at h
  dsimp only at h
  split at h
  · rename_i rpc hrequest
    cases h
    cases phase with
    | phase1Drain | phase4Term =>
        obtain ⟨-, -, h⟩ := bind_eq_ok.mp hrequest
        cases h
    | phase2Snap =>
        obtain ⟨-, -, h⟩ := bind_eq_ok.mp hrequest
        cases h
        rfl
    | phase3Restore =>
        dsimp only [PCTRMigration.phase3Restore] at hrequest
        split at hrequest
        · cases hrequest
        · split at hrequest <;> cases hrequest
  · cases h

/-- The number of a snapshot request is the clock reading of the resumption that sends it. -/
theorem reading_of_triggerSnapshot {e : TaskEvent}
    (h : t.step clients timeoutS e = some (t', some (.triggerSnapshot tier op seq offsets))) :
    e.reading = some seq := by
  cases e with
  | start now => exact congrArg some (seq_of_enter (congrArg Prod.snd (step_start h).2.symm)).symm
  | raised text =>
      obtain ⟨-, _, hfail⟩ := step_failed (Or.inl ⟨text, rfl⟩) h
      cases hfail
  | timedOut =>
      obtain ⟨-, _, hfail⟩ := step_failed (Or.inr rfl) h
      cases hfail
  | returned r now =>
      have hres := (step_returned h).2
      -- unless the task ends, it enters the next phase with this reading
      have hnext : ∀ phase m', (t', some (Rpc.triggerSnapshot tier op seq offsets)) = enter clients now phase m' →
          (TaskEvent.returned r now).reading = some seq :=
        fun phase m' heq => congrArg some (seq_of_enter (congrArg Prod.snd heq.symm)).symm
      cases r with
      | drain r => exact hnext _ _ (resume_drain hres).2
      | snapshot r =>
          rcases (resume_snapshot hres).2 with ⟨-, _, hfail⟩ | ⟨-, henter⟩
          · cases hfail
          · exact hnext _ _ henter
      | restore r => exact hnext _ _ (resume_restore hres).2
      | terminate r =>
          rcases (resume_terminate hres).2 with ⟨-, hdone⟩ | ⟨-, _, hfail⟩
          · cases hdone
          · cases hfail

end MigrationTask

/-- An orchestrator and the HEAs: the last clock reading, the snapshot requests no HEA has come to, and those
    whose snapshots were uploaded, in this order. -/
structure Snapshots where
  orchestration : Orchestration
  clock         : Int
  inFlight      : List (String × Int)
  uploads       : List (String × Int)

/-- What happens next: the orchestrator takes a step, or an HEA uploads the snapshot of a request. -/
inductive SnapshotsStep where
  | orchestrator (a : OrchestratorStep)
  | upload (k : Nat)

namespace Snapshots

/-- The snapshot a step requests. -/
def requested (clients : HeaClients) (timeoutS : Int) (s : Snapshots) : SnapshotsStep → Option (String × Int)
  | .orchestrator (.task i event) => do
      let t ← s.orchestration.orchestrator.tasks[i]?
      let (_, rpc) ← t.step clients timeoutS event
      (← rpc).snapshot
  | _ => none

/-- One step. The clock does not go back. -/
def step (clients : HeaClients) (timeoutS : Int) (s : Snapshots) : SnapshotsStep → Option Snapshots
  | .orchestrator a => do
      let orchestration ← s.orchestration.step clients timeoutS a
      let now := a.reading.getD s.clock
      if s.clock ≤ now then
        some { s with
          orchestration := orchestration
          clock         := now
          inFlight      := s.inFlight ++ (s.requested clients timeoutS (.orchestrator a)).toList }
      else none
  | .upload k => do
      let request ← s.inFlight[k]?
      some { s with inFlight := s.inFlight.eraseIdx k, uploads := s.uploads ++ [request] }

/-- The runs from the first call of the orchestrator on. -/
def system (clients : HeaClients) (timeoutS : Int) : Lts Snapshots SnapshotsStep :=
  Lts.ofStep (fun s => s.orchestration = .new ∧ s.inFlight = [] ∧ s.uploads = []) (step clients timeoutS)

/-- The keys snapshots were uploaded under. -/
def keys (s : Snapshots) : List String := s.uploads.map (fun r => Hea.objectKey r.1 r.2)

/-- **A later second.** The step requests a snapshot of an operator only in a second in which none of it was
    requested before. -/
def LaterSecond (clients : HeaClients) (timeoutS : Int) (s : Snapshots) (a : SnapshotsStep) : Prop :=
  ∀ op second, s.requested clients timeoutS a = some (op, second) →
    ∀ r ∈ s.uploads ++ s.inFlight, r.1 = op → r.2 ≠ second

variable {clients : HeaClients} {timeoutS : Int} {s s' : Snapshots} {a : SnapshotsStep}

/-- The number of a request is the clock reading of the step that sends it. -/
theorem reading_of_requested {b : OrchestratorStep} {op : String} {second : Int}
    (h : s.requested clients timeoutS (.orchestrator b) = some (op, second)) : b.reading = some second := by
  cases b with
  | migrate op src tgt => cases h
  | task i event =>
      obtain ⟨t, -, h⟩ := Option.bind_eq_some_iff.mp h
      obtain ⟨⟨t', rpc⟩, hstep, h⟩ := Option.bind_eq_some_iff.mp h
      obtain ⟨rpc, rfl, h⟩ := Option.bind_eq_some_iff.mp h
      cases rpc with
      | drainOperator | restoreOperator | terminateOperator => cases h
      | triggerSnapshot tier op' seq offsets =>
          cases h
          exact MigrationTask.reading_of_triggerSnapshot hstep

/-- What a step does to the requests: one is sent, or one is carried out. -/
theorem step_cases (h : step clients timeoutS s a = some s') :
    (s'.uploads = s.uploads ∧ s'.inFlight = s.inFlight ++ (s.requested clients timeoutS a).toList) ∨
    (s.requested clients timeoutS a = none ∧ (s'.uploads ++ s'.inFlight).Perm (s.uploads ++ s.inFlight)) := by
  cases a with
  | orchestrator b =>
      obtain ⟨orchestration, -, h⟩ := Option.bind_eq_some_iff.mp h
      dsimp only at h
      split at h
      · cases h
        exact Or.inl ⟨rfl, rfl⟩
      · cases h
  | upload k =>
      obtain ⟨request, hk, h⟩ := Option.bind_eq_some_iff.mp h
      cases h
      refine Or.inr ⟨rfl, ?_⟩
      obtain ⟨hlt, hget⟩ := List.getElem?_eq_some_iff.mp hk
      dsimp only
      rw [List.append_assoc, ← hget]
      exact (List.getElem_cons_eraseIdx_perm hlt).append_left s.uploads

/-- The clock is never behind the number of a request: a request is numbered by the clock reading of its step. -/
theorem second_le_clock (h : (system clients timeoutS).Reachable s) : ∀ r ∈ s.uploads ++ s.inFlight, r.2 ≤ s.clock := by
  refine h.invariant (I := fun s => ∀ r ∈ s.uploads ++ s.inFlight, r.2 ≤ s.clock) ?_ ?_
  · rintro s ⟨-, hinFlight, huploads⟩
    rw [hinFlight, huploads]
    exact fun r hr => absurd hr List.not_mem_nil
  · intro s a s' hs hstep
    cases a with
    | orchestrator b =>
        obtain ⟨orchestration, -, h⟩ := Option.bind_eq_some_iff.mp hstep
        obtain ⟨hle, h⟩ := Option.ite_none_right_eq_some.mp h
        cases h
        intro r hr
        rw [← List.append_assoc] at hr
        rcases List.mem_append.mp hr with hold | hnew
        · exact Int.le_trans (hs r hold) hle
        · have hreading := reading_of_requested (Option.mem_toList.mp hnew)
          show r.2 ≤ b.reading.getD s.clock
          rw [hreading]
          exact Int.le_refl _
    | upload k =>
        have hclock : s'.clock = s.clock := by
          obtain ⟨request, -, h⟩ := Option.bind_eq_some_iff.mp hstep
          cases h
          rfl
        intro r hr
        rcases step_cases hstep with ⟨huploads, hinFlight⟩ | ⟨-, hperm⟩
        · rw [huploads, hinFlight] at hr
          rw [hclock]
          exact hs r (by simpa [requested] using hr)
        · rw [hclock]
          exact hs r (hperm.mem_iff.mp hr)

/-- **A second of its own is a later one**: where the clock does not go back, the condition says that the number of a
    request is greater than all those of its operator before. -/
theorem laterSecond_iff (h : (system clients timeoutS).Reachable s) (hstep : step clients timeoutS s a = some s') :
    LaterSecond clients timeoutS s a ↔ ∀ op second, s.requested clients timeoutS a = some (op, second) →
      ∀ r ∈ s.uploads ++ s.inFlight, r.1 = op → r.2 < second := by
  refine forall_congr' fun op => forall_congr' fun second => forall_congr' fun hrequested =>
    forall_congr' fun r => forall_congr' fun hr => forall_congr' fun _ => ?_
  have hle : r.2 ≤ second := by
    cases a with
    | upload k => cases hrequested
    | orchestrator b =>
        obtain ⟨orchestration, -, h'⟩ := Option.bind_eq_some_iff.mp hstep
        obtain ⟨hclock, -⟩ := Option.ite_none_right_eq_some.mp h'
        rw [reading_of_requested hrequested] at hclock
        exact Int.le_trans (second_le_clock h r hr) hclock
  omega

/-- Where every snapshot is requested in a second of its own, no two requests are alike. -/
theorem nodup_of_restricted (h : ((system clients timeoutS).restrict (LaterSecond clients timeoutS)).Reachable s) :
    (s.uploads ++ s.inFlight).Nodup := by
  refine h.invariant (I := fun s => (s.uploads ++ s.inFlight).Nodup) ?_ ?_
  · rintro s ⟨-, hinFlight, huploads⟩
    rw [hinFlight, huploads]
    exact List.nodup_nil
  · rintro s a s' hs ⟨hstep, hlater⟩
    rcases step_cases hstep with ⟨huploads, hinFlight⟩ | ⟨-, hperm⟩
    · rw [huploads, hinFlight, ← List.append_assoc]
      cases hrequested : s.requested clients timeoutS a with
      | none => rw [Option.toList_none, List.append_nil]; exact hs
      | some r =>
          -- the new request differs from all before in its operator or in its second
          have hnew : r ∉ s.uploads ++ s.inFlight := fun hmem => hlater r.1 r.2 hrequested r hmem rfl rfl
          rw [Option.toList_some]
          exact List.nodup_append.mpr ⟨hs, List.nodup_singleton r, fun x hx y hy heq =>
            hnew (by rw [← List.mem_singleton.mp hy, ← heq]; exact hx)⟩
    · exact hperm.nodup_iff.mpr hs

/-- **No snapshot is overwritten** in a run in which every migration enters its snapshot phase in a second in which no
    earlier one of its operator did: the keys uploaded under are pairwise different. Whatever the run, different
    operators never share a key. Operator and second are read back from a key, so keys are as different as the pairs
    they are made of. -/
theorem snapshot_keys_distinct
    (h : ((system clients timeoutS).restrict (LaterSecond clients timeoutS)).Reachable s) :
    s.keys.Nodup ∧
    ∀ s', (system clients timeoutS).Reachable s' → ∀ r ∈ s'.uploads, ∀ r' ∈ s'.uploads, r.1 ≠ r'.1 →
      Hea.objectKey r.1 r.2 ≠ Hea.objectKey r'.1 r'.2 := by
  constructor
  · refine List.Nodup.map_on (fun r _ r' _ hkey => ?_) (List.nodup_append.mp (nodup_of_restricted h)).1
    obtain ⟨hop, hseq⟩ := objectKey_injective hkey
    exact Prod.ext hop hseq
  · intro s' _ r _ r' _ hne hkey
    exact hne (objectKey_injective hkey).1

/-- **What was uploaded stays in the bucket** in such a run: the requests that are handled after it, whatever comes of
    them, leave the object of an upload alone. -/
theorem upload_survives {F : Type} [Py.PyRuntime F] (mp : Py.MessagePack F) (registry : Common.SchemaRegistry)
    (h : ((system clients timeoutS).restrict (LaterSecond clients timeoutS)).Reachable s)
    {before after : List (String × Int)} {r : String × Int} (huploads : s.uploads = before ++ r :: after)
    {handled : List (Handled F)} (hhandled : handled.map Handled.named = after) (store : Common.ObjectStore) :
    (handled.foldl (Handled.bucket mp registry) store).get (Hea.objectKey r.1 r.2) =
      store.get (Hea.objectKey r.1 r.2) := by
  have hnodup : (r :: after).Nodup := by
    have hall := (List.nodup_append.mp (nodup_of_restricted h)).1
    rw [huploads] at hall
    exact (List.nodup_append.mp hall).2.1
  refine get_bucket_of_ne mp registry (fun x hx heq => ?_) store
  -- a later request of the same operator and second
  refine (List.nodup_cons.mp hnodup).1 ?_
  rw [← hhandled, ← show x.named = r from heq]
  exact List.mem_map_of_mem hx

/-! ### A retry within the second

A first attempt that fails at once and a second one: made in the next second it has a key of its own, made in the same
second it has not. -/

/-- The only HEA. -/
def oneHea : HeaClients := Dict.ofList [("edge-node-1", ⟨"edge-node-1:50051"⟩)]

/-- A migration of `RiskCheck` to the cloud, from its start in second `now` to the upload of its snapshot, which is
    requested in second `later`. -/
def attempt (task : Nat) (now later : Int) : List SnapshotsStep :=
  [ .orchestrator (.migrate "RiskCheck" "edge-node-1" "cloud"), .orchestrator (.task task (.start now)),
    .orchestrator (.task task (.returned (.drain ⟨none⟩) later)), .upload 0 ]

instance (clients : HeaClients) (timeoutS : Int) (s : Snapshots) (a : SnapshotsStep) :
    Decidable (LaterSecond clients timeoutS s a) :=
  decidable_of_iff (∀ r ∈ (s.requested clients timeoutS a).toList, ∀ r' ∈ s.uploads ++ s.inFlight,
      r'.1 = r.1 → r'.2 ≠ r.2)
    ⟨fun h op second hr => h (op, second) (Option.mem_toList.mpr hr),
      fun h r hr => h r.1 r.2 (Option.mem_toList.mp hr)⟩

/-- The first attempt fails at once and the second is made a second later. -/
theorem snapshot_keys_distinct_retried :
    ∃ s : Snapshots, s.uploads = [("RiskCheck", 1000), ("RiskCheck", 1001)] ∧ s.keys.Nodup := by
  have hexec : Lts.exec (Lts.guardStep (step oneHea 300) (LaterSecond oneHea 300))
      (attempt 0 1000 1000 ++ .orchestrator (.task 0 (.raised "unavailable")) :: attempt 1 1001 1001)
      ⟨.new, 0, [], []⟩ = some _ := rfl
  have hreach : ((system oneHea 300).restrict (LaterSecond oneHea 300)).Reachable _ :=
    Lts.restrict_reachable_of_exec ⟨rfl, rfl, rfl⟩ hexec
  exact ⟨_, rfl, (snapshot_keys_distinct hreach).1⟩

/-- The second attempt is made in the same second: the two snapshots have one key. -/
theorem overwritten_within_second :
    ∃ s : Snapshots, (system oneHea 300).Reachable s ∧
      s.uploads = [("RiskCheck", 1000), ("RiskCheck", 1000)] ∧ ¬ s.keys.Nodup := by
  have hexec : Lts.exec (step oneHea 300)
      (attempt 0 1000 1000 ++ .orchestrator (.task 0 (.raised "unavailable")) :: attempt 1 1000 1000)
      ⟨.new, 0, [], []⟩ = some _ := rfl
  refine ⟨_, Lts.reachable_of_exec ⟨rfl, rfl, rfl⟩ hexec, rfl, fun hnodup => ?_⟩
  exact List.not_nodup_cons_of_mem List.mem_cons_self hnodup

end Snapshots

end Aode
end HybridStream
