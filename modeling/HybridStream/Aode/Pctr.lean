import HybridStream.Py.Json

/-!
# `Aode.Pctr` — the Drain-Snapshot-Restore-Terminate migration and its orchestrator

`aode/migration/pctr.py`. A migration is a coroutine with one `await` per phase, so each `_phase_k_*` is
given in two halves: up to its `await` (which client is called, with what request) and after it (what is
read from the response). `MigrationTask.step` strings the halves together: it is one resumption of the
background task `_execute_migration`, from one `await` to the next.

The environment answers an `await` in one of three ways: the RPC returns a response, it raises, or the
timeout of `asyncio.wait_for` fires and cancels it. The HEA and Flink clients are outside the model; an
RPC is the request they are called with.
-/

namespace HybridStream
namespace Aode

open Lib Py

/-! ## Requests and responses

The four RPCs of a migration and what they return. A failed restore is a response like any other; a snapshot that
failed carries its error. -/

/-- The RPCs a migration issues, with the tier whose client is called. -/
inductive Rpc where
  | drainOperator (tier operatorId : String)
  | triggerSnapshot (tier operatorId : String) (migrationSeq : Int) (drainOffsetMap : Json)
  | restoreOperator (tier operatorId : String) (snapshotKey : Option String)
  | terminateOperator (tier operatorId : String) (flushState : Bool)

/-- The response of `drain_operator`; the attribute `offset_map` may be missing. -/
structure DrainResponse where
  offsetMap : Option (Dict Int Int)

/-- `SnapshotResponse`, whose error text is empty in a success. -/
structure SnapshotResponse where
  objectKey : String
  byteSize  : Int
  errorMsg  : String

/-- `RestoreResponse`: a failed restore is an ordinary response with `success` false. -/
structure RestoreResponse where
  success      : Bool
  flinkJobId   : String
  errorMessage : String

/-- `TerminateAck`, with a text for what has gone wrong. -/
structure TerminateAck where
  success  : Bool
  errorMsg : String

/-- What an RPC returns, by its kind. -/
inductive Response where
  | drain (r : DrainResponse)
  | snapshot (r : SnapshotResponse)
  | restore (r : RestoreResponse)
  | terminate (r : TerminateAck)

/-! ## `PCTRMigration`

The attributes of a migration and its four phases, each cut at its `await` into the part before and the part after
it. -/

/-- `MigrationPhase`, in the order in which a migration goes through them. -/
inductive MigrationPhase where
  | phase1Drain | phase2Snap | phase3Restore | phase4Term
  deriving DecidableEq, Repr

/-- The endpoint a `HEAClient` is connected to. -/
structure HEAClient where
  endpoint : String
  deriving DecidableEq

/-- `hea_clients`, keyed by tier; the cloud is not among them. -/
abbrev HeaClients := Dict String HEAClient

/-- `PCTRMigration`: what a migration moves, where it stands, and what its calls have brought so far. -/
structure PCTRMigration where
  migrationId       : String
  operatorId        : String
  sourceTier        : String
  targetTier        : String
  phase             : MigrationPhase
  drainOffsetMap    : Dict Int Int
  snapshotObjectKey : Option String
  snapshotSize      : Int
  completed         : Bool
  error             : Option String

namespace PCTRMigration

/-- `PCTRMigration.__init__`: before the first phase, with nothing known of the operator's offsets or of a snapshot. -/
def new (migrationId operatorId sourceTier targetTier : String) : PCTRMigration where
  migrationId       := migrationId
  operatorId        := operatorId
  sourceTier        := sourceTier
  targetTier        := targetTier
  phase             := .phase1Drain
  drainOffsetMap    := ∅
  snapshotObjectKey := none
  snapshotSize      := 0
  completed         := false
  error             := none

/-- The operator of a migration, its source and its target tier. -/
def route (m : PCTRMigration) : String × String × String := (m.operatorId, m.sourceTier, m.targetTier)

/-- The client of the source tier, as phases 1, 2 and 4 look it up. -/
def sourceClient (clients : HeaClients) (m : PCTRMigration) : Except String HEAClient :=
  match clients.get m.sourceTier with
  | some client => .ok client
  | none        => .error s!"No HEA client for source tier: {m.sourceTier}"

/-- `_phase_1_drain` up to its `await`: the source tier needs a client. -/
def phase1Drain (clients : HeaClients) (m : PCTRMigration) : Except String Rpc := do
  let _ ← m.sourceClient clients
  .ok (.drainOperator m.sourceTier m.operatorId)

/-- `_phase_1_drain` after its `await`, which looks at nothing but the offsets; a response without them has none. -/
def phase1Drained (m : PCTRMigration) (response : DrainResponse) : PCTRMigration :=
  { m with drainOffsetMap := response.offsetMap.getD ∅ }

/-- `_phase_2_snapshot` up to its `await`; `now` is `int(time.time())`. -/
def phase2Snapshot (clients : HeaClients) (now : Int) (m : PCTRMigration) : Except String Rpc := do
  let _ ← m.sourceClient clients
  .ok (.triggerSnapshot m.sourceTier m.operatorId now (Json.dumpsIntMap m.drainOffsetMap))

/-- `_phase_2_snapshot` after its `await`: a text in the response ends the migration. -/
def phase2Snapped (m : PCTRMigration) (response : SnapshotResponse) : Except String PCTRMigration :=
  if response.errorMsg ≠ "" then .error s!"Snapshot failed: {response.errorMsg}"
  else .ok { m with snapshotObjectKey := some response.objectKey, snapshotSize := response.byteSize }

/-- `_phase_3_restore` up to its `await`: the cloud is asked through the connector, every other tier through its
    client. -/
def phase3Restore (clients : HeaClients) (m : PCTRMigration) : Except String Rpc :=
  if m.targetTier = "cloud" then .ok (.restoreOperator m.targetTier m.operatorId m.snapshotObjectKey)
  else match clients.get m.targetTier with
    | some _ => .ok (.restoreOperator m.targetTier m.operatorId m.snapshotObjectKey)
    | none   => .error s!"No HEA client for target tier: {m.targetTier}"

/-- `_phase_3_restore` after its `await`: the response is dropped. -/
def phase3Restored (m : PCTRMigration) (_response : RestoreResponse) : PCTRMigration := m

/-- `_phase_4_terminate` up to its `await`: the source tier needs a client again. -/
def phase4Terminate (clients : HeaClients) (m : PCTRMigration) : Except String Rpc := do
  let _ ← m.sourceClient clients
  .ok (.terminateOperator m.sourceTier m.operatorId true)

/-- `_phase_4_terminate` after its `await`, which ends the migration if the response reports a failure. -/
def phase4Terminated (m : PCTRMigration) (response : TerminateAck) : Except String PCTRMigration :=
  if response.success then .ok m else .error s!"Termination failed: {response.errorMsg}"

end PCTRMigration

/-! ## `execute`, one resumption at a time

The task is started, and then resumed once for each `await`, by a response, an exception or the timeout. A resumption
runs to the next `await` or to the end. -/

/-- Where a background task `_execute_migration` stands. -/
inductive TaskStatus where
  /-- Created by `asyncio.create_task`, not run yet. -/
  | pending
  /-- Suspended at the `await` of the migration's current phase. -/
  | awaiting
  /-- The `finally` block has run, and the entry of the operator is gone. -/
  | finished
  deriving DecidableEq, Repr

/-- The background task of a migration. -/
structure MigrationTask where
  migration : PCTRMigration
  status    : TaskStatus

/-- What resumes the task. The clock reading `now` is used where the task goes on into phase 2. -/
inductive TaskEvent where
  | start (now : Int)
  | returned (response : Response) (now : Int)
  | raised (text : String)
  | timedOut

namespace MigrationTask

/-- `except Exception as e: self.error = str(e)` -/
def fail (m : PCTRMigration) (text : String) : MigrationTask × Option Rpc :=
  (⟨{ m with error := some text }, .finished⟩, none)

/-- `execute` from the start of a phase to the `await` in it. -/
def enter (clients : HeaClients) (now : Int) (phase : MigrationPhase) (m : PCTRMigration) :
    MigrationTask × Option Rpc :=
  let m := { m with phase := phase }
  let request := match phase with
    | .phase1Drain   => m.phase1Drain clients
    | .phase2Snap    => m.phase2Snapshot clients now
    | .phase3Restore => m.phase3Restore clients
    | .phase4Term    => m.phase4Terminate clients
  match request with
  | .ok rpc     => (⟨m, .awaiting⟩, some rpc)
  | .error text => fail m text

/-- `execute` from the response of an `await` to the next `await` or to the end. A response of another
    RPC's type never arrives. -/
def resume (clients : HeaClients) (now : Int) (m : PCTRMigration) :
    Response → Option (MigrationTask × Option Rpc)
  | .drain r =>
      if m.phase = .phase1Drain then some (enter clients now .phase2Snap (m.phase1Drained r)) else none
  | .snapshot r =>
      if m.phase = .phase2Snap then
        match m.phase2Snapped r with
        | .ok m'      => some (enter clients now .phase3Restore m')
        | .error text => some (fail m text)
      else none
  | .restore r =>
      if m.phase = .phase3Restore then some (enter clients now .phase4Term (m.phase3Restored r)) else none
  | .terminate r =>
      if m.phase = .phase4Term then
        match m.phase4Terminated r with
        | .ok m'      => some (⟨{ m' with completed := true }, .finished⟩, none)
        | .error text => some (fail m text)
      else none

/-- One resumption of `_execute_migration`: the task afterwards and the RPC it suspends on, if any.
    `timeoutS` is `config.migration_timeout_s`. -/
def step (clients : HeaClients) (timeoutS : Int) (t : MigrationTask) :
    TaskEvent → Option (MigrationTask × Option Rpc)
  | .start now =>
      if t.status = .pending then some (enter clients now .phase1Drain t.migration) else none
  | .returned response now =>
      if t.status = .awaiting then resume clients now t.migration response else none
  | .raised text =>
      if t.status = .awaiting then some (fail t.migration text) else none
  | .timedOut =>
      if t.status = .awaiting then some (fail t.migration s!"Migration timed out after {timeoutS}s")
      else none

/-! ### What one resumption does

Each resumption by the phase it finds the task in, as rewriting rules, and last the outcome of every answer in one
statement: it is what the run invariants are derived from. -/

variable {clients : HeaClients} {timeoutS now : Int} {m : PCTRMigration} {t : MigrationTask}
  {p : MigrationTask × Option Rpc}

theorem enter_route (phase : MigrationPhase) : (enter clients now phase m).1.migration.route = m.route := by
  unfold enter
  cases phase <;> dsimp only <;> split <;> rfl

theorem step_start (h : t.step clients timeoutS (.start now) = some p) :
    t.status = .pending ∧ p = enter clients now .phase1Drain t.migration := by
  simp only [step, Option.ite_none_right_eq_some, Option.some.injEq] at h
  exact ⟨h.1, h.2.symm⟩

theorem step_returned {r : Response} (h : t.step clients timeoutS (.returned r now) = some p) :
    t.status = .awaiting ∧ resume clients now t.migration r = some p := by
  simp only [step, Option.ite_none_right_eq_some] at h
  exact h

/-- An exception or the timeout ends the task with an error text. -/
theorem step_failed {e : TaskEvent} (he : (∃ text, e = .raised text) ∨ e = .timedOut)
    (h : t.step clients timeoutS e = some p) :
    t.status = .awaiting ∧ ∃ text, p = fail t.migration text := by
  rcases he with ⟨text, rfl⟩ | rfl
  all_goals
    simp only [step, Option.ite_none_right_eq_some, Option.some.injEq] at h
    exact ⟨h.1, _, h.2.symm⟩

/-- A finished task is not resumed. -/
theorem running_of_step {e : TaskEvent} (h : t.step clients timeoutS e = some p) : t.status ≠ .finished := by
  intro hfinished
  cases e with
  | start | returned | raised | timedOut => simp [step, hfinished] at h

theorem resume_drain {r : DrainResponse} (h : resume clients now m (.drain r) = some p) :
    m.phase = .phase1Drain ∧ p = enter clients now .phase2Snap (m.phase1Drained r) := by
  simp only [resume, Option.ite_none_right_eq_some, Option.some.injEq] at h
  exact ⟨h.1, h.2.symm⟩

/-- A snapshot response ends the task if it carries an error, else the task goes on into phase 3. -/
theorem resume_snapshot {r : SnapshotResponse} (h : resume clients now m (.snapshot r) = some p) :
    m.phase = .phase2Snap ∧
      ((r.errorMsg ≠ "" ∧ ∃ text, p = fail m text) ∨
       (r.errorMsg = "" ∧ p = enter clients now .phase3Restore
          { m with snapshotObjectKey := some r.objectKey, snapshotSize := r.byteSize })) := by
  simp only [resume, PCTRMigration.phase2Snapped, Option.ite_none_right_eq_some] at h
  obtain ⟨hp, h⟩ := h
  refine ⟨hp, ?_⟩
  by_cases herr : r.errorMsg = ""
  · simp only [herr, ne_eq, not_true_eq_false, if_false, Option.some.injEq] at h
    exact Or.inr ⟨herr, h.symm⟩
  · simp only [ne_eq, herr, not_false_eq_true, if_true, Option.some.injEq] at h
    exact Or.inl ⟨herr, _, h.symm⟩

/-- Whatever the restore response says, the task goes on into phase 4. -/
theorem resume_restore {r : RestoreResponse} (h : resume clients now m (.restore r) = some p) :
    m.phase = .phase3Restore ∧ p = enter clients now .phase4Term m := by
  simp only [resume, Option.ite_none_right_eq_some, Option.some.injEq] at h
  exact ⟨h.1, h.2.symm⟩

theorem resume_terminate {r : TerminateAck} (h : resume clients now m (.terminate r) = some p) :
    m.phase = .phase4Term ∧
      ((r.success = true ∧ p = (⟨{ m with completed := true }, .finished⟩, none)) ∨
       (r.success = false ∧ ∃ text, p = fail m text)) := by
  simp only [resume, PCTRMigration.phase4Terminated, Option.ite_none_right_eq_some] at h
  obtain ⟨hp, h⟩ := h
  refine ⟨hp, ?_⟩
  cases hs : r.success with
  | true =>
      simp only [hs, if_true, Option.some.injEq] at h
      exact Or.inl ⟨rfl, h.symm⟩
  | false =>
      simp only [hs, Bool.false_eq_true, if_false, Option.some.injEq] at h
      exact Or.inr ⟨rfl, _, h.symm⟩

/-- A migration keeps its operator and its tiers. -/
theorem step_route {e : TaskEvent} (h : t.step clients timeoutS e = some p) :
    p.1.migration.route = t.migration.route := by
  cases e with
  | start now => rw [(step_start h).2, enter_route]
  | raised text =>
      obtain ⟨-, _, rfl⟩ := step_failed (Or.inl ⟨text, rfl⟩) h
      rfl
  | timedOut =>
      obtain ⟨-, _, rfl⟩ := step_failed (Or.inr rfl) h
      rfl
  | returned r now =>
      have hres := (step_returned h).2
      cases r with
      | drain r => rw [(resume_drain hres).2, enter_route]; rfl
      | snapshot r =>
          obtain ⟨-, ⟨-, _, rfl⟩ | ⟨-, rfl⟩⟩ := resume_snapshot hres
          · rfl
          · rw [enter_route]; rfl
      | restore r => rw [(resume_restore hres).2, enter_route]
      | terminate r =>
          obtain ⟨-, ⟨-, rfl⟩ | ⟨-, _, rfl⟩⟩ := resume_terminate hres
          · rfl
          · rfl

theorem step_operatorId {e : TaskEvent} (h : t.step clients timeoutS e = some p) :
    p.1.migration.operatorId = t.migration.operatorId := congrArg Prod.fst (step_route h)

/-- The phases that call the source tier suspend on their RPC where that tier has a client. -/
theorem enter_source {c : HEAClient} (h : clients.get m.sourceTier = some c) :
    enter clients now .phase1Drain m = (⟨{ m with phase := .phase1Drain }, .awaiting⟩,
      some (.drainOperator m.sourceTier m.operatorId)) ∧
    enter clients now .phase2Snap m = (⟨{ m with phase := .phase2Snap }, .awaiting⟩,
      some (.triggerSnapshot m.sourceTier m.operatorId now (Json.dumpsIntMap m.drainOffsetMap))) ∧
    enter clients now .phase4Term m = (⟨{ m with phase := .phase4Term }, .awaiting⟩,
      some (.terminateOperator m.sourceTier m.operatorId true)) := by
  simp [enter, PCTRMigration.phase1Drain, PCTRMigration.phase2Snapshot, PCTRMigration.phase4Terminate,
    PCTRMigration.sourceClient, h, bind, Except.bind]

theorem enter_drain_of_none (h : clients.get m.sourceTier = none) :
    ∃ text, enter clients now .phase1Drain m = fail { m with phase := .phase1Drain } text := by
  simp [enter, PCTRMigration.phase1Drain, PCTRMigration.sourceClient, h, bind, Except.bind]

/-- Phase 3 suspends on its RPC or ends the task for want of a client. -/
theorem enter_restore :
    enter clients now .phase3Restore m = (⟨{ m with phase := .phase3Restore }, .awaiting⟩,
      some (.restoreOperator m.targetTier m.operatorId m.snapshotObjectKey)) ∨
    ∃ text, enter clients now .phase3Restore m = fail { m with phase := .phase3Restore } text := by
  simp only [enter, PCTRMigration.phase3Restore]
  by_cases hcloud : m.targetTier = "cloud"
  · rw [if_pos hcloud]; exact Or.inl rfl
  · rw [if_neg hcloud]
    cases clients.get m.targetTier with
    | some c => exact Or.inl rfl
    | none   => exact Or.inr ⟨_, rfl⟩

/-- Whether the tier a phase calls has no client. -/
def missingClient (clients : HeaClients) (m : PCTRMigration) : MigrationPhase → Bool
  | .phase3Restore => m.targetTier != "cloud" && (clients.get m.targetTier).isNone
  | _              => (clients.get m.sourceTier).isNone

/-- Whether an answer ends the migration in a failure: an exception, the timeout, a snapshot with an error
    text, a refused terminate, or no client for the RPC that comes next. -/
def fails (clients : HeaClients) (m : PCTRMigration) : TaskEvent → Bool
  | .start _                   => missingClient clients m .phase1Drain
  | .returned (.drain _) _     => missingClient clients m .phase2Snap
  | .returned (.snapshot r) _  => r.errorMsg != "" || missingClient clients m .phase3Restore
  | .returned (.restore _) _   => missingClient clients m .phase4Term
  | .returned (.terminate r) _ => !r.success
  | .raised _                  => true
  | .timedOut                  => true

/-- What a migration is after an answer: ended uncompleted if the answer was a failure, else waiting for the
    next one or completed. -/
def Outcome (failed : Bool) (t : MigrationTask) : Prop :=
  if failed then t.status = .finished ∧ t.migration.completed = false
  else (t.status = .awaiting ∧ t.migration.completed = false) ∨
       (t.status = .finished ∧ t.migration.completed = true)

theorem enter_outcome (phase : MigrationPhase) (hm : m.completed = false) :
    Outcome (missingClient clients m phase) (enter clients now phase m).1 := by
  cases hmissing : missingClient clients m phase with
  | true =>
      cases phase
      case phase3Restore =>
        simp only [missingClient, Bool.and_eq_true, bne_iff_ne, ne_eq, Option.isNone_iff_eq_none] at hmissing
        simp [Outcome, enter, PCTRMigration.phase3Restore, hmissing.1, hmissing.2, fail, hm]
      all_goals
        simp only [missingClient, Option.isNone_iff_eq_none] at hmissing
        simp [Outcome, enter, PCTRMigration.phase1Drain, PCTRMigration.phase2Snapshot,
          PCTRMigration.phase4Terminate, PCTRMigration.sourceClient, hmissing, bind, Except.bind, fail, hm]
  | false =>
      cases phase
      case phase3Restore =>
        simp only [missingClient, Bool.and_eq_false_imp, bne_iff_ne, ne_eq, Option.isNone_eq_false_iff,
          Option.isSome_iff_exists] at hmissing
        by_cases hcloud : m.targetTier = "cloud"
        · simp [Outcome, enter, PCTRMigration.phase3Restore, hcloud, hm]
        · obtain ⟨c, hc⟩ := hmissing hcloud
          simp [Outcome, enter, PCTRMigration.phase3Restore, hcloud, hc, hm]
      all_goals
        simp only [missingClient, Option.isNone_eq_false_iff, Option.isSome_iff_exists] at hmissing
        obtain ⟨c, hc⟩ := hmissing
        simp [Outcome, enter, PCTRMigration.phase1Drain, PCTRMigration.phase2Snapshot,
          PCTRMigration.phase4Terminate, PCTRMigration.sourceClient, hc, bind, Except.bind, hm]

/-- **Every answer has its outcome.** It is by cases on the events, and by the phase where one goes on. -/
theorem step_outcome {e : TaskEvent} (h : t.step clients timeoutS e = some p)
    (hm : t.migration.completed = false) :
    Outcome (fails clients t.migration e) p.1 := by
  cases e with
  | start now =>
      obtain ⟨-, rfl⟩ := step_start h
      exact enter_outcome .phase1Drain hm
  | raised text =>
      obtain ⟨-, _, rfl⟩ := step_failed (Or.inl ⟨text, rfl⟩) h
      exact ⟨rfl, hm⟩
  | timedOut =>
      obtain ⟨-, _, rfl⟩ := step_failed (Or.inr rfl) h
      exact ⟨rfl, hm⟩
  | returned r now =>
      have hres := (step_returned h).2
      cases r with
      | drain r =>
          rw [(resume_drain hres).2]
          exact enter_outcome (m := t.migration.phase1Drained r) .phase2Snap hm
      | snapshot r =>
          obtain ⟨-, ⟨herr, _, rfl⟩ | ⟨herr, rfl⟩⟩ := resume_snapshot hres
          · simp [fails, herr, Outcome, fail, hm]
          · simp only [fails, herr, bne_self_eq_false, Bool.false_or]
            exact enter_outcome (m := { t.migration with
              snapshotObjectKey := some r.objectKey, snapshotSize := r.byteSize }) .phase3Restore hm
      | restore r =>
          rw [(resume_restore hres).2]
          exact enter_outcome .phase4Term hm
      | terminate r =>
          obtain ⟨-, ⟨hok, rfl⟩ | ⟨hok, _, rfl⟩⟩ := resume_terminate hres
          · simp [fails, hok, Outcome]
          · simp [fails, hok, Outcome, fail, hm]

end MigrationTask

/-! ## Lists of tasks

The tasks of an orchestrator are numbered in the order of their start, and an ended task stays in the list. -/

section Tasks

variable {tasks : List MigrationTask} {i j : Nat} {t t' u : MigrationTask}

/-- A task of a list one was appended to is the new one or an old one. -/
theorem getElem?_append_task (h : (tasks ++ [t])[i]? = some u) : tasks[i]? = some u ∨ (i = tasks.length ∧ u = t) := by
  by_cases hlt : i < tasks.length
  · rw [List.getElem?_append_left hlt] at h
    exact Or.inl h
  · have hle := (List.getElem?_eq_some_iff.mp h).1
    rw [List.length_append, List.length_singleton] at hle
    have heq : i = tasks.length := by omega
    rw [heq, List.getElem?_append_right (Nat.le_refl _), Nat.sub_self] at h
    exact Or.inr ⟨heq, (Option.some.inj h).symm⟩

/-- A task of a list one was changed in is the changed one or an old one. -/
theorem getElem?_set_task (hi : tasks[i]? = some t) (hj : (tasks.set i t')[j]? = some u) :
    (j = i ∧ u = t') ∨ (j ≠ i ∧ tasks[j]? = some u) := by
  by_cases hji : j = i
  · rw [hji, List.getElem?_set_self (List.getElem?_eq_some_iff.mp hi).1] at hj
    exact Or.inl ⟨hji, (Option.some.inj hj).symm⟩
  · rw [List.getElem?_set_ne (Ne.symm hji)] at hj
    exact Or.inr ⟨hji, hj⟩

end Tasks

/-! ## `PCTROrchestrator`

`migrate_operator` rejects an operator that is being migrated, and otherwise numbers the migration, enters it and
creates its task. -/

/-- `PCTROrchestrator`. Migrations are objects shared between `_active_migrations` and their tasks: `tasks`
    lists them in creation order and `activeMigrations` refers to them by position. -/
structure PCTROrchestrator where
  activeMigrations : Dict String Nat
  migrationCounter : Nat
  tasks            : List MigrationTask

namespace PCTROrchestrator

/-- `PCTROrchestrator.__init__`: nothing is under way, and nothing has been numbered. -/
def new : PCTROrchestrator := ⟨∅, 0, []⟩

/-- `f"{n:04d}"`: at least four digits, and as many as there are beyond 9999. -/
def pad4 (n : Nat) : String :=
  let digits := Nat.toDigits 10 n
  String.ofList (List.replicate (4 - digits.length) '0' ++ digits)

/-- `migrate_operator`: the operator may not be under way already; then the migration gets the next number and a
    task. -/
def migrateOperator (o : PCTROrchestrator) (operatorId sourceTier targetTier : String) :
    Except PyError (String × PCTROrchestrator) :=
  if o.activeMigrations.contains operatorId then
    .error ⟨.valueError, s!"Operator {operatorId} is already being migrated"⟩
  else
    let counter := o.migrationCounter + 1
    let migrationId := "migration-" ++ pad4 counter
    let migration := PCTRMigration.new migrationId operatorId sourceTier targetTier
    .ok (migrationId,
      { activeMigrations := o.activeMigrations.set operatorId o.tasks.length
        migrationCounter := counter
        tasks            := o.tasks ++ [⟨migration, .pending⟩] })

/-- A migration that is started was not active; it is entered under its operator, and its task is new. -/
theorem migrateOperator_eq_ok {o o' : PCTROrchestrator} {op src tgt migrationId : String}
    (h : o.migrateOperator op src tgt = .ok (migrationId, o')) :
    o.activeMigrations.get op = none ∧ o'.activeMigrations = o.activeMigrations.set op o.tasks.length ∧
    ∃ t : MigrationTask, o'.tasks = o.tasks ++ [t] ∧ t.status = .pending ∧ t.migration.completed = false ∧
      t.migration.operatorId = op ∧ t.migration.sourceTier = src ∧ t.migration.targetTier = tgt := by
  unfold migrateOperator at h
  cases hactive : o.activeMigrations.contains op with
  | true =>
      rw [hactive, if_pos rfl] at h
      cases h
  | false =>
      rw [hactive, if_neg (by simp)] at h
      cases h
      refine ⟨?_, rfl, _, rfl, rfl, rfl, rfl, rfl, rfl⟩
      unfold Dict.contains at hactive
      exact Option.not_isSome_iff_eq_none.mp (by rw [hactive]; simp)

/-- Its id is the next number. -/
theorem migrateOperator_counter {o o' : PCTROrchestrator} {op src tgt migrationId : String}
    (h : o.migrateOperator op src tgt = .ok (migrationId, o')) :
    migrationId = "migration-" ++ pad4 (o.migrationCounter + 1) ∧
      o'.migrationCounter = o.migrationCounter + 1 := by
  unfold migrateOperator at h
  split at h
  · cases h
  · cases h
    exact ⟨rfl, rfl⟩

theorem kind_of_migrateOperator {o : PCTROrchestrator} {op src tgt : String} {e : PyError}
    (h : o.migrateOperator op src tgt = .error e) : e.kind = .valueError := by
  unfold migrateOperator at h
  split at h
  · cases h
    rfl
  · cases h

/-- One resumption of the `i`-th background task; when it ends, the `finally` block pops its operator. -/
def stepTask (clients : HeaClients) (timeoutS : Int) (o : PCTROrchestrator) (i : Nat) (e : TaskEvent) :
    Option PCTROrchestrator := do
  let t ← o.tasks[i]?
  let (t', _) ← t.step clients timeoutS e
  some { o with
    activeMigrations :=
      if t'.status = .finished then o.activeMigrations.pop t.migration.operatorId else o.activeMigrations
    tasks := o.tasks.set i t' }

/-- What a resumption of a task does to the orchestrator. -/
theorem stepTask_eq_some {clients : HeaClients} {timeoutS : Int} {o o' : PCTROrchestrator} {i : Nat}
    {e : TaskEvent} (h : o.stepTask clients timeoutS i e = some o') :
    ∃ t t' rpc, o.tasks[i]? = some t ∧ t.step clients timeoutS e = some (t', rpc) ∧
      o'.tasks = o.tasks.set i t' ∧
      o'.activeMigrations = (if t'.status = .finished then o.activeMigrations.pop t.migration.operatorId
        else o.activeMigrations) := by
  obtain ⟨t, ht, h⟩ := Option.bind_eq_some_iff.mp h
  obtain ⟨⟨t', rpc⟩, hstep, h⟩ := Option.bind_eq_some_iff.mp h
  cases h
  exact ⟨t, t', rpc, ht, hstep, rfl, rfl⟩

theorem stepTask_counter {clients : HeaClients} {timeoutS : Int} {o o' : PCTROrchestrator} {i : Nat}
    {e : TaskEvent} (h : o.stepTask clients timeoutS i e = some o') :
    o'.migrationCounter = o.migrationCounter := by
  obtain ⟨t, -, h⟩ := Option.bind_eq_some_iff.mp h
  obtain ⟨⟨t', rpc⟩, -, h⟩ := Option.bind_eq_some_iff.mp h
  cases h
  rfl

end PCTROrchestrator

end Aode
end HybridStream
