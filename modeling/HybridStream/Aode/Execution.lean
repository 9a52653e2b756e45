import HybridStream.Aode.Pctr
import HybridStream.Lib.Lts

/-!
# `Aode.Execution` — one migration among its servers

A run of `PCTROrchestrator._execute_migration` as a labelled transition system. The state holds the
background task, the entry of `_active_migrations` it is responsible for, everything that crossed the wire
so far, and which RPCs the servers have carried out. The label of a step is the answer to the current
`await`: a response, an exception or the timeout, together with what became of the RPC on the server.

An RPC that raises or is cancelled may or may not have been carried out. A response tells more
(`TaskEvent.honest`): a drain that returned has stopped the source, a restore returned a success flag that
says whether an instance was started, an acknowledged terminate has removed the source.
-/

namespace HybridStream
namespace Aode

open Lib

/-! ## The instances of the migrated operator

Two instances, on the source and on the target. Carrying out an RPC changes one of them, and what has been carried out
can be read off which kinds occurred, in whatever order. -/

namespace Rpc

/-- The phase that issues the RPC. -/
def phase : Rpc → MigrationPhase
  | .drainOperator ..     => .phase1Drain
  | .triggerSnapshot ..   => .phase2Snap
  | .restoreOperator ..   => .phase3Restore
  | .terminateOperator .. => .phase4Term

end Rpc

/-- The source and the target instance of the operator. -/
structure Instances where
  sourceExists    : Bool
  sourceConsuming : Bool
  targetRuns      : Bool
  deriving DecidableEq

namespace Instances

/-- Before phase 1: the source consumes, the target tier has no instance. -/
def before : Instances := ⟨true, true, false⟩

/-- What carrying out an RPC does: drain stops the source, restore starts the target, terminate removes
    the source. -/
def apply (w : Instances) (rpc : Rpc) : Instances :=
  match rpc.phase with
  | .phase1Drain   => { w with sourceConsuming := false }
  | .phase2Snap    => w
  | .phase3Restore => { w with targetRuns := true }
  | .phase4Term    => { w with sourceExists := false, sourceConsuming := false }

end Instances

/-- Some RPC of the phase is in the list. -/
def HasPhase (rpcs : List Rpc) (p : MigrationPhase) : Prop := ∃ rpc ∈ rpcs, rpc.phase = p

@[simp] theorem hasPhase_nil {p : MigrationPhase} : ¬ HasPhase [] p := by simp [HasPhase]

theorem hasPhase_append {rpcs rpcs' : List Rpc} {p : MigrationPhase} :
    HasPhase (rpcs ++ rpcs') p ↔ HasPhase rpcs p ∨ HasPhase rpcs' p := by
  simp only [HasPhase, List.mem_append, or_and_right, exists_or]

theorem hasPhase_if {rpc : Rpc} {b : Bool} {p : MigrationPhase} :
    HasPhase (if b then [rpc] else []) p ↔ b = true ∧ rpc.phase = p := by
  cases b <;> simp [HasPhase]

/-- The instances after any RPCs were carried out, in any order, read off which kinds occurred. -/
theorem foldl_apply (rpcs : List Rpc) (w : Instances) :
    ((rpcs.foldl Instances.apply w).sourceExists = true
        ↔ w.sourceExists = true ∧ ¬ HasPhase rpcs .phase4Term) ∧
    ((rpcs.foldl Instances.apply w).sourceConsuming = true
        ↔ w.sourceConsuming = true ∧ ¬ HasPhase rpcs .phase1Drain ∧ ¬ HasPhase rpcs .phase4Term) ∧
    ((rpcs.foldl Instances.apply w).targetRuns = true
        ↔ w.targetRuns = true ∨ HasPhase rpcs .phase3Restore) := by
  induction rpcs generalizing w with
  | nil => simp [HasPhase]
  | cons rpc rpcs ih =>
      obtain ⟨hexists, hconsuming, hruns⟩ := ih (w.apply rpc)
      simp only [List.foldl_cons, hexists, hconsuming, hruns]
      cases rpc <;> simp [Instances.apply, Rpc.phase, HasPhase]

/-! ## The transition system

The label of a step is the answer to the current `await` and whether the server has carried out the request by then. A
task that raised or was timed out does not know that. -/

/-- What crosses the wire. -/
inductive WireEvent where
  | sent (rpc : Rpc)
  | received (response : Response)

/-- The state of one run of `_execute_migration`. -/
structure Execution where
  task             : MigrationTask
  activeMigrations : Dict String String
  wire             : List WireEvent
  outstanding      : Option Rpc
  carriedOut       : List Rpc

/-- The answer to an `await`, and whether the server has carried out the RPC by then. -/
structure Answer where
  event      : TaskEvent
  carriedOut : Bool

namespace TaskEvent

/-- What the servers promise: `carried` agrees with what a response reports. -/
def honest (carried : Bool) : TaskEvent → Bool
  | .returned (.drain _) _     => carried
  | .returned (.restore r) _   => carried == r.success
  | .returned (.terminate r) _ => carried || !r.success
  | _                          => true

/-- The response the event delivers. -/
def response : TaskEvent → List WireEvent
  | .returned r _ => [.received r]
  | _             => []

end TaskEvent

namespace Execution

/-- `migrate_operator` has just created the task and entered it under its operator. -/
def created (active : Dict String String) (migrationId operatorId sourceTier targetTier : String) :
    Execution where
  task             := ⟨PCTRMigration.new migrationId operatorId sourceTier targetTier, .pending⟩
  activeMigrations := active.set operatorId migrationId
  wire             := []
  outstanding      := none
  carriedOut       := []

/-- The states runs start in. -/
def Initial (x : Execution) : Prop :=
  ∃ active migrationId operatorId sourceTier targetTier,
    x = created active migrationId operatorId sourceTier targetTier

/-- One resumption of the task. -/
def step (clients : HeaClients) (timeoutS : Int) (x : Execution) (a : Answer) : Option Execution :=
  match x.task.step clients timeoutS a.event with
  | none => none
  | some (task, rpc) =>
      if a.event.honest a.carriedOut then
        some
          { task             := task
            activeMigrations :=
              if task.status = .finished then x.activeMigrations.pop x.task.migration.operatorId
              else x.activeMigrations
            wire             := x.wire ++ a.event.response ++ rpc.toList.map .sent
            outstanding      := rpc
            carriedOut       := x.carriedOut ++ (if a.carriedOut then x.outstanding.toList else []) }
      else none

/-- The runs of `_execute_migration` over the given clients. -/
def system (clients : HeaClients) (timeoutS : Int) : Lts Execution Answer :=
  Lts.ofStep Initial (step clients timeoutS)

/-- The instances of the operator now. -/
def instances (x : Execution) : Instances := x.carriedOut.foldl Instances.apply Instances.before

theorem step_eq_some {clients : HeaClients} {timeoutS : Int} {x x' : Execution} {a : Answer}
    (h : step clients timeoutS x a = some x') :
    ∃ rpc, x.task.step clients timeoutS a.event = some (x'.task, rpc) ∧
      a.event.honest a.carriedOut = true ∧
      x'.activeMigrations = (if x'.task.status = .finished
        then x.activeMigrations.pop x.task.migration.operatorId else x.activeMigrations) ∧
      x'.wire = x.wire ++ a.event.response ++ rpc.toList.map .sent ∧
      x'.outstanding = rpc ∧
      x'.carriedOut = x.carriedOut ++ (if a.carriedOut then x.outstanding.toList else []) := by
  unfold step at h
  split at h
  · exact absurd h (by simp)
  · rename_i task rpc hstep
    split at h
    · rename_i hhonest
      cases h
      exact ⟨rpc, hstep, hhonest, rfl, rfl, rfl, rfl⟩
    · exact absurd h (by simp)

/-! ## The protocol: what the wire of a whole migration looks like

The wire of a migration that runs to its end, from a script of what the servers answer. Every run is at a position of
it. -/

/-- The data the environment contributes to a migration: the clock reading of phase 2 and the four
    responses. -/
structure Script where
  migrationSeq : Int
  drained      : DrainResponse
  snapped      : SnapshotResponse
  restored     : RestoreResponse
  terminated   : TerminateAck

/-- The wire of a migration that ran to the end: drain, snapshot, restore, terminate. -/
def protocol (m : PCTRMigration) (s : Script) : List WireEvent :=
  [ .sent (.drainOperator m.sourceTier m.operatorId),
    .received (.drain s.drained),
    .sent (.triggerSnapshot m.sourceTier m.operatorId s.migrationSeq
      (Py.Json.dumpsIntMap (s.drained.offsetMap.getD ∅))),
    .received (.snapshot s.snapped),
    .sent (.restoreOperator m.targetTier m.operatorId (some s.snapped.objectKey)),
    .received (.restore s.restored),
    .sent (.terminateOperator m.sourceTier m.operatorId true),
    .received (.terminate s.terminated) ]

/-- How far along the protocol a task that is suspended in a phase is. -/
def position : MigrationPhase → Nat
  | .phase1Drain   => 1
  | .phase2Snap    => 3
  | .phase3Restore => 5
  | .phase4Term    => 7

@[simp] theorem position_drain : position .phase1Drain = 1 := rfl

@[simp] theorem position_snap : position .phase2Snap = 3 := rfl

@[simp] theorem position_restore : position .phase3Restore = 5 := rfl

@[simp] theorem position_term : position .phase4Term = 7 := rfl

/-- **The run invariant.** The wire is the first `n` events of the protocol for some script `s`; the
    migration's fields hold what the script's responses brought, and the RPCs carried out are those the
    position allows. A wire of length 2 or 6 never occurs: the answers to the drain and to the restore are
    followed by the next request in the same step. -/
structure OnProtocol (clients : HeaClients) (x : Execution) (s : Script) (n : Nat) : Prop where
  wire      : x.wire = (protocol x.task.migration s).take n
  pending   : x.task.status = .pending → n = 0 ∧ x.outstanding = none
  awaiting  : x.task.status = .awaiting → n = position x.task.migration.phase ∧
                ∃ rpc, x.outstanding = some rpc ∧ rpc.phase = x.task.migration.phase
  bound     : n ≤ 8 ∧ n ≠ 2 ∧ n ≠ 6
  around    : position x.task.migration.phase ≤ n + 1 ∧ n ≤ position x.task.migration.phase + 1
  client    : 1 ≤ n → ∃ c, clients.get x.task.migration.sourceTier = some c
  offsets   : 2 ≤ n → x.task.migration.drainOffsetMap = s.drained.offsetMap.getD ∅
  key       : 5 ≤ n → s.snapped.errorMsg = "" ∧
                x.task.migration.snapshotObjectKey = some s.snapped.objectKey
  completed : x.task.migration.completed = true ↔ n = 8 ∧ s.terminated.success = true
  fresh     : x.task.status = .awaiting → ¬ HasPhase x.carriedOut x.task.migration.phase
  drained   : 2 ≤ n → HasPhase x.carriedOut .phase1Drain
  only      : ∀ p, HasPhase x.carriedOut p → position p ≤ n
  told      : 6 ≤ n → (HasPhase x.carriedOut .phase3Restore ↔ s.restored.success = true)

end Execution

end Aode
end HybridStream
