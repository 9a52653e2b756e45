import HybridStream.Aode.Correctness.Recalibration
import HybridStream.Aode.Execution
import HybridStream.Aode.Main

/-!
# `Aode.Correctness.MoveExecution` — no move the optimizer chooses is executed

A migration runs over the clients `main.run` builds. Its first call is `drain_operator`, on the client of
the source tier: where the tier has no client the migration ends before the call, and a `HEAClient` has no
such method (`Rpc.stubCall`). So every migration is either not begun, waiting for that call to raise, or ended
uncompleted (`Undrained`), whatever the endpoints, the move and the servers are.
-/

namespace HybridStream
namespace Aode

open Lib

variable {clients : HeaClients} {timeoutS : Int} {x x' : Execution} {a : Answer}

/-- An RPC has succeeded as far as its response tells. -/
def TaskEvent.succeeds : TaskEvent → Bool
  | .start _                   => true
  | .returned (.drain _) _     => true
  | .returned (.snapshot r) _  => r.errorMsg = ""
  | .returned (.restore r) _   => r.success
  | .returned (.terminate r) _ => r.success
  | .raised _                  => false
  | .timedOut                  => false

namespace Execution

/-! ## Migrations over the client classes

The calls of a migration go through the two client classes as they are. The first one already asks for a method that
there is not, whatever the tiers of the move are, so no request reaches a server. -/

/-- A call that hands nothing to its stub raises; one that does may end in any way. -/
def Called (x : Execution) (a : Answer) : Prop :=
  ∀ rpc e, x.outstanding = some rpc → rpc.stubCall = .error e → a = ⟨.raised e.text, false⟩

/-- Every RPC that is issued succeeds. -/
def Succeeds (x : Execution) (a : Answer) : Prop :=
  Called x a ∧ ∀ rpc call, x.outstanding = some rpc → rpc.stubCall = .ok call → a.event.succeeds = true

/-- `execute()` returns `True` for the move whenever every RPC that is issued succeeds. -/
def Executes (clients : HeaClients) (timeoutS : Int) (op source target : String) : Prop :=
  ∀ active migrationId as x,
    ((system clients timeoutS).restrict Succeeds).Run (created active migrationId op source target) as x →
    x.task.status = .finished → x.task.migration.completed = true

/-- The migration has not got past its first call. -/
structure Undrained (x : Execution) : Prop where
  uncompleted : x.task.migration.completed = false
  pending     : x.task.status = .pending → x.outstanding = none
  awaiting    : x.task.status = .awaiting → ∃ tier op, x.outstanding = some (.drainOperator tier op)

/-- A task that has failed is not past it either. -/
theorem undrained_of_fail {m : PCTRMigration} {text : String} (hm : m.completed = false)
    (htask : x.task = (MigrationTask.fail m text).1) : Undrained x := by
  constructor
  case uncompleted => rw [htask]; exact hm
  case pending => intro h; rw [htask] at h; cases h
  case awaiting => intro h; rw [htask] at h; cases h

theorem Undrained.step (hx : Undrained x) (hstep : Execution.step clients timeoutS x a = some x')
    (hcalled : Called x a) : Undrained x' := by
  obtain ⟨rpc, htask, -, -, -, hout, -⟩ := step_eq_some hstep
  have hm := hx.uncompleted
  cases hevent : a.event with
  | start now =>
      -- Phase 1 suspends on its call, or ends the task for want of a client.
      rw [hevent] at htask
      obtain ⟨-, hentered⟩ := MigrationTask.step_start htask
      cases hclient : clients.get x.task.migration.sourceTier with
      | some client =>
          rw [(MigrationTask.enter_source hclient).1] at hentered
          obtain ⟨htask', rfl⟩ := Prod.mk.inj hentered
          constructor
          case uncompleted => rw [htask']; exact hm
          case pending => intro h; rw [htask'] at h; cases h
          case awaiting => exact fun _ => ⟨_, _, hout⟩
      | none =>
          obtain ⟨text, hfail⟩ : ∃ text, MigrationTask.enter clients now .phase1Drain x.task.migration = _ :=
            MigrationTask.enter_drain_of_none hclient
          rw [hfail] at hentered
          exact undrained_of_fail (m := { x.task.migration with phase := .phase1Drain }) hm
            (Prod.mk.inj hentered).1
  | returned r now =>
      -- The outstanding call cannot return: its client has no such method.
      rw [hevent] at htask
      obtain ⟨tier, op, hrpc⟩ := hx.awaiting (MigrationTask.step_returned htask).1
      have ha := hcalled _ _ hrpc rfl
      rw [ha] at hevent
      cases hevent
  | raised text =>
      rw [hevent] at htask
      obtain ⟨-, text', hfail⟩ := MigrationTask.step_failed (Or.inl ⟨text, rfl⟩) htask
      exact undrained_of_fail hm (Prod.mk.inj hfail).1
  | timedOut =>
      rw [hevent] at htask
      obtain ⟨-, text', hfail⟩ := MigrationTask.step_failed (Or.inr rfl) htask
      exact undrained_of_fail hm (Prod.mk.inj hfail).1

theorem undrained_created (active : Dict String String) (migrationId op source target : String) :
    Undrained (created active migrationId op source target) := by
  constructor
  case uncompleted => rfl
  case pending => exact fun _ => rfl
  case awaiting => intro h; cases h

/-- **A migration over the client classes never completes.** -/
theorem uncompleted_of_run {active : Dict String String} {migrationId op source target : String}
    {as : List Answer}
    (h : ((system clients timeoutS).restrict Called).Run (created active migrationId op source target) as x) :
    x.task.migration.completed = false := by
  have hundrained : Undrained x := by
    refine h.invariant (fun x a x' hx hstep => ?_) (undrained_created active migrationId op source target)
    exact hx.step hstep.1 hstep.2
  exact hundrained.uncompleted

/-- A resumption of the task that the servers' promises allow is a step. -/
theorem exists_step {p : MigrationTask × Option Rpc} (htask : x.task.step clients timeoutS a.event = some p)
    (hhonest : a.event.honest a.carriedOut = true) :
    ∃ x', Execution.step clients timeoutS x a = some x' ∧ x'.task = p.1 ∧ x'.outstanding = p.2 := by
  unfold Execution.step
  rw [htask]
  simp only [hhonest, if_true]
  exact ⟨_, rfl, rfl, rfl⟩

/-- A migration whose every issued RPC succeeds can end, and it ends uncompleted. -/
theorem exists_failed_run (clients : HeaClients) (timeoutS : Int) (active : Dict String String)
    (migrationId op source target : String) : ∃ as x,
      ((system clients timeoutS).restrict Succeeds).Run (created active migrationId op source target) as x ∧
      x.task.status = .finished ∧ x.task.migration.completed = false := by
  let m := PCTRMigration.new migrationId op source target
  let start := created active migrationId op source target
  let begin : Answer := ⟨.start 0, false⟩
  have hbegin : Succeeds start begin := by
    constructor
    · exact fun _ _ hrpc => by cases hrpc
    · exact fun _ _ hrpc => by cases hrpc
  have hentered : start.task.step clients timeoutS begin.event =
      some (MigrationTask.enter clients 0 .phase1Drain m) := rfl
  obtain ⟨x, hx, htask, hout⟩ := exists_step hentered rfl
  cases hclient : clients.get m.sourceTier with
  | none =>
      obtain ⟨text, hfail⟩ : ∃ text, MigrationTask.enter clients 0 .phase1Drain m = _ :=
        MigrationTask.enter_drain_of_none hclient
      -- no client for the source tier: phase 1 ends the task itself
      rw [hfail] at htask
      refine ⟨[begin], x, Lts.Run.head ⟨hx, hbegin⟩ .refl, ?_, ?_⟩
      · rw [htask]
        rfl
      · rw [htask]
        rfl
  | some client =>
      -- with a client the call is made, and the class has no such method
      have hdrain : MigrationTask.enter clients 0 .phase1Drain m = _ := (MigrationTask.enter_source hclient).1
      rw [hdrain] at htask hout
      let text := (HEAClient.noAttribute "drain_operator").text
      let missing : Answer := ⟨.raised text, false⟩
      have hmissing : Succeeds x missing := by
        constructor
        · intro rpc e hrpc he
          rw [hout] at hrpc
          cases hrpc
          cases he
          rfl
        · intro rpc call hrpc hcall
          rw [hout] at hrpc
          cases hrpc
          cases hcall
      have hraised : x.task.step clients timeoutS missing.event =
          some (MigrationTask.fail x.task.migration text) := by
        rw [htask]
        rfl
      obtain ⟨x', hx', htask', -⟩ := exists_step hraised rfl
      refine ⟨[begin, missing], x', Lts.Run.head ⟨hx, hbegin⟩ (Lts.Run.head ⟨hx', hmissing⟩ .refl), ?_, ?_⟩
      · rw [htask']
        rfl
      · rw [htask', htask]
        rfl

theorem not_executes (clients : HeaClients) (timeoutS : Int) (op source target : String) :
    ¬ Executes clients timeoutS op source target := by
  intro h
  obtain ⟨as, x, hrun, hfinished, huncompleted⟩ := exists_failed_run clients timeoutS ∅ "" op source target
  rw [h ∅ "" as x hrun hfinished] at huncompleted
  cases huncompleted

/-- **No move executes**, whatever the endpoints are: `execute()` returns `False` in every run of the migration over the
    clients of `main.run`, and in one where every RPC that is issued succeeds. The first call of a migration is to
    drain, which the client of a tier, if there is one, cannot do: `Undrained` is the invariant. -/
theorem no_move_executes (heaEndpoints : List String) (timeoutS : Int) (op source target : String) :
    ¬ Executes (Main.heaClients heaEndpoints) timeoutS op source target ∧
    ∀ active migrationId as x,
      ((system (Main.heaClients heaEndpoints) timeoutS).restrict Called).Run
        (created active migrationId op source target) as x →
      x.task.migration.completed = false :=
  ⟨not_executes _ timeoutS op source target, fun _ _ _ _ h => uncompleted_of_run h⟩

/-- The optimizer moves `op-6` from `edge-node-3` to `edge-node-1`, and over the default endpoints that move
    does not execute. -/
theorem move_not_executed : ∃ c ∈ PlacementOptimizer.crowded.candidateList, c.sourceTier ≠ c.targetTier ∧
    ¬ Executes (Main.heaClients Main.defaultEndpoints) PlacementOptimizer.crowded.config.migrationTimeoutS
      c.operatorType c.sourceTier c.targetTier := by
  have hmove : PlacementOptimizer.crowded.candidateList.any (fun c => c.operatorType = "op-6" &&
      c.sourceTier = "edge-node-3" && c.targetTier = "edge-node-1") = true := by decide +kernel
  obtain ⟨c, hc, hroute⟩ := List.any_eq_true.mp hmove
  simp only [Bool.and_eq_true, decide_eq_true_eq] at hroute
  obtain ⟨⟨-, hsource⟩, htarget⟩ := hroute
  exact ⟨c, hc, by rw [hsource, htarget]; decide, not_executes _ _ _ _ _⟩

end Execution
end Aode
end HybridStream
