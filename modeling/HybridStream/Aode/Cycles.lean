import HybridStream.Aode.Placement
import HybridStream.Lib.Lts

/-!
# `Aode.Cycles` — recalibration cycles that run concurrently

`main.run` starts two optimization loops and `force_recalibration` adds cycles of its own, so several
`_run_optimization` coroutines are under way at a time. The event loop runs one of them until it suspends. That
happens only inside `update_operator_placement`: at the lock of the placement, or at `etcd.put`, which is
awaited with the lock held. While no cycle runs, the tasks of the migrations are resumed, telemetry arrives
and new cycles start.

The lock is fair, as `asyncio.Lock` is: a cycle takes it at once only where nobody holds it or waits for it.
-/

namespace HybridStream
namespace Aode

open Lib Py

variable {F : Type}

/-- A cycle that has read the placement: the candidates it has not come to yet. Two things are noted of the
    moment it read: how many migrations had been started, and whose were not on record yet. -/
structure Cycle (F : Type) where
  candidates : List (Candidate F)
  started    : Nat
  unrecorded : List String

/-- A cycle waiting for the lock, and what it is about to record. -/
structure Waiter where
  cycle  : Nat
  opType : String
  tier   : String

/-- The optimizer with its cycles, in the order they were started. -/
structure Cycles (F : Type) where
  optimizer : PlacementOptimizer F
  cycles    : List (Cycle F)
  running   : Option Nat
  holder    : Option Nat
  waiters   : List Waiter

/-- What happens next. An `etcd.put` that suspends is `none`, else it ends at once. -/
inductive CyclesStep (F : Type) where
  /-- A telemetry collection has finished. -/
  | collect (telemetry : TelemetryCollector F)
  /-- `set_weights` -/
  | setWeights (presetName : String)
  /-- A background task `_execute_migration` is resumed. -/
  | migration (task : Nat) (event : TaskEvent)
  /-- Another `_run_optimization` starts. -/
  | recalibrate
  /-- The running cycle takes the next turn of its loop, or ends. -/
  | turn (put : Option (Except PyError Unit))
  /-- The first cycle that waits for the lock gets it. -/
  | acquire (put : Option (Except PyError Unit))
  /-- The `etcd.put` that was suspended ends. -/
  | putEnds (put : Except PyError Unit)

namespace Cycles

/-- `update_operator_placement` from the lock on. Once `put` has ended, in whatever way, the lock is free again
    and the cycle goes on. -/
def record (c : Cycles F) (cycle : Nat) (opType tier : String) (put : Option (Except PyError Unit)) : Cycles F :=
  let (_, placement) := c.optimizer.placement.updateOperatorPlacement opType tier (put.getD (.ok ()))
  let optimizer := { c.optimizer with placement := placement }
  match put with
  | some _ => { c with optimizer := optimizer, running := some cycle }
  | none   => { c with optimizer := optimizer, running := none, holder := some cycle }

/-- The operators whose started migration is not on record yet. -/
def unrecorded (c : Cycles F) : List String := c.waiters.map Waiter.opType

/-- The body of the loop of cycle `k` for the candidate `d`, which is skipped if its migration cannot be
    started. -/
def startCandidate (c : Cycles F) (k : Nat) (d : Candidate F) (put : Option (Except PyError Unit)) : Cycles F :=
  match c.optimizer.migration.migrateOperator d.operatorType d.sourceTier d.targetTier with
  -- `except Exception`: the operator is being migrated, and the loop goes on
  | .error _ => c
  | .ok (_, migration) =>
      let c := { c with optimizer := { c.optimizer with migration := migration } }
      -- `async with self._lock`: at once if it is free, else in the order of arrival
      if c.holder = none ∧ c.waiters.isEmpty then c.record k d.operatorType d.targetTier put
      else { c with running := none, waiters := c.waiters ++ [⟨k, d.operatorType, d.targetTier⟩] }

/-- One turn of the running cycle. -/
def takeTurn (c : Cycles F) (put : Option (Except PyError Unit)) : Option (Cycles F) := do
  let k ← c.running
  let cycle ← c.cycles[k]?
  match cycle.candidates with
  | []        => some { c with running := none }
  | d :: rest =>
      let c := { c with cycles := c.cycles.set k { cycle with candidates := rest } }
      some (c.startCandidate k d put)

section Steps

variable [PyRuntime F]

/-- One step. Only a turn is possible while a cycle runs. -/
def step (clients : HeaClients) (c : Cycles F) : CyclesStep F → Option (Cycles F)
  | .turn put => c.takeTurn put
  | .collect telemetry =>
      -- what runs has the event loop until its next `await`, so nothing else can happen meanwhile
      if c.running.isSome then none
      else some { c with optimizer := { c.optimizer with
        scoring := { c.optimizer.scoring with telemetry := telemetry } } }
  | .setWeights presetName =>
      if c.running.isSome then none
      else match c.optimizer.scoring.setWeights presetName with
        | .ok scoring => some { c with optimizer := { c.optimizer with scoring := scoring } }
        | .error _    => some c
  | .migration task event =>
      if c.running.isSome then none
      else do
        let migration ←
          c.optimizer.migration.stepTask clients c.optimizer.config.migrationTimeoutS task event
        some { c with optimizer := { c.optimizer with migration := migration } }
  | .recalibrate =>
      if c.running.isSome then none
      else match c.optimizer.candidates with
        | .ok (some candidates) =>
            some { c with
              cycles  := c.cycles ++ [⟨candidates, c.optimizer.migration.tasks.length, c.unrecorded⟩]
              running := some c.cycles.length }
        | _ => some c
  | .acquire put =>
      if c.running.isSome ∨ c.holder.isSome then none
      else match c.waiters with
        | []           => none
        | w :: waiters => some ({ c with waiters := waiters }.record w.cycle w.opType w.tier put)
  | .putEnds _ =>
      if c.running.isSome then none
      else match c.holder with
        | none   => none
        | some k => some { c with holder := none, running := some k }

/-- No migration was ever started, no cycle is under way, and the placement on record is `initial`. -/
def Initial (initial : Dict String String) (c : Cycles F) : Prop :=
  c.optimizer.migration = PCTROrchestrator.new ∧ c.cycles = [] ∧ c.running = none ∧ c.holder = none ∧
    c.waiters = [] ∧ c.optimizer.placement.cache = initial

/-- The runs from a recorded placement. -/
def system (clients : HeaClients) (initial : Dict String String) : Lts (Cycles F) (CyclesStep F) :=
  Lts.ofStep (Initial initial) (step clients)

end Steps

/-- The migration a step is about to start: the cycle that starts it and the candidate. `migrate_operator`
    accepts every operator that is not being migrated. -/
def accepting (c : Cycles F) : CyclesStep F → Option (Cycle F × Candidate F)
  | .turn _ => do
      let k ← c.running
      let cycle ← c.cycles[k]?
      let d ← cycle.candidates.head?
      if c.optimizer.migration.activeMigrations.contains d.operatorType then none else some (cycle, d)
  | _ => none

/-- The placement as it will be on record when those that wait have written theirs. -/
def view (c : Cycles F) : Dict String String :=
  c.optimizer.placement.cache.update (c.waiters.map (fun w => (w.opType, w.tier)))

/-! ## What one step does

The steps read backwards. A turn of a cycle ends it, skips a candidate, or starts a migration and then goes on, waits
for the lock or waits for the client. -/

variable {clients : HeaClients} {c c' : Cycles F} {a : CyclesStep F}

theorem record_eq (c : Cycles F) (k : Nat) (opType tier : String) (put : Option (Except PyError Unit)) :
    ∃ running holder, c.record k opType tier put =
      { c with
        optimizer := { c.optimizer with placement := ⟨c.optimizer.placement.cache.set opType tier⟩ }
        running   := running
        holder    := holder } := by
  cases put with
  -- `put` ends without suspending, or the cycle waits for it with the lock
  | some result => exact ⟨some k, c.holder, rfl⟩
  | none        => exact ⟨none, some k, rfl⟩

/-- Starting a candidate whose operator is not being migrated. -/
theorem startCandidate_accepted (c : Cycles F) (k : Nat) {d : Candidate F} (put : Option (Except PyError Unit))
    (hidle : c.optimizer.migration.activeMigrations.contains d.operatorType = false) :
    ∃ migrationId, c.optimizer.migration.migrateOperator d.operatorType d.sourceTier d.targetTier =
        .ok (migrationId, (c.startCandidate k d put).optimizer.migration) ∧
      (c.startCandidate k d put).view = c.view.set d.operatorType d.targetTier ∧
      (c.startCandidate k d put).cycles = c.cycles := by
  cases hstart : c.optimizer.migration.migrateOperator d.operatorType d.sourceTier d.targetTier with
  -- nothing is under way for the operator, so the call does not raise
  | error e =>
      unfold PCTROrchestrator.migrateOperator at hstart
      rw [hidle, if_neg (by simp)] at hstart
      cases hstart
  | ok started =>
      obtain ⟨migrationId, migration⟩ := started
      refine ⟨migrationId, ?_⟩
      unfold startCandidate
      rw [hstart]
      dsimp only
      split
      -- the lock is free and nobody waits: the write is made now
      · rename_i hfree
        obtain ⟨running, holder, heq⟩ := record_eq
          { c with optimizer := { c.optimizer with migration := migration } } k d.operatorType d.targetTier put
        rw [heq]
        have hnone : c.waiters = [] := List.isEmpty_iff.mp hfree.2
        refine ⟨rfl, ?_, rfl⟩
        unfold view
        dsimp only
        rw [hnone]
        rfl
      -- the write waits, and is in the view all the same
      · refine ⟨rfl, ?_, rfl⟩
        unfold view
        dsimp only
        rw [List.map_append, Dict.update_append]
        rfl

variable [PyRuntime F]

/-- A cycle of a later state: one that was there, with some of its candidates, or one that has just read the
    placement. -/
def Descends (c : Cycles F) (cycle' : Cycle F) : Prop :=
  (∃ cycle ∈ c.cycles, cycle'.candidates ⊆ cycle.candidates ∧ cycle'.started = cycle.started ∧
    cycle'.unrecorded = cycle.unrecorded) ∨
  (c.optimizer.candidates = .ok (some cycle'.candidates) ∧
    cycle'.started = c.optimizer.migration.tasks.length ∧ cycle'.unrecorded = c.unrecorded)

theorem descends_of_mem {cycle : Cycle F} (h : cycle ∈ c.cycles) : Descends c cycle :=
  Or.inl ⟨cycle, h, List.Subset.refl _, rfl, rfl⟩

/-- A turn: the cycle ends; or it skips a candidate; or it starts the candidate's migration. -/
theorem takeTurn_cases {put : Option (Except PyError Unit)} (h : c.takeTurn put = some c') :
    (∀ cycle' ∈ c'.cycles, Descends c cycle') ∧
    ((c.accepting (.turn put) = none ∧ c'.optimizer = c.optimizer ∧ c'.waiters = c.waiters) ∨
     ∃ cycle d migrationId, c.accepting (.turn put) = some (cycle, d) ∧ cycle ∈ c.cycles ∧ d ∈ cycle.candidates ∧
      c.optimizer.migration.migrateOperator d.operatorType d.sourceTier d.targetTier =
        .ok (migrationId, c'.optimizer.migration) ∧
      c'.view = c.view.set d.operatorType d.targetTier) := by
  obtain ⟨k, hk, h⟩ := Option.bind_eq_some_iff.mp h
  obtain ⟨cycle, hcycle, h⟩ := Option.bind_eq_some_iff.mp h
  have hmem : cycle ∈ c.cycles := List.mem_of_getElem? hcycle
  have haccepting : c.accepting (.turn put) = (cycle.candidates.head?).bind (fun d =>
      if c.optimizer.migration.activeMigrations.contains d.operatorType then none else some (cycle, d)) := by
    unfold accepting
    rw [hk]
    show (c.cycles[k]?).bind _ = _
    rw [hcycle]
    rfl
  cases hcandidates : cycle.candidates with
  | nil =>
      rw [hcandidates] at h haccepting
      cases h
      exact ⟨fun cycle' => descends_of_mem, Or.inl ⟨haccepting, rfl, rfl⟩⟩
  | cons d rest =>
      rw [hcandidates] at h haccepting
      cases h
      let c₁ : Cycles F := { c with cycles := c.cycles.set k { cycle with candidates := rest } }
      have hdescends : ∀ cycle' ∈ c₁.cycles, Descends c cycle' := by
        intro cycle' hcycle'
        rcases List.mem_or_eq_of_mem_set hcycle' with hold | rfl
        · exact descends_of_mem hold
        · exact Or.inl ⟨cycle, hmem, by rw [hcandidates]; exact List.subset_cons_self d rest, rfl, rfl⟩
      cases hactive : c.optimizer.migration.activeMigrations.contains d.operatorType with
      | true =>
          -- the operator is being migrated: the candidate is skipped
          have hskip : c₁.startCandidate k d put = c₁ := by
            unfold startCandidate PCTROrchestrator.migrateOperator
            rw [show c₁.optimizer.migration.activeMigrations.contains d.operatorType = true from hactive,
              if_pos rfl]
          have hnone : c.accepting (.turn put) = none := by
            rw [haccepting]
            simp [hactive]
          rw [show c₁.startCandidate k d put = c₁ from hskip]
          exact ⟨hdescends, Or.inl ⟨hnone, rfl, rfl⟩⟩
      | false =>
          obtain ⟨migrationId, hstart, hview, hcycles⟩ := c₁.startCandidate_accepted k put hactive
          have hsome : c.accepting (.turn put) = some (cycle, d) := by
            rw [haccepting]
            simp [hactive]
          refine ⟨hcycles ▸ hdescends, Or.inr ⟨cycle, d, migrationId, hsome, hmem, ?_, hstart, hview⟩⟩
          rw [hcandidates]
          exact List.mem_cons_self

/-- What a step does: it starts no migration and leaves the record as it will be; or it starts the migration
    of a candidate; or it resumes a task. -/
theorem step_cases (h : step clients c a = some c') :
    (∀ cycle' ∈ c'.cycles, Descends c cycle') ∧
    ((c.accepting a = none ∧ (∀ task event, a ≠ .migration task event) ∧
        c'.optimizer.migration = c.optimizer.migration ∧ c'.view = c.view) ∨
     (∃ cycle d migrationId, c.accepting a = some (cycle, d) ∧ cycle ∈ c.cycles ∧ d ∈ cycle.candidates ∧
        c.optimizer.migration.migrateOperator d.operatorType d.sourceTier d.targetTier =
          .ok (migrationId, c'.optimizer.migration) ∧
        c'.view = c.view.set d.operatorType d.targetTier) ∨
     (∃ task event, a = .migration task event ∧
        c.optimizer.migration.stepTask clients c.optimizer.config.migrationTimeoutS task event =
          some c'.optimizer.migration ∧
        c'.view = c.view)) := by
  have hkept : ∀ cycle' ∈ c.cycles, Descends c cycle' := fun _ => descends_of_mem
  cases a with
  -- the one kind of step that can start a migration
  | turn put =>
      obtain ⟨hdescends, hrest⟩ := takeTurn_cases h
      refine ⟨hdescends, ?_⟩
      rcases hrest with ⟨hnone, hoptimizer, hwaiters⟩ | hstart
      -- a turn that starts none: a waiting write may have been entered, which the view has already
      · refine Or.inl ⟨hnone, by simp, by rw [hoptimizer], ?_⟩
        unfold view
        rw [hoptimizer, hwaiters]
      · exact Or.inr (Or.inl hstart)
  | collect telemetry =>
      obtain ⟨-, hc⟩ := Option.ite_none_left_eq_some.mp h
      cases hc
      exact ⟨hkept, Or.inl ⟨rfl, by simp, rfl, rfl⟩⟩
  | setWeights presetName =>
      obtain ⟨-, hc⟩ := Option.ite_none_left_eq_some.mp h
      split at hc
      all_goals
        cases hc
        exact ⟨hkept, Or.inl ⟨rfl, by simp, rfl, rfl⟩⟩
  | migration task event =>
      obtain ⟨-, hc⟩ := Option.ite_none_left_eq_some.mp h
      obtain ⟨migration, hmigration, hc⟩ := Option.bind_eq_some_iff.mp hc
      cases hc
      exact ⟨hkept, Or.inr (Or.inr ⟨task, event, rfl, hmigration, rfl⟩)⟩
  | recalibrate =>
      obtain ⟨-, hc⟩ := Option.ite_none_left_eq_some.mp h
      split at hc
      · rename_i candidates hcandidates
        cases hc
        -- the cycles are those there were, and one that has found its candidates just now
        refine ⟨fun cycle' hcycle' => ?_, Or.inl ⟨rfl, by simp, rfl, rfl⟩⟩
        rcases List.mem_append.mp hcycle' with hold | hnew
        · exact hkept cycle' hold
        · rw [List.mem_singleton.mp hnew]
          exact Or.inr ⟨hcandidates, rfl, rfl⟩
      · cases hc
        exact ⟨hkept, Or.inl ⟨rfl, by simp, rfl, rfl⟩⟩
  | acquire put =>
      obtain ⟨-, hc⟩ := Option.ite_none_left_eq_some.mp h
      split at hc
      · cases hc
      · rename_i w waiters hwaiters
        cases hc
        -- a write that was waiting is made, so it is in the record instead of among the waiting
        obtain ⟨running, holder, heq⟩ := record_eq { c with waiters := waiters } w.cycle w.opType w.tier put
        rw [heq]
        refine ⟨hkept, Or.inl ⟨rfl, by simp, rfl, ?_⟩⟩
        unfold view
        dsimp only
        rw [hwaiters]
        rfl
  | putEnds put =>
      obtain ⟨-, hc⟩ := Option.ite_none_left_eq_some.mp h
      split at hc
      · cases hc
      · cases hc
        exact ⟨hkept, Or.inl ⟨rfl, by simp, rfl, rfl⟩⟩

end Cycles

end Aode
end HybridStream
