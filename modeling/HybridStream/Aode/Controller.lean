import HybridStream.Aode.Placement
import HybridStream.Lib.Lts

/-!
# `Aode.Controller` — recalibration cycles among running migrations

`PlacementOptimizer`, `PCTROrchestrator` and `PlacementState` together, as a labelled transition system.
Cycles follow each other; within one, the loop over the candidates can be suspended after each of them
(at the `await` of `etcd.put`), and the background tasks of the migrations run in between, each with
whatever answers its servers give. The telemetry and the weights may change at any time.
-/

namespace HybridStream
namespace Aode

open Lib Py

variable {F : Type} [PyRuntime F]

/-- The components, and the candidates the cycle in progress has not come to yet. -/
structure Controller (F : Type) where
  optimizer : PlacementOptimizer F
  cycle     : Option (List (Candidate F))

/-- What happens next. -/
inductive ControllerStep (F : Type) where
  /-- A telemetry collection has finished. -/
  | collect (telemetry : TelemetryCollector F)
  /-- `set_weights` -/
  | setWeights (presetName : String)
  /-- `_run_optimization` starts and finds its candidates. -/
  | recalibrate
  /-- The loop over the candidates takes its next turn, or ends; `put` is how `etcd.put` ends. -/
  | next (put : Except PyError Unit)
  /-- A background task `_execute_migration` is resumed. -/
  | migration (task : Nat) (event : TaskEvent)

namespace Controller

/-- One step. A cycle that raises is logged and leaves nothing behind, like one without operators. -/
def step (clients : HeaClients) (c : Controller F) : ControllerStep F → Option (Controller F)
  | .collect telemetry =>
      some { c with optimizer := { c.optimizer with
        scoring := { c.optimizer.scoring with telemetry := telemetry } } }
  | .setWeights presetName =>
      match c.optimizer.scoring.setWeights presetName with
      | .ok scoring => some { c with optimizer := { c.optimizer with scoring := scoring } }
      | .error _    => some c
  | .recalibrate =>
      match c.cycle with
      | some _ => none
      | none   =>
          match c.optimizer.candidates with
          | .ok candidates => some { c with cycle := candidates }
          | .error _       => some c
  | .next put =>
      match c.cycle with
      | none                => none
      | some []             => some { c with cycle := none }
      | some (candidate :: rest) =>
          some { optimizer := (c.optimizer.startCandidate candidate put).1, cycle := some rest }
  | .migration task event => do
      let migration ←
        c.optimizer.migration.stepTask clients c.optimizer.config.migrationTimeoutS task event
      some { c with optimizer := { c.optimizer with migration := migration } }

/-- No migration was ever started, no cycle is in progress, and the placement on record is `initial`. -/
def Initial (initial : Dict String String) (c : Controller F) : Prop :=
  c.optimizer.migration = PCTROrchestrator.new ∧ c.cycle = none ∧ c.optimizer.placement.cache = initial

/-- The runs of the controller from a recorded placement. -/
def system (clients : HeaClients) (initial : Dict String String) : Lts (Controller F) (ControllerStep F) :=
  Lts.ofStep (Initial initial) (step clients)

/-- Everything one step can do: new telemetry or weights; a cycle that begins; one that ends; the next turn of
    its loop; a resumption of a task. -/
theorem step_eq_some {clients : HeaClients} {c c' : Controller F} {e : ControllerStep F}
    (h : step clients c e = some c') :
    (((∃ telemetry, e = .collect telemetry) ∨ ∃ presetName, e = .setWeights presetName) ∧
      ∃ scoring, c' = { c with optimizer := { c.optimizer with scoring := scoring } }) ∨
    (e = .recalibrate ∧ c.cycle = none ∧
      ((∃ cycle, c.optimizer.candidates = .ok cycle ∧ c' = { c with cycle := cycle }) ∨
       (∃ err, c.optimizer.candidates = .error err ∧ c' = c))) ∨
    (∃ put, e = .next put ∧ c.cycle = some [] ∧ c' = { c with cycle := none }) ∨
    (∃ put d rest, e = .next put ∧ c.cycle = some (d :: rest) ∧
      c' = ⟨(c.optimizer.startCandidate d put).1, some rest⟩) ∨
    (∃ task event migration, e = .migration task event ∧
      c.optimizer.migration.stepTask clients c.optimizer.config.migrationTimeoutS task event = some migration ∧
      c' = { c with optimizer := { c.optimizer with migration := migration } }) := by
  cases e with
  | collect telemetry =>
      cases h
      exact Or.inl ⟨Or.inl ⟨telemetry, rfl⟩, _, rfl⟩
  | setWeights presetName =>
      -- in a name that is no preset the weights stay, which is the first disjunct as well
      refine Or.inl ⟨Or.inr ⟨presetName, rfl⟩, ?_⟩
      unfold step at h
      dsimp only at h
      split at h
      · cases h
        exact ⟨_, rfl⟩
      · -- an unknown preset raises and changes nothing
        cases h
        exact ⟨c.optimizer.scoring, rfl⟩
  | recalibrate =>
      unfold step at h
      dsimp only at h
      split at h
      · cases h
      · rename_i hidle
        refine Or.inr (Or.inl ⟨rfl, hidle, ?_⟩)
        -- the plan may raise, and then the cycle has never begun
        split at h
        · rename_i cycle hcandidates
          cases h
          exact Or.inl ⟨cycle, hcandidates, rfl⟩
        · rename_i err hcandidates
          cases h
          exact Or.inr ⟨err, hcandidates, rfl⟩
  | next put =>
      unfold step at h
      dsimp only at h
      split at h
      · cases h
      · rename_i hcycle
        cases h
        exact Or.inr (Or.inr (Or.inl ⟨put, rfl, hcycle, rfl⟩))
      · rename_i d rest hcycle
        cases h
        exact Or.inr (Or.inr (Or.inr (Or.inl ⟨put, d, rest, rfl, hcycle, rfl⟩)))
  | migration task event =>
      obtain ⟨migration, hmigration, h⟩ := Option.bind_eq_some_iff.mp h
      cases h
      exact Or.inr (Or.inr (Or.inr (Or.inr ⟨task, event, migration, rfl, hmigration, rfl⟩)))

/-- The loop over the candidates, as steps. -/
theorem exec_startCandidates {clients : HeaClients} (put : Candidate F → Except PyError Unit)
    (cs : List (Candidate F)) (o : PlacementOptimizer F) :
    Lts.exec (step clients) (cs.map (fun c => .next (put c))) ⟨o, some cs⟩ =
      some ⟨(PlacementOptimizer.startCandidates put cs o).1, some []⟩ := by
  induction cs generalizing o with
  | nil => rfl
  | cons c cs ih => exact ih (o.startCandidate c (put c)).1

/-- **A cycle that nothing interrupts is `_run_optimization`.** -/
theorem run_cycle {clients : HeaClients} {initial : Dict String String} {o o' : PlacementOptimizer F}
    {put : Candidate F → Except PyError Unit} {result : OptimizationResult F}
    (h : o.runOptimization put = .ok (result, o')) :
    ∃ steps, (system clients initial).Run ⟨o, none⟩ (.recalibrate :: steps) ⟨o', none⟩ := by
  rcases PlacementOptimizer.runOptimization_eq_ok h with ⟨-, rfl, hnone⟩ | ⟨cs, hcs, rfl, -⟩
  · refine ⟨[], Lts.run_of_exec ?_⟩
    simp only [Lts.exec, step, hnone, Option.bind_some]
  · refine ⟨cs.map (fun c => .next (put c)) ++ [.next (.ok ())], ?_⟩
    have hstart : step clients ⟨o, none⟩ .recalibrate = some ⟨o, some cs⟩ := by
      simp only [step, hcs]
    have hloop : (system clients initial).Run ⟨o, some cs⟩ _ _ :=
      Lts.run_of_exec (exec_startCandidates put cs o)
    exact Lts.Run.head hstart (hloop.tail rfl)

end Controller

end Aode
end HybridStream
