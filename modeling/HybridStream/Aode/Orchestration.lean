import HybridStream.Aode.Pctr
import HybridStream.Lib.Lts

/-!
# `Aode.Orchestration` — an orchestrator, its callers and its background tasks

`PCTROrchestrator` of `aode/migration/pctr.py` as a labelled transition system. `migrate_operator` suspends
nowhere, so a call of it is one step, and so is the resumption of a task from one `await` to the next; in which
order they come is left open, and so is what the servers answer. Besides the orchestrator the state keeps what
its callers and its servers have seen: the migration ids it has returned and the RPCs it has sent.

`Tracked` is what ties `_active_migrations` to the tasks: the check of `migrate_operator`, its insertion and the
`finally` block of the task keep the entries and the unfinished tasks in step.
-/

namespace HybridStream
namespace Aode

open Lib Py

/-! ## The entries and the tasks

`_active_migrations` has one entry for each operator, and a task that has not ended is the one entered under its
operator. The `finally` block pops by operator, which is its own entry. -/

namespace PCTROrchestrator

variable {clients : HeaClients} {timeoutS : Int} {o o' : PCTROrchestrator}

/-- Every unfinished task is entered under its operator, and every entry is an unfinished task of its key. -/
structure Tracked (o : PCTROrchestrator) : Prop where
  registered : ∀ (i : Nat) (t : MigrationTask), o.tasks[i]? = some t → t.status ≠ .finished →
                 o.activeMigrations.get t.migration.operatorId = some i
  entry      : ∀ op i, o.activeMigrations.get op = some i →
                 ∃ t, o.tasks[i]? = some t ∧ t.migration.operatorId = op ∧ t.status ≠ .finished

theorem Tracked.new : Tracked new := by
  constructor
  · exact fun i t hi => absurd hi (by simp [PCTROrchestrator.new])
  · exact fun op i hi => absurd hi (by simp [PCTROrchestrator.new])

/-- Two unfinished tasks of one operator are the same. -/
theorem Tracked.unique (h : Tracked o) {i j : Nat} {t u : MigrationTask} (hi : o.tasks[i]? = some t)
    (ht : t.status ≠ .finished) (hj : o.tasks[j]? = some u) (hu : u.status ≠ .finished)
    (hop : t.migration.operatorId = u.migration.operatorId) : i = j := by
  have hti := h.registered i t hi ht
  rw [hop, h.registered j u hj hu] at hti
  exact (Option.some.inj hti).symm

/-- A migration that is started. -/
theorem Tracked.start {op src tgt migrationId : String} (h : Tracked o)
    (hstart : o.migrateOperator op src tgt = .ok (migrationId, o')) : Tracked o' := by
  obtain ⟨hnone, hactive, t, htasks, hstatus, -, hop, -, -⟩ := migrateOperator_eq_ok hstart
  constructor
  case registered =>
    intro i u hi hrunning
    rw [htasks] at hi
    rw [hactive]
    rcases getElem?_append_task hi with hold | ⟨rfl, rfl⟩
    · -- `op` had no entry, so an unfinished old task is another operator's
      have hreg := h.registered i u hold hrunning
      have hother : u.migration.operatorId ≠ op := by
        intro heq
        rw [heq, hnone] at hreg
        exact absurd hreg (by simp)
      rw [Dict.get_set_ne _ hother]
      exact hreg
    · rw [hop]
      exact Dict.get_set_self _ _ _
  case entry =>
    intro op' i hi
    rw [hactive, Dict.get_set] at hi
    rw [htasks]
    by_cases heq : op' = op
    · rw [if_pos heq] at hi
      cases hi
      exact ⟨t, by simp, hop.trans heq.symm, by simp [hstatus]⟩
    · rw [if_neg heq] at hi
      obtain ⟨u, hu, huop, hrunning⟩ := h.entry op' i hi
      have hlt := (List.getElem?_eq_some_iff.mp hu).1
      exact ⟨u, by rw [List.getElem?_append_left hlt]; exact hu, huop, hrunning⟩

/-- An entry left by the `finally` block of a task was there, and is not its own. -/
theorem get_of_popped {j : Nat} {t t' : MigrationTask} {op : String}
    (hactive : o'.activeMigrations = if t'.status = .finished then
      o.activeMigrations.pop t.migration.operatorId else o.activeMigrations)
    (hj : o'.activeMigrations.get op = some j) :
    o.activeMigrations.get op = some j ∧ (t'.status = .finished → op ≠ t.migration.operatorId) := by
  rw [hactive] at hj
  split at hj
  · obtain ⟨hother, hj⟩ := Dict.get_of_get_pop hj
    exact ⟨hj, fun _ => hother⟩
  · rename_i hrunning
    exact ⟨hj, fun hfinished => absurd hfinished hrunning⟩

/-- A task that moves on. The `finally` block of one that ends pops its own entry: no other task has it. -/
theorem Tracked.resume {i : Nat} {e : TaskEvent} (h : Tracked o)
    (hstep : o.stepTask clients timeoutS i e = some o') : Tracked o' := by
  obtain ⟨t, t', rpc, hi, hres, htasks, hactive⟩ := stepTask_eq_some hstep
  have hop := MigrationTask.step_operatorId hres
  have hreg := h.registered i t hi (MigrationTask.running_of_step hres)
  constructor
  case registered =>
    intro j u hj hrunning
    rw [htasks] at hj
    rcases getElem?_set_task hi hj with ⟨rfl, rfl⟩ | ⟨hji, hold⟩
    -- the task that goes on keeps its entry unless it has finished
    · rw [hactive, if_neg hrunning, hop]
      exact hreg
    · have hregj := h.registered j u hold hrunning
      rw [hactive]
      split
      -- two unfinished tasks are of different operators, so popping one leaves the other's entry
      · have hother : u.migration.operatorId ≠ t.migration.operatorId := by
          intro heq
          rw [heq, hreg] at hregj
          exact hji (Option.some.inj hregj).symm
        rw [Dict.get_pop_ne _ hother]
        exact hregj
      · exact hregj
  case entry =>
    intro op j hj
    obtain ⟨hwas, hother⟩ := get_of_popped hactive hj
    obtain ⟨u, hu, huop, hrunning⟩ := h.entry op j hwas
    rw [htasks]
    by_cases hji : j = i
    · rw [hji] at hu
      have hut : u = t := Option.some.inj (hu.symm.trans hi)
      rw [hut] at huop
      refine ⟨t', ?_, hop.trans huop, fun hfinished => hother hfinished huop.symm⟩
      rw [hji]
      exact List.getElem?_set_self (List.getElem?_eq_some_iff.mp hi).1
    · exact ⟨u, by rw [List.getElem?_set_ne (Ne.symm hji)]; exact hu, huop, hrunning⟩

end PCTROrchestrator

/-! ## The transition system

Calls of `migrate_operator` and resumptions of the tasks, in any order. -/

/-- What happens next: somebody calls `migrate_operator`, or a background task is resumed. -/
inductive OrchestratorStep where
  | migrate (operatorId sourceTier targetTier : String)
  | task (i : Nat) (event : TaskEvent)

/-- An orchestrator, the migration ids it has returned and the RPCs its tasks have sent. -/
structure Orchestration where
  orchestrator : PCTROrchestrator
  returned     : List String
  sent         : List Rpc

namespace Orchestration

/-- Before the first call. -/
def new : Orchestration := ⟨.new, [], []⟩

/-- One step. -/
def step (clients : HeaClients) (timeoutS : Int) (s : Orchestration) : OrchestratorStep → Option Orchestration
  | .migrate operatorId sourceTier targetTier =>
      match s.orchestrator.migrateOperator operatorId sourceTier targetTier with
      -- the `ValueError` is raised before anything is written
      | .error _                       => some s
      | .ok (migrationId, orchestrator) =>
          some { s with orchestrator := orchestrator, returned := s.returned ++ [migrationId] }
  | .task i event => do
      let t ← s.orchestrator.tasks[i]?
      let (_, rpc) ← t.step clients timeoutS event
      let orchestrator ← s.orchestrator.stepTask clients timeoutS i event
      some { s with orchestrator := orchestrator, sent := s.sent ++ rpc.toList }

/-- The runs of an orchestrator. -/
def system (clients : HeaClients) (timeoutS : Int) : Lts Orchestration OrchestratorStep :=
  Lts.ofStep (fun s => s = new) (step clients timeoutS)

/-- What a step does: a call is rejected; or it starts a migration; or a task moves on. -/
theorem step_cases {clients : HeaClients} {timeoutS : Int} {s s' : Orchestration} {a : OrchestratorStep}
    (h : step clients timeoutS s a = some s') :
    (∃ op src tgt e, a = .migrate op src tgt ∧ s.orchestrator.migrateOperator op src tgt = .error e ∧ s' = s) ∨
    (∃ op src tgt migrationId orchestrator, a = .migrate op src tgt ∧
      s.orchestrator.migrateOperator op src tgt = .ok (migrationId, orchestrator) ∧
      s' = { s with orchestrator := orchestrator, returned := s.returned ++ [migrationId] }) ∨
    (∃ i event t t' rpc orchestrator, a = .task i event ∧ s.orchestrator.tasks[i]? = some t ∧
      t.step clients timeoutS event = some (t', rpc) ∧
      s.orchestrator.stepTask clients timeoutS i event = some orchestrator ∧
      s' = { s with orchestrator := orchestrator, sent := s.sent ++ rpc.toList }) := by
  cases a with
  | migrate op src tgt =>
      unfold step at h
      dsimp only at h
      split at h
      · rename_i e herror
        exact Or.inl ⟨op, src, tgt, e, rfl, herror, (Option.some.inj h).symm⟩
      · rename_i migrationId orchestrator hok
        exact Or.inr (Or.inl ⟨op, src, tgt, migrationId, orchestrator, rfl, hok, (Option.some.inj h).symm⟩)
  | task i event =>
      obtain ⟨t, ht, h⟩ := Option.bind_eq_some_iff.mp h
      obtain ⟨⟨t', rpc⟩, hstep, h⟩ := Option.bind_eq_some_iff.mp h
      obtain ⟨orchestrator, horchestrator, h⟩ := Option.bind_eq_some_iff.mp h
      exact Or.inr (Or.inr ⟨i, event, t, t', rpc, orchestrator, rfl, ht, hstep, horchestrator,
        (Option.some.inj h).symm⟩)

end Orchestration

end Aode
end HybridStream
