import HybridStream.Aode.Orchestration

/-!
# `Aode.Correctness.OneMigration` — at most one migration per operator, each with its own id

The entries of `_active_migrations` are the unfinished tasks in every reachable state
(`PCTROrchestrator.Tracked`), so no operator has two of them. The ids number the accepted calls
(`Numbered`), and padding to four digits loses nothing, however many there are (`pad4_injective`).

The invariant ties the entries to the tasks: an entry is made with its task and popped by it, by the name of the
operator, and no other task can have popped it as there is no other unfinished one.
-/

namespace HybridStream
namespace Aode

open Lib Py

/-! ## Migration ids

Ids are numbered in the order of the calls and padded to four digits; beyond four digits they are longer, and still
different. -/

/-- Zero-padding keeps the number. -/
theorem pad4_injective : Function.Injective PCTROrchestrator.pad4 := by
  intro m n h
  have hchars := congrArg (fun s => Nat.ofDigitChars 10 s.toList 0) h
  simpa [PCTROrchestrator.pad4, Nat.ofDigitChars_append] using hchars

/-- The id of the `n`-th migration. -/
def migrationIdOf (n : Nat) : String := "migration-" ++ PCTROrchestrator.pad4 n

theorem migrationIdOf_injective : Function.Injective migrationIdOf := fun _ _ h =>
  pad4_injective (String.append_right_inj _ |>.mp h)

namespace Orchestration

variable {clients : HeaClients} {timeoutS : Int} {s s' : Orchestration} {a : OrchestratorStep}

/-- The ids returned so far are those of the numbers up to the counter. -/
def Numbered (s : Orchestration) : Prop :=
  s.returned = (List.range s.orchestrator.migrationCounter).map (fun k => migrationIdOf (k + 1))

theorem Numbered.nodup (h : Numbered s) : s.returned.Nodup := by
  rw [h]
  refine List.Nodup.map (fun m n heq => ?_) List.nodup_range
  exact Nat.succ_injective (migrationIdOf_injective heq)

/-- What holds of the orchestrator in every run. -/
structure Inv (s : Orchestration) : Prop where
  tracked  : s.orchestrator.Tracked
  numbered : Numbered s

theorem inv_step (h : Inv s) (hstep : step clients timeoutS s a = some s') : Inv s' := by
  rcases step_cases hstep with ⟨op, src, tgt, e, -, -, rfl⟩ |
    ⟨op, src, tgt, migrationId, o, -, hstart, rfl⟩ | ⟨i, event, t, t', rpc, o, -, -, -, hresume, rfl⟩
  · exact h
  · refine ⟨h.tracked.start hstart, ?_⟩
    obtain ⟨hid, hcounter⟩ := PCTROrchestrator.migrateOperator_counter hstart
    show s.returned ++ [migrationId] = _
    rw [hcounter, List.range_succ, List.map_append, hid, ← h.numbered]
    rfl
  · refine ⟨h.tracked.resume hresume, ?_⟩
    show s.returned = _
    rw [PCTROrchestrator.stepTask_counter hresume]
    exact h.numbered

theorem inv_of_reachable (h : (system clients timeoutS).Reachable s) : Inv s := by
  refine h.invariant (I := Inv) ?_ fun s a s' hs hstep => inv_step hs hstep
  rintro s rfl
  exact ⟨.new, rfl⟩

/-- **One migration per operator.** In every reachable state the entries of `_active_migrations` are, each under its own
    operator, the unfinished tasks; no operator has two of them; the ids returned are pairwise different; and a rejected
    call is a `ValueError` that changes neither the entries nor the counter. The invariant is in two parts, one on the
    entries and the tasks they stand for, the other on the ids and the counter that numbers them. -/
theorem one_migration_per_operator (h : (system clients timeoutS).Reachable s) :
    (∀ op i, s.orchestrator.activeMigrations.get op = some i →
      ∃ t, s.orchestrator.tasks[i]? = some t ∧ t.migration.operatorId = op ∧ t.status ≠ .finished) ∧
    (∀ (i : Nat) (t : MigrationTask), s.orchestrator.tasks[i]? = some t → t.status ≠ .finished →
      s.orchestrator.activeMigrations.get t.migration.operatorId = some i) ∧
    (∀ (i j : Nat) (t u : MigrationTask), s.orchestrator.tasks[i]? = some t → t.status ≠ .finished →
      s.orchestrator.tasks[j]? = some u → u.status ≠ .finished →
      t.migration.operatorId = u.migration.operatorId → i = j) ∧
    s.returned.Nodup ∧
    (∀ op src tgt e s', s.orchestrator.migrateOperator op src tgt = .error e →
      step clients timeoutS s (.migrate op src tgt) = some s' →
      e.kind = .valueError ∧ s'.orchestrator.activeMigrations = s.orchestrator.activeMigrations ∧
        s'.orchestrator.migrationCounter = s.orchestrator.migrationCounter) := by
  obtain ⟨htracked, hnumbered⟩ := inv_of_reachable h
  refine ⟨htracked.entry, htracked.registered, fun i j t u hi ht hj hu hop => htracked.unique hi ht hj hu hop,
    hnumbered.nodup, ?_⟩
  intro op src tgt e s' herror hstep
  have hkind := PCTROrchestrator.kind_of_migrateOperator herror
  unfold step at hstep
  dsimp only at hstep
  rw [herror] at hstep
  cases hstep
  exact ⟨hkind, rfl, rfl⟩

/-- `RiskCheck` is migrated; a second call is rejected; after the timeout a third one is accepted. -/
theorem one_migration_per_operator_retried :
    ∃ s : Orchestration, s.orchestrator.tasks.length = 2 ∧ s.orchestrator.activeMigrations.get "RiskCheck" = some 1 ∧
      s.returned.length = 2 ∧ s.returned.Nodup := by
  let clients : HeaClients := Dict.ofList [("edge-node-1", ⟨"edge-node-1:50051"⟩)]
  have hexec : Lts.exec (step clients 300)
      [ .migrate "RiskCheck" "edge-node-1" "cloud", .task 0 (.start 0), .migrate "RiskCheck" "edge-node-1" "cloud",
        .task 0 .timedOut, .migrate "RiskCheck" "edge-node-1" "edge-node-2" ] new = some _ := rfl
  have hreach : (system clients 300).Reachable _ := Lts.reachable_of_exec rfl hexec
  exact ⟨_, rfl, rfl, rfl, (one_migration_per_operator hreach).2.2.2.1⟩

end Orchestration

end Aode
end HybridStream
