import HybridStream.Aode.Controller
import HybridStream.Aode.Orchestration
import HybridStream.Py.Exact

/-!
# `Aode.Correctness.PlacementTruth` — whether the recorded placement is where the operators run

The optimizer records a migration's target when it *starts* the migration and nobody corrects the record
when the migration fails. So the record of an operator is always the target of its last migration
(`Recorded`), and it is the truth as long as no migration ends in a failure; the first failure makes it
wrong (`recorded_placement_true_iff`).
-/

namespace HybridStream
namespace Aode

open Lib Py

/-! ## The last migration of an operator

The tasks stay in the list when they have ended, in the order they were started, so the last one of an operator says
where it should be. -/

/-- The `i`-th task is the last migration of the operator. -/
def LastMigration (tasks : List MigrationTask) (op : String) (i : Nat) (t : MigrationTask) : Prop :=
  tasks[i]? = some t ∧ t.migration.operatorId = op ∧
    ∀ j t', i < j → tasks[j]? = some t' → t'.migration.operatorId ≠ op

section LastMigration

variable {tasks : List MigrationTask} {op : String} {i j : Nat} {t t' u : MigrationTask}

/-- A new migration is the last one of its operator and leaves the others alone. -/
theorem lastMigration_append :
    LastMigration (tasks ++ [t]) op i u ↔
      if t.migration.operatorId = op then i = tasks.length ∧ u = t else LastMigration tasks op i u := by
  unfold LastMigration
  have hnew : (tasks ++ [t])[tasks.length]? = some t := by simp
  have hold : ∀ {k}, k < tasks.length → (tasks ++ [t])[k]? = tasks[k]? :=
    fun hk => List.getElem?_append_left hk
  have hbound : ∀ {k v}, (tasks ++ [t])[k]? = some v → k < tasks.length ∨ (k = tasks.length ∧ v = t) :=
    fun hk => (getElem?_append_task hk).imp_left (fun hold => (List.getElem?_eq_some_iff.mp hold).1)
  by_cases hop : t.migration.operatorId = op
  · rw [if_pos hop]
    constructor
    · rintro ⟨hi, -, hlater⟩
      rcases hbound hi with hlt | heq
      · exact absurd hop (hlater _ t hlt hnew)
      · exact heq
    · rintro ⟨rfl, rfl⟩
      refine ⟨hnew, hop, fun k v hk hv => ?_⟩
      rcases hbound hv with hlt | ⟨heq, -⟩ <;> omega
  · rw [if_neg hop]
    constructor
    · rintro ⟨hi, hu, hlater⟩
      rcases hbound hi with hlt | ⟨-, rfl⟩
      · refine ⟨by rw [← hold hlt]; exact hi, hu, fun k v hk hv => hlater k v hk ?_⟩
        rw [hold (List.getElem?_eq_some_iff.mp hv).1]
        exact hv
      · exact absurd hu hop
    · rintro ⟨hi, hu, hlater⟩
      have hlt := (List.getElem?_eq_some_iff.mp hi).1
      refine ⟨by rw [hold hlt]; exact hi, hu, fun k v hk hv => ?_⟩
      rcases hbound hv with hk' | ⟨-, rfl⟩
      · rw [hold hk'] at hv
        exact hlater k v hk hv
      · exact hop

/-- A task that moves on keeps its operator, so every place in the list has the operator it had. -/
theorem operator_of_set (hi : tasks[i]? = some t) (hop : t'.migration.operatorId = t.migration.operatorId)
    (hj : (tasks.set i t')[j]? = some u) :
    ∃ v, tasks[j]? = some v ∧ v.migration.operatorId = u.migration.operatorId := by
  by_cases hji : j = i
  · rw [hji, List.getElem?_set_self (List.getElem?_eq_some_iff.mp hi).1] at hj
    cases hj
    exact ⟨t, by rw [hji]; exact hi, hop.symm⟩
  · rw [List.getElem?_set_ne (Ne.symm hji)] at hj
    exact ⟨u, hj, rfl⟩

/-- The same the other way round: putting the old task back gives the old list. -/
theorem operator_in_set (hi : tasks[i]? = some t) (hop : t'.migration.operatorId = t.migration.operatorId)
    (hj : tasks[j]? = some u) :
    ∃ v, (tasks.set i t')[j]? = some v ∧ v.migration.operatorId = u.migration.operatorId := by
  obtain ⟨hlt, hget⟩ := List.getElem?_eq_some_iff.mp hi
  have hback : (tasks.set i t').set i t = tasks := by
    rw [List.set_set, ← hget]
    exact List.set_getElem_self hlt
  rw [← hback] at hj
  exact operator_of_set (List.getElem?_set_self hlt) hop.symm hj

/-- A task that moves on keeps the order of migrations. -/
theorem lastMigration_set (hi : tasks[i]? = some t) (hop : t'.migration.operatorId = t.migration.operatorId) :
    LastMigration (tasks.set i t') op j u ↔
      ∃ v, LastMigration tasks op j v ∧ u = if j = i then t' else v := by
  have hlt := (List.getElem?_eq_some_iff.mp hi).1
  have hself : (tasks.set i t')[i]? = some t' := List.getElem?_set_self hlt
  have hne : ∀ {k}, k ≠ i → (tasks.set i t')[k]? = tasks[k]? := fun hk => List.getElem?_set_ne (Ne.symm hk)
  constructor
  · rintro ⟨hj, hu, hlater⟩
    obtain ⟨v, hv, hvu⟩ := operator_of_set hi hop hj
    refine ⟨v, ⟨hv, hvu.trans hu, fun k w hk hw => ?_⟩, ?_⟩
    · obtain ⟨w', hw', heq⟩ := operator_in_set hi hop hw
      rw [← heq]
      exact hlater k w' hk hw'
    · by_cases hji : j = i
      · rw [hji, hself] at hj
        rw [if_pos hji]
        exact (Option.some.inj hj).symm
      · rw [hne hji, hv] at hj
        rw [if_neg hji]
        exact (Option.some.inj hj).symm
  · rintro ⟨v, ⟨hv, hvop, hlater⟩, rfl⟩
    refine ⟨?_, ?_, fun k w hk hw => ?_⟩
    · by_cases hji : j = i
      · rw [if_pos hji, hji]; exact hself
      · rw [if_neg hji, hne hji]; exact hv
    · by_cases hji : j = i
      · rw [hji, hi] at hv
        cases hv
        rw [if_pos hji, hop]
        exact hvop
      · rw [if_neg hji]; exact hvop
    · obtain ⟨w', hw', heq⟩ := operator_of_set hi hop hw
      rw [← heq]
      exact hlater k w' hk hw'

/-- A task that moves on leaves it as it is which operators were never migrated. -/
theorem never_migrated_set (hi : tasks[i]? = some t) (hop : t'.migration.operatorId = t.migration.operatorId)
    (hnone : ∀ u ∈ tasks.set i t', u.migration.operatorId ≠ op) : ∀ u ∈ tasks, u.migration.operatorId ≠ op := by
  intro u hu heq
  obtain ⟨j, hj⟩ := List.getElem?_of_mem hu
  obtain ⟨v, hv, hvu⟩ := operator_in_set hi hop hj
  exact hnone v (List.mem_of_getElem? hv) (hvu.trans heq)

end LastMigration

namespace Controller

variable {F : Type} [PyRuntime F] {clients : HeaClients} {initial : Dict String String}
  {c c' : Controller F} {a : ControllerStep F}

/-! ## The truth and the record

Where an operator is, is decided by whether its last migration completed; the record says where it was sent. The two
are the same as long as no migration ends short of completion. -/

/-- **The recorded placement is true**: an operator that is not being migrated is recorded on the tier its
    last migration has left it on, or on its initial one. -/
def RecordTrue (initial : Dict String String) (c : Controller F) : Prop :=
  ∀ op, c.optimizer.migration.activeMigrations.contains op = false →
    ((∀ t ∈ c.optimizer.migration.tasks, t.migration.operatorId ≠ op) →
      c.optimizer.placement.cache.get op = initial.get op) ∧
    (∀ i t, LastMigration c.optimizer.migration.tasks op i t → c.optimizer.placement.cache.get op =
      some (if t.migration.completed then t.migration.targetTier else t.migration.sourceTier))

/-- What holds of the orchestrator and the record in every run: the operators being migrated are those with
    an unfinished task, that task is their last migration, and the record is the last migration's target. -/
structure Recorded (initial cache : Dict String String) (o : PCTROrchestrator) : Prop where
  registered : ∀ (i : Nat) (t : MigrationTask), o.tasks[i]? = some t → t.status ≠ .finished →
                 o.activeMigrations.get t.migration.operatorId = some i
  active     : ∀ op i, o.activeMigrations.get op = some i →
                 ∃ t, LastMigration o.tasks op i t ∧ t.status ≠ .finished
  running    : ∀ (i : Nat) (t : MigrationTask), o.tasks[i]? = some t → t.status ≠ .finished →
                 t.migration.completed = false
  untouched  : ∀ op, (∀ t ∈ o.tasks, t.migration.operatorId ≠ op) → cache.get op = initial.get op
  target     : ∀ op i t, LastMigration o.tasks op i t → cache.get op = some t.migration.targetTier ∧
                 t.migration.sourceTier ≠ t.migration.targetTier

/-- The invariant of the controller's runs. -/
structure Inv (initial : Dict String String) (c : Controller F) : Prop where
  recorded   : Recorded initial c.optimizer.placement.cache c.optimizer.migration
  candidates : ∀ cs, c.cycle = some cs → ∀ d ∈ cs, d.sourceTier ≠ d.targetTier

/-- In runs without failures, migrations that have ended are completed. -/
def AllCompleted (c : Controller F) : Prop :=
  ∀ (i : Nat) (t : MigrationTask), c.optimizer.migration.tasks[i]? = some t → t.status = .finished →
    t.migration.completed = true

omit [PyRuntime F] in
theorem recordTrue_of_allCompleted (h : Inv initial c) (hall : AllCompleted c) : RecordTrue initial c := by
  intro op hidle
  refine ⟨h.recorded.untouched op, fun i t hlast => ?_⟩
  have hfinished : t.status = .finished := by
    by_contra hno
    have hreg := h.recorded.registered i t hlast.1 hno
    rw [hlast.2.1] at hreg
    unfold Dict.contains at hidle
    rw [hreg] at hidle
    exact absurd hidle (by simp)
  rw [(h.recorded.target op i t hlast).1, if_pos (hall i t hlast.1 hfinished)]

/-! ## Steps

A start records the target of a new last migration; a resumption may end one. Both keep the record on the last
target. -/

/-- Before the first migration. -/
theorem recorded_new (initial : Dict String String) : Recorded initial initial PCTROrchestrator.new := by
  constructor
  · exact fun i t hi => absurd hi (by simp [PCTROrchestrator.new])
  · exact fun op i hi => absurd hi (by simp [PCTROrchestrator.new])
  · exact fun i t hi => absurd hi (by simp [PCTROrchestrator.new])
  · exact fun op _ => rfl
  · exact fun op i t hi => absurd hi.1 (by simp [PCTROrchestrator.new])

theorem Recorded.tracked {cache : Dict String String} {o : PCTROrchestrator} (h : Recorded initial cache o) :
    o.Tracked := by
  refine ⟨h.registered, fun op i hi => ?_⟩
  obtain ⟨t, hlast, hrunning⟩ := h.active op i hi
  exact ⟨t, hlast.1, hlast.2.1, hrunning⟩

/-- A migration that is started: its target is recorded. -/
theorem Recorded.start {cache : Dict String String} {o o' : PCTROrchestrator} {op src tgt mid : String}
    (h : Recorded initial cache o) (hne : src ≠ tgt)
    (hstart : o.migrateOperator op src tgt = .ok (mid, o')) : Recorded initial (cache.set op tgt) o' := by
  obtain ⟨hnone, hactive, t, htasks, hstatus, hcompleted, hop, hsrc, htgt⟩ :=
    PCTROrchestrator.migrateOperator_eq_ok hstart
  constructor
  case registered => exact (h.tracked.start hstart).registered
  case active =>
    intro op' i hi
    rw [hactive, Dict.get_set] at hi
    rw [htasks]
    by_cases heq : op' = op
    · rw [if_pos heq] at hi
      cases hi
      exact ⟨t, lastMigration_append.mpr (by rw [hop, if_pos heq.symm]; exact ⟨rfl, rfl⟩), by simp [hstatus]⟩
    · rw [if_neg heq] at hi
      obtain ⟨u, hlast, hu⟩ := h.active op' i hi
      exact ⟨u, lastMigration_append.mpr (by rw [hop, if_neg (Ne.symm heq)]; exact hlast), hu⟩
  case running =>
    intro i u hi hrunning
    rw [htasks] at hi
    rcases getElem?_append_task hi with hold | ⟨-, rfl⟩
    · exact h.running i u hold hrunning
    · exact hcompleted
  case untouched =>
    intro op' hop'
    rw [htasks] at hop'
    -- an operator that has no task yet is not the one just started
    have hne' : op' ≠ op := fun heq => hop' t (by simp) (hop.trans heq.symm)
    rw [Dict.get_set_ne _ hne']
    exact h.untouched op' (fun u hu => hop' u (List.mem_append_left _ hu))
  case target =>
    intro op' i u hlast
    rw [htasks, lastMigration_append, hop] at hlast
    by_cases heq : op = op'
    · rw [if_pos heq] at hlast
      rw [hlast.2, ← heq, hsrc, htgt]
      exact ⟨Dict.get_set_self _ _ _, hne⟩
    · rw [if_neg heq] at hlast
      rw [Dict.get_set_ne _ (Ne.symm heq)]
      exact h.target op' i u hlast

/-- A task that moves on. -/
theorem Recorded.resume {cache : Dict String String} {o o' : PCTROrchestrator} {timeoutS : Int} {i : Nat}
    {e : TaskEvent} (h : Recorded initial cache o) (hstep : o.stepTask clients timeoutS i e = some o') :
    Recorded initial cache o' := by
  obtain ⟨t, t', rpc, hi, hres, htasks, hactive⟩ := PCTROrchestrator.stepTask_eq_some hstep
  have hroute := MigrationTask.step_route hres
  have hop : t'.migration.operatorId = t.migration.operatorId := congrArg Prod.fst hroute
  have hrunning := MigrationTask.running_of_step hres
  have houtcome := MigrationTask.step_outcome hres (h.running i t hi hrunning)
  constructor
  -- the fields of `Recorded` one by one; the task keeps its route, so only its status and outcome are new
  case registered => exact (h.tracked.resume hstep).registered
  case active =>
    intro op j hj
    obtain ⟨hwas, hother⟩ := PCTROrchestrator.get_of_popped hactive hj
    obtain ⟨v, hlast, hstatus⟩ := h.active op j hwas
    refine ⟨if j = i then t' else v, ?_, ?_⟩
    · rw [htasks]
      exact (lastMigration_set hi hop).mpr ⟨v, hlast, rfl⟩
    · split
      · -- the entry of the task itself is left only if it goes on
        rename_i hji
        rw [hji] at hlast
        have hvt : v = t := Option.some.inj (hlast.1.symm.trans hi)
        rw [hvt] at hlast
        exact fun hfinished => hother hfinished hlast.2.1.symm
      · exact hstatus
  case running =>
    intro j u hj hstatus
    rw [htasks] at hj
    -- the task itself: its outcome says that it is not completed as long as it runs
    rcases getElem?_set_task hi hj with ⟨-, rfl⟩ | ⟨-, hold⟩
    · unfold MigrationTask.Outcome at houtcome
      split at houtcome
      · exact houtcome.2
      · rcases houtcome with houtcome | houtcome
        · exact houtcome.2
        · exact absurd houtcome.1 hstatus
    · exact h.running j u hold hstatus
  case untouched =>
    intro op hno
    rw [htasks] at hno
    exact h.untouched op (never_migrated_set hi hop hno)
  case target =>
    intro op j u hlast
    rw [htasks, lastMigration_set hi hop] at hlast
    obtain ⟨v, hlast, rfl⟩ := hlast
    have hv := h.target op j v hlast
    split
    -- the last migration of the operator may be this task, which goes where it went
    · rename_i hji
      rw [hji] at hlast
      have hvt : v = t := Option.some.inj (hlast.1.symm.trans hi)
      rw [hvt] at hv
      rw [show t'.migration.targetTier = t.migration.targetTier from congrArg (fun r => r.2.2) hroute,
        show t'.migration.sourceTier = t.migration.sourceTier from congrArg (fun r => r.2.1) hroute]
      exact hv
    · exact hv

/-- What a step does: it leaves migrations and record alone, and candidates come from a plan; or it starts
    the migration of the next candidate; or it resumes a task. -/
theorem step_cases (h : step clients c a = some c') :
    (c'.optimizer.migration = c.optimizer.migration ∧ c'.optimizer.placement = c.optimizer.placement ∧
      (∀ task event, a ≠ .migration task event) ∧
      ∀ cs, c'.cycle = some cs →
        (∃ ds, c.cycle = some ds ∧ cs ⊆ ds) ∨ c.optimizer.candidates = .ok (some cs)) ∨
    (∃ put candidate rest migrationId, a = .next put ∧ c.cycle = some (candidate :: rest) ∧
      c'.cycle = some rest ∧
      c.optimizer.migration.migrateOperator candidate.operatorType candidate.sourceTier candidate.targetTier =
        .ok (migrationId, c'.optimizer.migration) ∧
      c'.optimizer.placement = ⟨c.optimizer.placement.cache.set candidate.operatorType candidate.targetTier⟩) ∨
    (∃ task event, a = .migration task event ∧
      c.optimizer.migration.stepTask clients c.optimizer.config.migrationTimeoutS task event =
        some c'.optimizer.migration ∧
      c'.optimizer.placement = c.optimizer.placement ∧ c'.cycle = c.cycle) := by
  -- a step that leaves the cycle alone keeps its candidates
  have hkept : ∀ cs, c.cycle = some cs →
      (∃ ds, c.cycle = some ds ∧ cs ⊆ ds) ∨ c.optimizer.candidates = .ok (some cs) :=
    fun cs hcs => Or.inl ⟨cs, hcs, List.Subset.refl cs⟩
  rcases step_eq_some h with ⟨hobserves, scoring, rfl⟩ | ⟨rfl, -, hcycle⟩ | ⟨put, rfl, -, rfl⟩ |
    ⟨put, d, rest, rfl, hcycle, rfl⟩ | ⟨task, event, migration, rfl, hmigration, rfl⟩
  · rcases hobserves with ⟨telemetry, rfl⟩ | ⟨presetName, rfl⟩
    · exact Or.inl ⟨rfl, rfl, by simp, hkept⟩
    · exact Or.inl ⟨rfl, rfl, by simp, hkept⟩
  · rcases hcycle with ⟨cycle, hcandidates, rfl⟩ | ⟨err, -, rfl⟩
    · refine Or.inl ⟨rfl, rfl, by simp, fun cs hcs => Or.inr ?_⟩
      rw [hcandidates, show cycle = some cs from hcs]
    · exact Or.inl ⟨rfl, rfl, by simp, hkept⟩
  · exact Or.inl ⟨rfl, rfl, by simp, fun cs hcs => by cases hcs⟩
  · -- the operator is already being migrated, or its migration is accepted
    rcases c.optimizer.startCandidate_cases d put with ⟨-, heq⟩ | ⟨-, migrationId, _, _, hstart, heq⟩
    · rw [heq]
      refine Or.inl ⟨rfl, rfl, by simp, fun cs hcs => Or.inl ⟨_, hcycle, ?_⟩⟩
      cases hcs
      exact List.subset_cons_self d rest
    · rw [heq]
      exact Or.inr (Or.inl ⟨put, d, rest, migrationId, rfl, hcycle, rfl, hstart, rfl⟩)
  · exact Or.inr (Or.inr ⟨task, event, rfl, hmigration, rfl, rfl⟩)

/-- **Every step keeps the record on the last target.** -/
theorem inv_step (h : Inv initial c) (hstep : step clients c a = some c') : Inv initial c' := by
  rcases step_cases hstep with ⟨hmigration, hplacement, -, hcycle⟩ |
    ⟨put, candidate, rest, _, -, hcycle, hcycle', hstart, hplacement⟩ |
    ⟨task, event, -, hresume, hplacement, hcycle⟩
  · refine ⟨by rw [hmigration, hplacement]; exact h.recorded, fun cs hcs d hd => ?_⟩
    rcases hcycle cs hcs with ⟨ds, hds, hsub⟩ | hcandidates
    · exact h.candidates ds hds d (hsub hd)
    · -- candidates of a plan move to another tier
      rcases PlacementOptimizer.candidates_eq_ok hcandidates with ⟨habsurd, -⟩ | ⟨scores, optimal, -, hcs⟩
      · exact absurd habsurd (by simp)
      · cases hcs
        obtain ⟨i, -, hcand⟩ := mem_identifyMigrationCandidates.mp hd
        exact (candidateOf_eq_some hcand).2.2.2
  · refine ⟨?_, fun cs hcs d hd => ?_⟩
    · rw [hplacement]
      exact h.recorded.start (h.candidates _ hcycle candidate List.mem_cons_self) hstart
    · rw [hcycle'] at hcs
      cases hcs
      exact h.candidates _ hcycle d (List.mem_cons_of_mem _ hd)
  · refine ⟨?_, by rw [hcycle]; exact h.candidates⟩
    rw [hplacement]
    exact h.recorded.resume hresume

/-! ## Exactly the runs without a failed migration

With the invariant the record is wrong about an operator exactly from the step on at which its migration ends
uncompleted, so the property of a step is the property of the run. -/

/-- The step does not end a migration in a failure. -/
def NoFailure (clients : HeaClients) (c : Controller F) : ControllerStep F → Prop
  | .migration task event => (c.optimizer.migration.tasks[task]?).any
      (fun t => MigrationTask.fails clients t.migration event) = false
  | _ => True

instance (clients : HeaClients) (c : Controller F) (a : ControllerStep F) : Decidable (NoFailure clients c a) := by
  cases a <;> unfold NoFailure <;> infer_instance

omit [PyRuntime F] in
theorem noFailure_migration {task : Nat} {event : TaskEvent} {t : MigrationTask}
    (ht : c.optimizer.migration.tasks[task]? = some t) :
    NoFailure clients c (.migration task event) ↔ MigrationTask.fails clients t.migration event = false := by
  show Option.any _ _ = false ↔ _
  rw [ht]
  rfl

/-- What a task is after its answer, in terms of the list of tasks. -/
theorem stepTask_outcome {cache : Dict String String} {o o' : PCTROrchestrator} {timeoutS : Int} {i : Nat}
    {e : TaskEvent} (h : Recorded initial cache o) (hstep : o.stepTask clients timeoutS i e = some o') :
    ∃ t t', o.tasks[i]? = some t ∧ o'.tasks = o.tasks.set i t' ∧ t'.migration.route = t.migration.route ∧
      o.activeMigrations.get t.migration.operatorId = some i ∧
      (t'.status = .finished → o'.activeMigrations.get t.migration.operatorId = none) ∧
      MigrationTask.Outcome (MigrationTask.fails clients t.migration e) t' := by
  obtain ⟨t, t', rpc, hi, hres, htasks, hactive⟩ := PCTROrchestrator.stepTask_eq_some hstep
  have hrunning := MigrationTask.running_of_step hres
  refine ⟨t, t', hi, htasks, MigrationTask.step_route hres, h.registered i t hi hrunning, ?_,
    MigrationTask.step_outcome hres (h.running i t hi hrunning)⟩
  intro hfin
  rw [hactive, if_pos hfin]
  exact Dict.get_pop_self _ _

theorem allCompleted_step (h : Inv initial c) (hall : AllCompleted c) (hstep : step clients c a = some c')
    (hG : NoFailure clients c a) : AllCompleted c' := by
  intro i u hi hfin
  rcases step_cases hstep with ⟨hmigration, -⟩ | ⟨put, candidate, rest, _, -, -, -, hstart, -⟩ |
    ⟨task, event, rfl, hresume, -⟩
  · rw [hmigration] at hi
    exact hall i u hi hfin
  · obtain ⟨-, -, t, htasks, hstatus, -⟩ := PCTROrchestrator.migrateOperator_eq_ok hstart
    rw [htasks] at hi
    rcases getElem?_append_task hi with hold | ⟨-, rfl⟩
    · exact hall i u hold hfin
    · rw [hstatus] at hfin
      exact absurd hfin (by simp)
  · obtain ⟨t, t', ht, htasks, -, -, -, houtcome⟩ := stepTask_outcome h.recorded hresume
    have hok := (noFailure_migration ht).mp hG
    rw [htasks] at hi
    by_cases hitask : i = task
    · rw [hitask, List.getElem?_set_self (List.getElem?_eq_some_iff.mp ht).1] at hi
      cases hi
      rw [hok] at houtcome
      rcases houtcome with houtcome | houtcome
      · rw [houtcome.1] at hfin
        exact absurd hfin (by simp)
      · exact houtcome.2
    · rw [List.getElem?_set_ne (Ne.symm hitask)] at hi
      exact hall i u hi hfin

theorem inv_reachable (h : ((system clients initial).restrict (NoFailure clients)).Reachable c) :
    Inv initial c ∧ AllCompleted c := by
  refine Lts.Reachable.invariant (I := fun c => Inv initial c ∧ AllCompleted c) ?_ ?_ h
  · rintro c ⟨hmigration, hcycle, hcache⟩
    refine ⟨⟨?_, ?_⟩, ?_⟩
    · rw [hmigration, hcache]
      exact recorded_new initial
    · intro cs hcs
      rw [hcycle] at hcs
      exact absurd hcs (by simp)
    · intro i t hi
      rw [hmigration] at hi
      exact absurd hi (by simp [PCTROrchestrator.new])
  · rintro c a c' ⟨hinv, hall⟩ ⟨hstep, hG⟩
    exact ⟨inv_step hinv hstep, allCompleted_step hinv hall hstep hG⟩

/-- A migration that ends in a failure leaves a wrong record behind. -/
theorem not_recordTrue_of_failure (h : Inv initial c) (hstep : step clients c a = some c')
    (hG : ¬ NoFailure clients c a) : ¬ RecordTrue initial c' := by
  rcases step_cases hstep with ⟨-, -, hother, -⟩ | ⟨put, _, _, _, rfl, -⟩ |
    ⟨task, event, rfl, hresume, hplacement, -⟩
  · exact absurd (by cases a <;> first | exact trivial | exact absurd rfl (hother _ _)) hG
  · exact absurd trivial hG
  · intro htrue
    obtain ⟨t, t', ht, htasks, hroute, hactive, hpopped, houtcome⟩ := stepTask_outcome h.recorded hresume
    rw [(Bool.not_eq_false _).mp (mt (noFailure_migration ht).mpr hG)] at houtcome
    obtain ⟨hfin, hcompleted⟩ := houtcome
    have hop : t'.migration.operatorId = t.migration.operatorId := congrArg Prod.fst hroute
    -- the failed migration is the last one of its operator
    obtain ⟨v, hlast, -⟩ := h.recorded.active _ task hactive
    have hlast' : LastMigration c'.optimizer.migration.tasks t.migration.operatorId task t' := by
      rw [htasks]
      exact (lastMigration_set ht hop).mpr ⟨v, hlast, (if_pos rfl).symm⟩
    have hidle : c'.optimizer.migration.activeMigrations.contains t.migration.operatorId = false := by
      unfold Dict.contains
      rw [hpopped hfin]
      rfl
    have hsource := (htrue _ hidle).2 task t' hlast'
    obtain ⟨htarget, hne⟩ := (h.recorded.resume hresume).target _ task t' hlast'
    rw [hplacement, htarget, hcompleted, if_neg (by simp)] at hsource
    exact hne (Option.some.inj hsource).symm

/-- **The recorded placement is true in every state of every run in which no migration has ended in a failure, and the
    first failure makes it false.** By `Inv` the record has the target of the last migration of each operator, started
    or ended: completed ones make that true, and one that failed has not taken the operator there. -/
theorem recorded_placement_true_iff
    (h : ((system clients initial).restrict (NoFailure clients)).Reachable c) :
    RecordTrue initial c ∧
      ∀ a c', step clients c a = some c' → (RecordTrue initial c' ↔ NoFailure clients c a) := by
  obtain ⟨hinv, hall⟩ := inv_reachable h
  refine ⟨recordTrue_of_allCompleted hinv hall, fun a c' hstep => ⟨fun htrue => ?_, fun hG => ?_⟩⟩
  · by_contra hG
    exact not_recordTrue_of_failure hinv hstep hG htrue
  · exact recordTrue_of_allCompleted (inv_step hinv hstep) (allCompleted_step hinv hall hstep hG)

/-! ### Two runs

One operator and two tiers: the migration completes and the record follows, and the migration times out in phase 1 and
the record has followed all the same. -/

/-- One operator on a tier nobody reaches, and a free one that is near. -/
def lone : Controller ℚ where
  optimizer :=
    { config := .default
      scoring :=
        { config := .default
          telemetry := ⟨Dict.ofList [("edge-node-1", ⟨0, 0, 1, ∅, true⟩)]⟩
          weights := ⟨"balanced", 3 / 10, 3 / 10, 2 / 10, 2 / 10⟩ }
      migration := .new
      placement := ⟨Dict.ofList [("op", "edge-node-3")]⟩ }
  cycle := none

/-- Both tiers have a client. -/
def loneClients : HeaClients :=
  Dict.ofList [("edge-node-1", ⟨"edge-node-1:50051"⟩), ("edge-node-3", ⟨"edge-node-3:50051"⟩)]

/-- What the two runs end in: the operator recorded on its target, its migration over. -/
def migratedTo (tier : String) (completed : Bool) (c : Controller ℚ) : Bool :=
  c.optimizer.placement.cache.get "op" = some tier ∧
  c.optimizer.migration.activeMigrations.contains "op" = false ∧
  c.optimizer.migration.tasks.map (fun t => (t.migration.operatorId, t.migration.sourceTier,
    t.migration.completed)) = [("op", "edge-node-3", completed)]

/-- The operator moves, and the record follows it. -/
theorem recorded_placement_true_iff_migrated :
    ∃ c, ((system (F := ℚ) loneClients lone.optimizer.placement.cache).restrict (NoFailure loneClients)).Reachable c ∧
      migratedTo "edge-node-1" true c = true ∧ RecordTrue lone.optimizer.placement.cache c := by
  have hrun : (Lts.exec (Lts.guardStep (step loneClients) (NoFailure loneClients))
      [ .recalibrate, .next (.ok ()), .migration 0 (.start 7), .migration 0 (.returned (.drain ⟨some ∅⟩) 7),
        .migration 0 (.returned (.snapshot ⟨"op/7/snapshot.msgpack", 64, ""⟩) 7), .next (.ok ()),
        .migration 0 (.returned (.restore ⟨true, "", ""⟩) 7),
        .migration 0 (.returned (.terminate ⟨true, ""⟩) 7) ] lone).any (migratedTo "edge-node-1" true) = true := by
    decide +kernel
  obtain ⟨c, hexec, hc⟩ := (Option.any_eq_true _ _).mp hrun
  have hreach : ((system loneClients lone.optimizer.placement.cache).restrict
      (NoFailure loneClients)).Reachable c := Lts.restrict_reachable_of_exec ⟨rfl, rfl, rfl⟩ hexec
  exact ⟨c, hreach, hc, (recorded_placement_true_iff hreach).1⟩

/-- The migration times out in phase 1: the operator is still on its source and recorded on its target. -/
theorem recorded_on_target_after_timeout :
    ∃ c, (system (F := ℚ) loneClients lone.optimizer.placement.cache).Reachable c ∧
      ¬ RecordTrue lone.optimizer.placement.cache c := by
  have hrun : (Lts.exec (step loneClients)
      [.recalibrate, .next (.ok ()), .next (.ok ()), .migration 0 (.start 7), .migration 0 .timedOut]
      lone).any (migratedTo "edge-node-1" false) = true := by decide +kernel
  obtain ⟨c, hexec, hc⟩ := (Option.any_eq_true _ _).mp hrun
  refine ⟨c, Lts.reachable_of_exec ⟨rfl, rfl, rfl⟩ hexec, fun htrue => ?_⟩
  obtain ⟨hcache, hidle, htasks⟩ := of_decide_eq_true hc
  obtain ⟨t, ht, hop⟩ := List.map_eq_singleton_iff.mp htasks
  have hlast : LastMigration c.optimizer.migration.tasks "op" 0 t := by
    refine ⟨by rw [ht]; rfl, congrArg Prod.fst hop, fun j t' hj ht' => ?_⟩
    rw [ht, List.getElem?_singleton, if_neg (by omega)] at ht'
    exact absurd ht' (by simp)
  have hsource := (htrue "op" hidle).2 0 t hlast
  rw [hcache, show t.migration.completed = false from congrArg (fun r => r.2.2) hop,
    show t.migration.sourceTier = "edge-node-3" from congrArg (fun r => r.2.1) hop,
    if_neg (by decide)] at hsource
  exact absurd hsource (by decide)

end Controller

end Aode
end HybridStream
