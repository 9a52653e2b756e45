import HybridStream.Aode.Correctness.PlacementTruth
import HybridStream.Aode.Cycles
import Mathlib.Data.List.Induction

/-!
# `Aode.Correctness.StaleSource` — whether a migration starts from where the operator is

A cycle copies the placement, plans, and comes to its candidates one by one, suspended in between while other
cycles move operators. Whatever the interleaving, the record, with the writes still waiting for the lock, names
the target of every operator's last migration (`Inv.recorded`). What a candidate says is therefore true of a
migration that was on record when its cycle read, and it is still true when the candidate's turn comes if no
later migration of the operator was accepted meanwhile and that one has completed (`UpToDate`). Then the source
is the operator's tier (`sources_current`).
-/

namespace HybridStream
namespace Aode

open Lib Py

/-! ## Where an operator is

The tier it occupies, by its completed migrations in their order: the record may already name the tier that it is on
its way to. -/

/-- The tier an operator occupies: the target of its last completed migration, or its initial tier. The
    migrations of one operator follow each other, so the last one completed is the last one created. -/
def occupiedTier (initial : Dict String String) (tasks : List MigrationTask) (op : String) : Option String :=
  match tasks.reverse.find? (fun t => t.migration.operatorId = op && t.migration.completed) with
  | some t => some t.migration.targetTier
  | none   => initial.get op

section OccupiedTier

variable {initial : Dict String String} {tasks : List MigrationTask} {op : String} {i : Nat} {t : MigrationTask}

theorem occupiedTier_append (tasks : List MigrationTask) (t : MigrationTask) :
    occupiedTier initial (tasks ++ [t]) op =
      if t.migration.operatorId = op ∧ t.migration.completed = true then some t.migration.targetTier
      else occupiedTier initial tasks op := by
  unfold occupiedTier
  rw [List.reverse_append, List.reverse_singleton, List.singleton_append]
  by_cases h : t.migration.operatorId = op ∧ t.migration.completed = true
  · rw [List.find?_cons_of_pos (by simp [h]), if_pos h]
  · rw [List.find?_cons_of_neg (by simpa using h), if_neg h]

/-- An operator that was never migrated is on its initial tier. -/
theorem occupiedTier_of_none (h : ∀ t ∈ tasks, t.migration.operatorId ≠ op) :
    occupiedTier initial tasks op = initial.get op := by
  induction tasks using List.reverseRecOn with
  | nil => rfl
  | append_singleton tasks t ih =>
      rw [occupiedTier_append, if_neg (fun hop => h t (by simp) hop.1)]
      exact ih fun u hu => h u (List.mem_append_left _ hu)

/-- One whose last migration has completed is on its target. -/
theorem occupiedTier_of_last (h : LastMigration tasks op i t) (hcompleted : t.migration.completed = true) :
    occupiedTier initial tasks op = some t.migration.targetTier := by
  induction tasks using List.reverseRecOn with
  | nil => exact absurd h.1 (by simp)
  | append_singleton tasks u ih =>
      rw [lastMigration_append] at h
      rw [occupiedTier_append]
      split at h
      · rename_i hop
        obtain ⟨-, rfl⟩ := h
        rw [if_pos ⟨hop, hcompleted⟩]
      · rename_i hop
        rw [if_neg (fun hu => hop hu.1)]
        exact ih h

/-- Either an operator was never migrated, or it has a last migration. -/
theorem exists_lastMigration (tasks : List MigrationTask) (op : String) :
    (∀ t ∈ tasks, t.migration.operatorId ≠ op) ∨ ∃ i t, LastMigration tasks op i t := by
  induction tasks using List.reverseRecOn with
  | nil => exact Or.inl fun t ht => absurd ht List.not_mem_nil
  | append_singleton tasks u ih =>
      by_cases hop : u.migration.operatorId = op
      · exact Or.inr ⟨tasks.length, u, lastMigration_append.mpr (by rw [if_pos hop]; exact ⟨rfl, rfl⟩)⟩
      · rcases ih with hnone | ⟨i, t, hlast⟩
        · refine Or.inl fun t ht => ?_
          rcases List.mem_append.mp ht with hold | hnew
          · exact hnone t hold
          · rw [List.mem_singleton.mp hnew]
            exact hop
        · exact Or.inr ⟨i, t, lastMigration_append.mpr (by rw [if_neg hop]; exact hlast)⟩

end OccupiedTier

namespace Cycles

variable {F : Type} {clients : HeaClients} {initial : Dict String String} {c c' : Cycles F} {a : CyclesStep F}
  {cycle : Cycle F} {d : Candidate F}

/-! ## The condition and the invariant

A cycle reads the placement once and starts migrations for a while. What it knows of an operator is up to date if that
operator's last start was on record by then and nobody has started it since; the invariant says what a candidate's
source is in either case. -/

/-- What the cycle knows of the operator is up to date: when it read the placement no start of a migration of
    the operator was still to be recorded; none has been accepted since; and the last one has completed. -/
def UpToDate (c : Cycles F) (cycle : Cycle F) (op : String) : Prop :=
  op ∉ cycle.unrecorded ∧ ∀ i t, LastMigration c.optimizer.migration.tasks op i t →
    i < cycle.started ∧ t.migration.completed = true

/-- The step starts a migration only where the cycle is up to date about the operator. -/
def StartsUpToDate (c : Cycles F) (a : CyclesStep F) : Prop :=
  ∀ cycle d, c.accepting a = some (cycle, d) → UpToDate c cycle d.operatorType

/-- What a candidate's source is: if the operator's start was on record when the cycle read, and it was not
    accepted later, the target of the last migration, or the initial tier. -/
def SourceKnown (initial : Dict String String) (tasks : List MigrationTask) (cycle : Cycle F) (d : Candidate F) :
    Prop :=
  d.operatorType ∉ cycle.unrecorded →
    ((∀ t ∈ tasks, t.migration.operatorId ≠ d.operatorType) → initial.get d.operatorType = some d.sourceTier) ∧
    ∀ i t, LastMigration tasks d.operatorType i t → i < cycle.started → t.migration.targetTier = d.sourceTier

/-- The invariant of the runs. -/
structure Inv (initial : Dict String String) (c : Cycles F) : Prop where
  recorded : Controller.Recorded initial c.view c.optimizer.migration
  started  : ∀ cycle ∈ c.cycles, cycle.started ≤ c.optimizer.migration.tasks.length
  distinct : ∀ cycle ∈ c.cycles, ∀ d ∈ cycle.candidates, d.sourceTier ≠ d.targetTier
  known    : ∀ cycle ∈ c.cycles, ∀ d ∈ cycle.candidates,
               SourceKnown initial c.optimizer.migration.tasks cycle d

/-- A candidate that was found now. -/
theorem sourceKnown_of_candidates [PyRuntime F] {cs : List (Candidate F)} (h : Inv initial c)
    (hcandidates : c.optimizer.candidates = .ok (some cs)) (hd : d ∈ cs)
    (hunrecorded : cycle.unrecorded = c.unrecorded) :
    d.sourceTier ≠ d.targetTier ∧ SourceKnown initial c.optimizer.migration.tasks cycle d := by
  rcases PlacementOptimizer.candidates_eq_ok hcandidates with ⟨habsurd, -⟩ | ⟨scores, optimal, -, hcs⟩
  · cases habsurd
  · cases hcs
    obtain ⟨i, -, hcand⟩ := mem_identifyMigrationCandidates.mp hd
    obtain ⟨-, hsource, -, hne⟩ := candidateOf_eq_some hcand
    refine ⟨hne, fun hrecorded => ?_⟩
    -- the source is read off the record, which has no start of the operator still to come
    have hview : c.view.get d.operatorType = some d.sourceTier := by
      rw [← hsource]
      apply Dict.get_update_of_not_mem
      rw [hunrecorded] at hrecorded
      rw [List.map_map]
      exact hrecorded
    refine ⟨fun hnone => (h.recorded.untouched _ hnone).symm.trans hview, fun j t hlast _ => ?_⟩
    exact Option.some.inj ((h.recorded.target _ j t hlast).1.symm.trans hview)

/-! ## Steps

Tasks that move on keep their operator and their target, and a start is later than what any cycle has read. So the
knowledge of the cycles only ages by starts. -/

/-- A migration that is accepted now is later than everything a cycle has read. -/
theorem SourceKnown.append {tasks : List MigrationTask} (h : SourceKnown initial tasks cycle d)
    (hstarted : cycle.started ≤ tasks.length) (t : MigrationTask) : SourceKnown initial (tasks ++ [t]) cycle d := by
  intro hrecorded
  obtain ⟨hinitial, htarget⟩ := h hrecorded
  refine ⟨fun hnone => hinitial fun u hu => hnone u (List.mem_append_left _ hu), fun i u hlast hi => ?_⟩
  rw [lastMigration_append] at hlast
  split at hlast
  · -- the new migration is none the cycle has read of
    omega
  · exact htarget i u hlast hi

/-- A task that moves on keeps its target. -/
theorem SourceKnown.set {tasks : List MigrationTask} {i : Nat} {t t' : MigrationTask}
    (h : SourceKnown initial tasks cycle d) (hi : tasks[i]? = some t)
    (hroute : t'.migration.route = t.migration.route) : SourceKnown initial (tasks.set i t') cycle d := by
  have hop : t'.migration.operatorId = t.migration.operatorId := congrArg Prod.fst hroute
  intro hrecorded
  obtain ⟨hinitial, htarget⟩ := h hrecorded
  refine ⟨fun hnone => hinitial (never_migrated_set hi hop hnone), fun j u hlast hj => ?_⟩
  obtain ⟨v, hwas, rfl⟩ := (lastMigration_set hi hop).mp hlast
  have hv := htarget j v hwas hj
  split
  · rename_i hji
    rw [hji] at hwas
    have hvt : v = t := Option.some.inj (hwas.1.symm.trans hi)
    rw [hvt] at hv
    exact (congrArg (fun r => r.2.2) hroute).trans hv
  · exact hv

/-- **Every step keeps what the cycles know.** -/
theorem inv_step [PyRuntime F] (h : Inv initial c) (hstep : step clients c a = some c') : Inv initial c' := by
  obtain ⟨hdescends, hcases⟩ := step_cases hstep
  -- What is known of the old tasks, of the cycles there are now.
  have hold : ∀ cycle ∈ c'.cycles, cycle.started ≤ c.optimizer.migration.tasks.length ∧
      ∀ d ∈ cycle.candidates, d.sourceTier ≠ d.targetTier ∧
        SourceKnown initial c.optimizer.migration.tasks cycle d := by
    intro cycle' hcycle'
    rcases hdescends cycle' hcycle' with ⟨cycle, hcycle, hsub, hstarted, hunrecorded⟩ |
      ⟨hcandidates, hstarted, hunrecorded⟩
    · -- a cycle there was, with fewer candidates to go
      refine ⟨hstarted ▸ h.started cycle hcycle, fun d hd => ⟨h.distinct cycle hcycle d (hsub hd), ?_⟩⟩
      intro hrecorded
      rw [hunrecorded] at hrecorded
      rw [hstarted]
      exact h.known cycle hcycle d (hsub hd) hrecorded
    · -- a cycle that reads the placement now
      exact ⟨le_of_eq hstarted, fun d hd => sourceKnown_of_candidates h hcandidates hd hunrecorded⟩
  rcases hcases with ⟨-, -, hmigration, hview⟩ | ⟨cycle, d, migrationId, -, hcycle, hd, hstart, hview⟩ |
    ⟨task, event, -, hresume, hview⟩
  · constructor
    case recorded => rw [hmigration, hview]; exact h.recorded
    case started => rw [hmigration]; exact fun cycle hcycle => (hold cycle hcycle).1
    case distinct => exact fun cycle hcycle d hd => ((hold cycle hcycle).2 d hd).1
    case known => rw [hmigration]; exact fun cycle hcycle d hd => ((hold cycle hcycle).2 d hd).2
  · -- `d`'s migration is accepted: its task is the newest
    obtain ⟨-, -, t, htasks, -⟩ := PCTROrchestrator.migrateOperator_eq_ok hstart
    constructor
    case recorded =>
      rw [hview]
      exact h.recorded.start (h.distinct cycle hcycle d hd) hstart
    case started =>
      intro cycle' hcycle'
      rw [htasks, List.length_append]
      exact Nat.le_add_right_of_le (hold cycle' hcycle').1
    case distinct => exact fun cycle hcycle d hd => ((hold cycle hcycle).2 d hd).1
    case known =>
      intro cycle' hcycle' d' hd'
      rw [htasks]
      exact ((hold cycle' hcycle').2 d' hd').2.append (hold cycle' hcycle').1 t
  · -- a task moves on
    obtain ⟨t, t', rpc, hi, hres, htasks, -⟩ := PCTROrchestrator.stepTask_eq_some hresume
    constructor
    case recorded => rw [hview]; exact h.recorded.resume hresume
    case started =>
      intro cycle' hcycle'
      rw [htasks, List.length_set]
      exact (hold cycle' hcycle').1
    case distinct => exact fun cycle hcycle d hd => ((hold cycle hcycle).2 d hd).1
    case known =>
      intro cycle' hcycle' d' hd'
      rw [htasks]
      exact ((hold cycle' hcycle').2 d' hd').2.set hi (MigrationTask.step_route hres)

theorem inv_initial (h : Initial initial c) : Inv initial c := by
  obtain ⟨hmigration, hcycles, -, -, hwaiters, hcache⟩ := h
  have hview : c.view = initial := by
    unfold view
    rw [hwaiters, hcache]
    rfl
  constructor
  case recorded =>
    rw [hmigration, hview]
    exact Controller.recorded_new initial
  case started => rw [hcycles]; exact fun _ h => absurd h List.not_mem_nil
  case distinct => rw [hcycles]; exact fun _ h => absurd h List.not_mem_nil
  case known => rw [hcycles]; exact fun _ h => absurd h List.not_mem_nil

theorem inv_reachable [PyRuntime F] (h : (system clients initial).Reachable c) : Inv initial c :=
  h.invariant (fun _ => inv_initial) (fun _ _ _ => inv_step)

/-- The migration a step is about to start is that of a candidate of a cycle. -/
theorem mem_of_accepting (h : c.accepting a = some (cycle, d)) : cycle ∈ c.cycles ∧ d ∈ cycle.candidates := by
  cases a with
  | turn put =>
      obtain ⟨k, -, h⟩ := Option.bind_eq_some_iff.mp h
      obtain ⟨cycle', hcycle, h⟩ := Option.bind_eq_some_iff.mp h
      obtain ⟨d', hd, h⟩ := Option.bind_eq_some_iff.mp h
      obtain ⟨-, h⟩ := Option.ite_none_left_eq_some.mp h
      cases h
      exact ⟨List.mem_of_getElem? hcycle, List.mem_of_mem_head? hd⟩
  | collect | setWeights | migration | recalibrate | acquire | putEnds => cases h

/-- A cycle that is up to date about an operator has its tier right, whatever other cycles and migrations have
    done since it read the placement. -/
theorem source_of_upToDate [PyRuntime F] (h : (system clients initial).Reachable c)
    (haccepting : c.accepting a = some (cycle, d))
    (huptodate : UpToDate c cycle d.operatorType) :
    occupiedTier initial c.optimizer.migration.tasks d.operatorType = some d.sourceTier := by
  obtain ⟨hcycle, hd⟩ := mem_of_accepting haccepting
  obtain ⟨hrecorded, hlasts⟩ := huptodate
  obtain ⟨hinitial, htarget⟩ := (inv_reachable h).known cycle hcycle d hd hrecorded
  rcases exists_lastMigration c.optimizer.migration.tasks d.operatorType with hnone | ⟨i, t, hlast⟩
  · -- never migrated: it stands where it was created
    rw [occupiedTier_of_none hnone]
    exact hinitial hnone
  · -- its last migration completed, and the cycle has read of it
    obtain ⟨hi, hcompleted⟩ := hlasts i t hlast
    rw [occupiedTier_of_last hlast hcompleted, htarget i t hlast hi]

/-- What a step is about to start, `migrate_operator` accepts. -/
theorem accepted_of_accepting [PyRuntime F] (hstep : step clients c a = some c')
    (haccepting : c.accepting a = some (cycle, d)) :
    ∃ migrationId, c.optimizer.migration.migrateOperator d.operatorType d.sourceTier d.targetTier =
      .ok (migrationId, c'.optimizer.migration) := by
  rcases (step_cases hstep).2 with ⟨hnone, -⟩ | ⟨cycle', d', migrationId, hsome, -, -, hstart, -⟩ |
    ⟨task, event, rfl, -⟩
  · rw [hnone] at haccepting
    cases haccepting
  · rw [hsome] at haccepting
    cases haccepting
    exact ⟨migrationId, hstart⟩
  · cases haccepting

/-- **No migration starts from a stale source in a run whose cycles start migrations only of operators they are up to
    date about.** The record names the target of every operator's last migration; a candidate copied it when its cycle
    read, and it is still the operator's tier if none was accepted since and that one has completed. -/
theorem sources_current [PyRuntime F] (h : ((system clients initial).restrict StartsUpToDate).Reachable c)
    (hstep : ((system clients initial).restrict StartsUpToDate).step c a c')
    (haccepting : c.accepting a = some (cycle, d)) :
    (∃ migrationId, c.optimizer.migration.migrateOperator d.operatorType d.sourceTier d.targetTier =
      .ok (migrationId, c'.optimizer.migration)) ∧
    occupiedTier initial c.optimizer.migration.tasks d.operatorType = some d.sourceTier :=
  ⟨accepted_of_accepting hstep.1 haccepting,
    source_of_upToDate (.of_restrict h) haccepting (hstep.2 cycle d haccepting)⟩

/-! ### Two operators that are both to move

Two cycles at once: the second one moves an operator while the first waits, and the first then starts it again from
where it was. -/

/-- Two operators on a tier nobody reaches, and a free one that is near. -/
def pair : Cycles ℚ where
  optimizer :=
    { Controller.lone.optimizer with
      placement := ⟨Dict.ofList [("op-1", "edge-node-3"), ("op-2", "edge-node-3")]⟩ }
  cycles  := []
  running := none
  holder  := none
  waiters := []

theorem initial_pair : Initial pair.optimizer.placement.cache pair := ⟨rfl, rfl, rfl, rfl, rfl, rfl⟩

/-- The first cycle starts the move of `op-1` from where it is. -/
theorem sources_current_pair : ∃ c c' : Cycles ℚ, ∃ cycle d,
    step Controller.loneClients pair .recalibrate = some c ∧
    step Controller.loneClients c (.turn none) = some c' ∧ c.accepting (.turn none) = some (cycle, d) ∧
    occupiedTier pair.optimizer.placement.cache c.optimizer.migration.tasks d.operatorType = some d.sourceTier := by
  have hrun : ((step Controller.loneClients pair .recalibrate).bind fun c =>
      (step Controller.loneClients c (.turn none)).bind fun _ =>
        (c.accepting (.turn none)).map fun x =>
          (x.1.unrecorded, c.optimizer.migration.tasks.length)) = some ([], 0) := by decide +kernel
  obtain ⟨c, hc, hrun⟩ := Option.bind_eq_some_iff.mp hrun
  obtain ⟨c', hc', hrun⟩ := Option.bind_eq_some_iff.mp hrun
  obtain ⟨⟨cycle, d⟩, haccepting, hd⟩ := Option.map_eq_some_iff.mp hrun
  obtain ⟨hunrecorded, htasks⟩ := Prod.mk.inj hd
  have hguard : StartsUpToDate c (.turn none) := by
    intro cycle' d' haccepting'
    rw [haccepting] at haccepting'
    cases haccepting'
    refine ⟨by rw [show cycle.unrecorded = [] from hunrecorded]; exact List.not_mem_nil, fun i t hlast => ?_⟩
    have hget := hlast.1
    rw [List.length_eq_zero_iff.mp htasks] at hget
    cases hget
  have hreach : ((system Controller.loneClients pair.optimizer.placement.cache).restrict StartsUpToDate).Reachable c :=
    .tail (.of_init initial_pair) ⟨hc, fun _ _ h => by cases h⟩
  exact ⟨c, c', cycle, d, hc, hc', haccepting, (sources_current hreach ⟨hc', hguard⟩ haccepting).2⟩

/-- While the first cycle waits for `etcd.put` after starting the move of `op-1`, a second one starts the move
    of `op-2`, which completes. Then the first one comes to `op-2` and is about to start the same move. -/
def staleRun : List (CyclesStep ℚ) :=
  [ .recalibrate, .turn none, .recalibrate, .turn none,
    .migration 1 (.start 7), .migration 1 (.returned (.drain ⟨some ∅⟩) 7),
    .migration 1 (.returned (.snapshot ⟨"op-2/7/snapshot.msgpack", 64, ""⟩) 7),
    .migration 1 (.returned (.restore ⟨true, "", ""⟩) 7), .migration 1 (.returned (.terminate ⟨true, ""⟩) 7),
    .putEnds (.ok ()) ]

/-- The migration it starts has a stale source. -/
theorem stale_source_accepted : ∃ c c' : Cycles ℚ, ∃ d : Candidate ℚ,
    (system Controller.loneClients pair.optimizer.placement.cache).Reachable c ∧
    step Controller.loneClients c (.turn none) = some c' ∧
    (∃ migrationId, c.optimizer.migration.migrateOperator d.operatorType d.sourceTier d.targetTier =
      .ok (migrationId, c'.optimizer.migration)) ∧
    occupiedTier pair.optimizer.placement.cache c.optimizer.migration.tasks d.operatorType ≠ some d.sourceTier := by
  have hrun : ((Lts.exec (step Controller.loneClients) staleRun pair).bind fun c =>
      (step Controller.loneClients c (.turn none)).bind fun _ =>
        (c.accepting (.turn none)).map fun x => decide
          (occupiedTier pair.optimizer.placement.cache c.optimizer.migration.tasks x.2.operatorType ≠
            some x.2.sourceTier)) = some true := by decide +kernel
  obtain ⟨c, hc, hrun⟩ := Option.bind_eq_some_iff.mp hrun
  obtain ⟨c', hc', hrun⟩ := Option.bind_eq_some_iff.mp hrun
  obtain ⟨⟨cycle, d⟩, haccepting, hd⟩ := Option.map_eq_some_iff.mp hrun
  exact ⟨c, c', d, Lts.reachable_of_exec initial_pair hc, hc', accepted_of_accepting hc' haccepting,
    of_decide_eq_true hd⟩

end Cycles

end Aode
end HybridStream
