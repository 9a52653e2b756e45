import HybridStream.Aode.Correctness.Capacity
import HybridStream.Aode.Correctness.StaleSource

/-!
# `Aode.Correctness.OperatorSet` — what a controller can come to move

Whatever is true of the candidates that the cycles find is true of every move that comes of them: of what a cycle has
still to start, of what waits for the lock, of the migrations that were started and of the record (`Moves`).

So a controller keeps the operators it began with. The one that `main.run` builds begins with none: it makes a
`PlacementState` and nobody calls `load_from_etcd`.
-/

namespace HybridStream
namespace Aode

open Lib Py PlacementOptimizer

variable {F : Type}

/-- A candidate moves between known tiers. -/
theorem candidateOf_known [PyRuntime F] {deltaH : F} {current optimal : Dict String String} {scores : Scores F}
    {ts : List String} {op : String} {i : Nat} {d : Candidate F}
    (h : candidateOf deltaH current optimal scores ts op i = some d) : d.sourceTier ∈ ts ∧ d.targetTier ∈ ts := by
  unfold candidateOf at h
  obtain ⟨source, -, h⟩ := Option.bind_eq_some_iff.mp h
  obtain ⟨target, -, h⟩ := Option.bind_eq_some_iff.mp h
  obtain ⟨-, h⟩ := Option.ite_none_left_eq_some.mp h
  obtain ⟨j, hj, h⟩ := Option.bind_eq_some_iff.mp h
  obtain ⟨k, hk, h⟩ := Option.bind_eq_some_iff.mp h
  obtain ⟨-, h⟩ := Option.ite_none_right_eq_some.mp h
  cases h
  exact ⟨List.isSome_idxOf?.mp (by rw [hj]; rfl), List.isSome_idxOf?.mp (by rw [hk]; rfl)⟩

namespace Cycles

/-! ## What the candidates have in common

A property of moves, carried from the candidates of a plan through the queue of a cycle and the lock to the record:
whatever all candidates have, everything that is started or recorded has. -/

/-- `P operator source target` holds of all moves that are under way or were made, and `initial` is what was on record
    before them. -/
structure Moves (P : String → String → String → Prop) (initial : Dict String String) (c : Cycles F) : Prop where
  keys     : c.optimizer.placement.cache.keys = initial.keys
  recorded : ∀ op tier, c.optimizer.placement.cache.get op = some tier →
               initial.get op = some tier ∨ ∃ source, P op source tier
  waiting  : ∀ w ∈ c.waiters, ∃ source, P w.opType source w.tier
  found    : ∀ cycle ∈ c.cycles, ∀ d ∈ cycle.candidates, P d.operatorType d.sourceTier d.targetTier
  started  : ∀ t ∈ c.optimizer.migration.tasks,
               P t.migration.operatorId t.migration.sourceTier t.migration.targetTier

section Moves

variable {P : String → String → String → Prop} {initial : Dict String String} {c c' : Cycles F} {clients : HeaClients}
  {a : CyclesStep F}

theorem Moves.of_initial (h : Initial initial c) : Moves P initial c := by
  obtain ⟨hmigration, hcycles, -, -, hwaiters, hcache⟩ := h
  constructor
  case keys => rw [hcache]
  case recorded => rw [hcache]; exact fun op tier hget => Or.inl hget
  case waiting => rw [hwaiters]; exact fun _ h => absurd h List.not_mem_nil
  case found => rw [hcycles]; exact fun _ h => absurd h List.not_mem_nil
  case started => rw [hmigration]; exact fun _ h => absurd h List.not_mem_nil

theorem Moves.size (h : Moves P initial c) : c.optimizer.placement.cache.size = initial.size := by
  have hlength := congrArg List.length h.keys
  unfold Dict.keys at hlength
  rwa [List.length_map, List.length_map] at hlength

/-- A target that is recorded. -/
theorem Moves.record (hkeys : ∀ op source target, P op source target → op ∈ initial.keys) (h : Moves P initial c)
    {k : Nat} {op tier : String} {put : Option (Except PyError Unit)} (hmove : ∃ source, P op source tier) :
    Moves P initial (c.record k op tier put) := by
  obtain ⟨source, hP⟩ := hmove
  obtain ⟨running, holder, heq⟩ := record_eq c k op tier put
  rw [heq]
  refine ⟨?_, ?_, h.waiting, h.found, h.started⟩
  · have hmem : op ∈ c.optimizer.placement.cache.keys := h.keys ▸ hkeys op source tier hP
    exact (Dict.keys_set_of_mem hmem tier).trans h.keys
  · intro op' tier' hget
    have hget : (c.optimizer.placement.cache.set op tier).get op' = some tier' := hget
    rw [Dict.get_set] at hget
    split at hget
    · rename_i hsame
      cases hget
      exact Or.inr ⟨source, hsame ▸ hP⟩
    · exact h.recorded op' tier' hget

/-- A candidate whose turn it is. -/
theorem Moves.startCandidate (hkeys : ∀ op source target, P op source target → op ∈ initial.keys)
    (h : Moves P initial c) {k : Nat} {d : Candidate F} {put : Option (Except PyError Unit)}
    (hP : P d.operatorType d.sourceTier d.targetTier) : Moves P initial (c.startCandidate k d put) := by
  unfold Cycles.startCandidate
  split
  · exact h
  · rename_i migrationId migration hstart
    obtain ⟨-, -, t, htasks, -, -, hop, hsource, htarget⟩ := PCTROrchestrator.migrateOperator_eq_ok hstart
    have hstarted : Moves P initial { c with optimizer := { c.optimizer with migration := migration } } := by
      refine ⟨h.keys, h.recorded, h.waiting, h.found, fun t' ht' => ?_⟩
      have ht' : t' ∈ migration.tasks := ht'
      rw [htasks] at ht'
      rcases List.mem_append.mp ht' with hold | hnew
      · exact h.started t' hold
      · rw [List.mem_singleton.mp hnew, hop, hsource, htarget]
        exact hP
    dsimp only
    split
    · exact hstarted.record hkeys ⟨d.sourceTier, hP⟩
    · refine ⟨hstarted.keys, hstarted.recorded, fun w hw => ?_, hstarted.found, hstarted.started⟩
      rcases List.mem_append.mp hw with hold | hnew
      · exact h.waiting w hold
      · rw [List.mem_singleton.mp hnew]
        exact ⟨d.sourceTier, hP⟩

/-- One turn of a cycle. -/
theorem Moves.takeTurn (hkeys : ∀ op source target, P op source target → op ∈ initial.keys) (h : Moves P initial c)
    {put : Option (Except PyError Unit)} (hstep : c.takeTurn put = some c') : Moves P initial c' := by
  obtain ⟨k, -, hstep⟩ := Option.bind_eq_some_iff.mp hstep
  obtain ⟨cycle, hcycle, hstep⟩ := Option.bind_eq_some_iff.mp hstep
  have hfound := h.found cycle (List.mem_of_getElem? hcycle)
  split at hstep
  · cases hstep
    exact ⟨h.keys, h.recorded, h.waiting, h.found, h.started⟩
  · rename_i d rest hcandidates
    cases hstep
    rw [hcandidates] at hfound
    have hleft : Moves P initial { c with cycles := c.cycles.set k { cycle with candidates := rest } } := by
      refine ⟨h.keys, h.recorded, h.waiting, fun cycle' hcycle' => ?_, h.started⟩
      rcases List.mem_or_eq_of_mem_set hcycle' with hold | rfl
      · exact h.found cycle' hold
      · exact fun d' hd' => hfound d' (List.mem_cons_of_mem d hd')
    exact hleft.startCandidate hkeys (hfound d List.mem_cons_self)

/-- **Every step keeps what the candidates have in common**, where the candidates that are found now have it. -/
theorem Moves.step [PyRuntime F] (hkeys : ∀ op source target, P op source target → op ∈ initial.keys)
    (hP : ∀ cs, c.optimizer.candidates = .ok (some cs) → ∀ d ∈ cs, P d.operatorType d.sourceTier d.targetTier)
    (h : Moves P initial c) (hstep : step clients c a = some c') : Moves P initial c' := by
  cases a with
  | turn put => exact h.takeTurn hkeys hstep
  | collect telemetry =>
      obtain ⟨-, hc⟩ := Option.ite_none_left_eq_some.mp hstep
      cases hc
      exact ⟨h.keys, h.recorded, h.waiting, h.found, h.started⟩
  | setWeights presetName =>
      obtain ⟨-, hc⟩ := Option.ite_none_left_eq_some.mp hstep
      split at hc <;> cases hc <;> exact ⟨h.keys, h.recorded, h.waiting, h.found, h.started⟩
  | migration task event =>
      obtain ⟨-, hc⟩ := Option.ite_none_left_eq_some.mp hstep
      obtain ⟨migration, hmigration, hc⟩ := Option.bind_eq_some_iff.mp hc
      cases hc
      obtain ⟨t, t', rpc, hi, hres, htasks, -⟩ := PCTROrchestrator.stepTask_eq_some hmigration
      refine ⟨h.keys, h.recorded, h.waiting, h.found, fun u hu => ?_⟩
      have hu : u ∈ migration.tasks := hu
      -- only the task that goes on is another one afterwards
      rw [htasks] at hu
      rcases List.mem_or_eq_of_mem_set hu with hold | rfl
      · exact h.started u hold
      · -- a task keeps its route
        have hroute := MigrationTask.step_route hres
        have hwas := h.started t (List.mem_of_getElem? hi)
        unfold PCTRMigration.route at hroute
        obtain ⟨hop, hroute⟩ := Prod.mk.inj hroute
        obtain ⟨hsource, htarget⟩ := Prod.mk.inj hroute
        rw [hop, hsource, htarget]
        exact hwas
  | recalibrate =>
      obtain ⟨-, hc⟩ := Option.ite_none_left_eq_some.mp hstep
      split at hc
      · rename_i cs hcandidates
        cases hc
        refine ⟨h.keys, h.recorded, h.waiting, fun cycle hcycle => ?_, h.started⟩
        -- what the cycle has found is what the hypothesis is about
        rcases List.mem_append.mp hcycle with hold | hnew
        · exact h.found cycle hold
        · rw [List.mem_singleton.mp hnew]
          exact hP cs hcandidates
      · cases hc
        exact h
  | acquire put =>
      obtain ⟨-, hc⟩ := Option.ite_none_left_eq_some.mp hstep
      split at hc
      · cases hc
      · rename_i w waiters hwaiters
        cases hc
        -- the first of those waiting writes to the record what it was started for
        have hwaiting := h.waiting
        rw [hwaiters] at hwaiting
        have hleft : Moves P initial { c with waiters := waiters } :=
          ⟨h.keys, h.recorded, fun w' hw' => hwaiting w' (List.mem_cons_of_mem w hw'), h.found, h.started⟩
        exact hleft.record hkeys (hwaiting w List.mem_cons_self)
  | putEnds put =>
      obtain ⟨-, hc⟩ := Option.ite_none_left_eq_some.mp hstep
      split at hc
      · cases hc
      · cases hc
        exact ⟨h.keys, h.recorded, h.waiting, h.found, h.started⟩

end Moves

/-! ## The operators

The property that each move is of an operator on record and between known tiers. So nothing is added to the record,
nothing is dropped from it, and no migration is started for anybody else. -/

/-- A move of an operator on record between two known tiers. -/
def WithinSystem (initial : Dict String String) (op source target : String) : Prop :=
  op ∈ initial.keys ∧ source ≠ target ∧ source ∈ tiers ∧ target ∈ tiers

theorem within_of_candidates [PyRuntime F] {initial : Dict String String} {c : Cycles F}
    (h : c.optimizer.placement.cache.keys = initial.keys) {cs : List (Candidate F)}
    (hcandidates : c.optimizer.candidates = .ok (some cs)) {d : Candidate F} (hd : d ∈ cs) :
    WithinSystem initial d.operatorType d.sourceTier d.targetTier := by
  rcases candidates_eq_ok hcandidates with ⟨habsurd, -⟩ | ⟨scores, optimal, -, hcs⟩
  · cases habsurd
  · cases hcs
    obtain ⟨i, hmem, hcand⟩ := mem_identifyMigrationCandidates.mp hd
    obtain ⟨-, -, -, hne⟩ := candidateOf_eq_some hcand
    exact ⟨h ▸ List.mem_of_getElem? hmem, hne, candidateOf_known hcand⟩

theorem moves_within [PyRuntime F] {clients : HeaClients} {initial : Dict String String} {c : Cycles F}
    (h : (system clients initial).Reachable c) : Moves (WithinSystem initial) initial c :=
  h.invariant (fun _ => Moves.of_initial) fun _ _ _ hs hstep =>
    hs.step (fun _ _ _ hP => hP.1) (fun _ hcs _ hd => within_of_candidates hs.keys hcs hd) hstep

/-- **A controller keeps the operators it began with**, and moves no other one: whatever its cycles, its migrations and
    the telemetry do, the record lists the operators it listed, each where it was or on a known tier, and every
    migration is of one of them, between two known tiers. One that begins without operators starts no migration. `Moves`
    carries through the run what holds of the candidates of every cycle: they are operators on record, and their targets
    tiers of the table. -/
theorem operators_kept [PyRuntime F] {clients : HeaClients} {initial : Dict String String} {c : Cycles F}
    (h : (system clients initial).Reachable c) :
    c.optimizer.placement.cache.keys = initial.keys ∧
      (∀ op tier, c.optimizer.placement.cache.get op = some tier → initial.get op = some tier ∨ tier ∈ tiers) ∧
      (∀ t ∈ c.optimizer.migration.tasks, t.migration.operatorId ∈ initial.keys ∧
        t.migration.sourceTier ≠ t.migration.targetTier ∧ t.migration.sourceTier ∈ tiers ∧
        t.migration.targetTier ∈ tiers) ∧
      (initial = ∅ → c.optimizer.migration.tasks = []) := by
  have hmoves := moves_within h
  refine ⟨hmoves.keys, fun op tier hget => ?_, hmoves.started, fun hnone => ?_⟩
  · rcases hmoves.recorded op tier hget with hinitial | ⟨source, hP⟩
    · exact Or.inl hinitial
    · exact Or.inr hP.2.2.2
  · refine List.eq_nil_iff_forall_not_mem.mpr fun t ht => ?_
    have hmem := (hmoves.started t ht).1
    rw [hnone] at hmem
    cases hmem

/-- Two operators, one of which is being migrated. -/
theorem operators_kept_pair : ∃ c : Cycles ℚ,
    (system Controller.loneClients pair.optimizer.placement.cache).Reachable c ∧
    c.optimizer.migration.tasks.length = 1 ∧
    c.optimizer.placement.cache.keys = pair.optimizer.placement.cache.keys := by
  have hrun : (Lts.exec (step Controller.loneClients) [.recalibrate, .turn none] pair).map
      (fun c => c.optimizer.migration.tasks.length) = some 1 := by decide +kernel
  obtain ⟨c, hc, hlength⟩ := Option.map_eq_some_iff.mp hrun
  have hreach := Lts.reachable_of_exec initial_pair hc
  exact ⟨c, hreach, hlength, (operators_kept hreach).1⟩

end Cycles
end Aode
end HybridStream
