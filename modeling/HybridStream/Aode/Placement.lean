import HybridStream.Aode.Pctr
import HybridStream.Aode.Scoring
import HybridStream.Lib.Proc

/-!
# `Aode.Placement` — the recorded placement and the recalibration cycle

`aode/placement/state.py` and `aode/placement/optimizer.py`. A cycle plans an optimal placement for all
operators at once, keeps the moves that improve an operator's score by at least `delta_h`, and starts them
one after the other; starting a move also records its target.

The record is a cache that is written before the store and read by the cycles; what a client that raises leaves behind
is decided here. `plan`, `candidates` and `startCandidates` are the three parts of a cycle, so that the interleaved
models (`Aode.Controller`, `Aode.Cycles`) can suspend it between them.
-/

namespace HybridStream
namespace Aode

open Lib Py

variable {F : Type} [PyRuntime F]

/-! ## `PlacementState`

The record of which tier each operator is on, as a cache over etcd that is written first and not taken back when the
client raises. -/

/-- `PlacementState`: the record of which tier an operator is on. -/
structure PlacementState where
  cache : Dict String String

namespace PlacementState

/-- `update_operator_placement`; `put` is how `etcd.put` ends. The cache is written first. -/
def updateOperatorPlacement (s : PlacementState) (operatorType tierId : String) (put : Except PyError Unit) :
    Except PyError Unit × PlacementState :=
  (put, { s with cache := s.cache.set operatorType tierId })

/-- `remove_operator`; `delete` is how `etcd.delete` ends. The cache is written first. -/
def removeOperator (s : PlacementState) (operatorType : String) (delete : Except PyError Unit) :
    Except PyError Unit × PlacementState :=
  (delete, { s with cache := s.cache.pop operatorType })

/-- `load_from_etcd`; `placementData` is how `etcd.get_dict` ends. -/
def loadFromEtcd (s : PlacementState) (placementData : Except PyError (Dict String String)) :
    Except PyError Unit × PlacementState :=
  match placementData with
  | .ok data => (.ok (), { s with cache := s.cache.update data.entries })
  | .error e => (.error e, s)

/-- `get_current_placement`: the record as it is, of which the caller makes a copy or not. -/
def getCurrentPlacement (s : PlacementState) : Dict String String := s.cache

/-- `get_slo_map`: the objectives by operator type, where there is one. -/
def getSloMap : Dict String (Option F) :=
  Dict.ofList
    [ ("VehicleDetector",    some 2000.0),
      ("ZoneAggregator",     none),
      ("PatternDetector",    none),
      ("RiskCheck",          some 1.0),
      ("AnomalyDetector",    some 5.0),
      ("StatAggregator",     none),
      ("ComplianceLogger",   none),
      ("NormalizerOperator", some 5.0),
      ("FeatureAggWindow",   some 5.0),
      ("MultiStreamJoin",    some 5.0),
      ("BinaryClassifier",   some 5.0) ]

/-- `get_lambda_map`: how critical each operator type is. -/
def getLambdaMap : Dict String String :=
  Dict.ofList
    [ ("VehicleDetector",    "standard"),
      ("ZoneAggregator",     "batch"),
      ("PatternDetector",    "standard"),
      ("RiskCheck",          "critical"),
      ("AnomalyDetector",    "critical"),
      ("StatAggregator",     "batch"),
      ("ComplianceLogger",   "batch"),
      ("NormalizerOperator", "standard"),
      ("FeatureAggWindow",   "standard"),
      ("MultiStreamJoin",    "standard"),
      ("BinaryClassifier",   "critical") ]

/-- `get_tier_capacities`: how many operators each tier has places for. -/
def getTierCapacities : Dict String Nat :=
  Dict.ofList [("edge-node-1", 5), ("edge-node-2", 5), ("edge-node-3", 5), ("edge-node-4", 5), ("cloud", 100)]

/-- `get_available_tiers`: the tiers that have capacities. -/
def getAvailableTiers : List String := getTierCapacities.keys

end PlacementState

/-! ## Migration candidates

The moves of a plan that improve the score of their operator by at least `delta_h`, best first. -/

/-- An entry of the list `_identify_migration_candidates` returns. -/
structure Candidate (F : Type) where
  operatorType     : String
  sourceTier       : String
  targetTier       : String
  scoreImprovement : F

/-- Whether the planned move of an operator is a candidate; `i` is its row in the scores. -/
def candidateOf (deltaH : F) (currentPlacement optimalPlacement : Dict String String) (scores : Scores F)
    (tiers : List String) (opType : String) (i : Nat) : Option (Candidate F) := do
  let currentTier ← currentPlacement.get opType
  let optimalTier ← optimalPlacement.get opType
  if currentTier = "" ∨ optimalTier = "" ∨ currentTier = optimalTier then none
  else do
    let currentTierIdx ← tiers.idxOf? currentTier
    let optimalTierIdx ← tiers.idxOf? optimalTier
    let scoreImprovement := scores.entry i currentTierIdx - scores.entry i optimalTierIdx
    if PyRuntime.le deltaH scoreImprovement then some ⟨opType, currentTier, optimalTier, scoreImprovement⟩
    else none

/-- What a candidate says: where the operator is, where the plan has it, and that these differ. -/
theorem candidateOf_eq_some {deltaH : F} {current optimal : Dict String String} {scores : Scores F}
    {tiers : List String} {opType : String} {i : Nat} {c : Candidate F}
    (h : candidateOf deltaH current optimal scores tiers opType i = some c) :
    c.operatorType = opType ∧ current.get opType = some c.sourceTier ∧
      optimal.get opType = some c.targetTier ∧ c.sourceTier ≠ c.targetTier := by
  unfold candidateOf at h
  obtain ⟨source, hsource, h⟩ := Option.bind_eq_some_iff.mp h
  obtain ⟨target, htarget, h⟩ := Option.bind_eq_some_iff.mp h
  by_cases hne : source = "" ∨ target = "" ∨ source = target
  · rw [if_pos hne] at h
    exact absurd h (by simp)
  · rw [if_neg hne] at h
    obtain ⟨j, -, h⟩ := Option.bind_eq_some_iff.mp h
    obtain ⟨k, -, h⟩ := Option.bind_eq_some_iff.mp h
    dsimp only at h
    split at h
    · cases h
      exact ⟨rfl, hsource, htarget, fun heq => hne (Or.inr (Or.inr heq))⟩
    · exact absurd h (by simp)

/-- `_identify_migration_candidates`: sorted by improvement, the greatest first. -/
def identifyMigrationCandidates (deltaH : F) (currentPlacement optimalPlacement : Dict String String)
    (scores : Scores F) (operatorTypes tiers : List String) : List (Candidate F) :=
  (operatorTypes.zipIdx.filterMap
    (fun (opType, i) => candidateOf deltaH currentPlacement optimalPlacement scores tiers opType i)).insertionSort
    (fun x y => ¬ PyRuntime.lt x.scoreImprovement y.scoreImprovement = true)

theorem mem_identifyMigrationCandidates {deltaH : F} {current optimal : Dict String String}
    {scores : Scores F} {ops tiers : List String} {c : Candidate F} :
    c ∈ identifyMigrationCandidates deltaH current optimal scores ops tiers ↔
      ∃ i, ops[i]? = some c.operatorType ∧
        candidateOf deltaH current optimal scores tiers c.operatorType i = some c := by
  unfold identifyMigrationCandidates
  rw [(List.perm_insertionSort _ _).mem_iff, List.mem_filterMap]
  constructor
  · rintro ⟨⟨opType, i⟩, hmem, hc⟩
    have hop := (candidateOf_eq_some hc).1
    rw [hop]
    exact ⟨i, List.mem_zipIdx_iff_getElem?.mp hmem, hc⟩
  · rintro ⟨i, hmem, hc⟩
    exact ⟨(c.operatorType, i), List.mem_zipIdx_iff_getElem?.mpr hmem, hc⟩

/-! ## `PlacementOptimizer`

A cycle reads the record, plans, and starts the candidates one after the other; what `migrate_operator` raises for one
of them is logged, and the next one has its turn. -/

/-- `PlacementOptimizer` with the objects it works on. -/
structure PlacementOptimizer (F : Type) where
  config    : AODEConfig F
  scoring   : ScoringAlgorithm F
  migration : PCTROrchestrator
  placement : PlacementState

/-- An entry of `migrations_started`, for the report of a cycle. -/
structure StartedMigration (F : Type) where
  operatorType     : String
  source           : String
  target           : String
  scoreImprovement : F
  migrationId      : String

/-- What `_run_optimization` returns, apart from the durations. -/
inductive OptimizationResult (F : Type) where
  | noOperators
  | completed (candidatesEvaluated : Nat) (migrations : List (StartedMigration F))

namespace PlacementOptimizer

/-- `scores` and `optimal_placement` of a cycle. -/
def plan (o : PlacementOptimizer F) : Except PyError (Scores F × Dict String String) := do
  let operatorTypes := o.placement.getCurrentPlacement.keys
  let tiers := PlacementState.getTierCapacities.keys
  let scores ← o.scoring.computeScores operatorTypes tiers PlacementState.getSloMap PlacementState.getLambdaMap
  let optimalPlacement ← findOptimalPlacement scores operatorTypes tiers PlacementState.getTierCapacities
  .ok (scores, optimalPlacement)

theorem plan_eq_ok {o : PlacementOptimizer F} {scores : Scores F} {optimal : Dict String String}
    (h : o.plan = .ok (scores, optimal)) :
    findOptimalPlacement scores o.placement.cache.keys PlacementState.getTierCapacities.keys
      PlacementState.getTierCapacities = .ok optimal := by
  obtain ⟨scores', -, h⟩ := bind_eq_ok.mp h
  obtain ⟨optimal', hoptimal, h⟩ := bind_eq_ok.mp h
  cases h
  exact hoptimal

/-- `_run_optimization` up to the loop that starts migrations: the candidates, or `none` where there is
    nothing to optimize. -/
def candidates (o : PlacementOptimizer F) : Except PyError (Option (List (Candidate F))) := do
  let currentPlacement := o.placement.getCurrentPlacement
  let operatorTypes := currentPlacement.keys
  if operatorTypes = [] ∨ PlacementState.getAvailableTiers.length < 2 then .ok none
  else do
    let (scores, optimalPlacement) ← o.plan
    .ok (some (identifyMigrationCandidates o.config.deltaH currentPlacement optimalPlacement scores
      operatorTypes PlacementState.getTierCapacities.keys))

/-- One turn of that loop: the migration is started and its target recorded. An exception of
    `migrate_operator` skips the record, one of `etcd.put` comes when the cache is written already; both are
    swallowed. -/
def startCandidate (o : PlacementOptimizer F) (c : Candidate F) (put : Except PyError Unit) :
    PlacementOptimizer F × Option (StartedMigration F) :=
  match o.migration.migrateOperator c.operatorType c.sourceTier c.targetTier with
  | .error _ => (o, none)
  | .ok (migrationId, migration) =>
      let (_, placement) := o.placement.updateOperatorPlacement c.operatorType c.targetTier put
      ({ o with migration := migration, placement := placement },
        some ⟨c.operatorType, c.sourceTier, c.targetTier, PyRuntime.round c.scoreImprovement 3, migrationId⟩)

/-- A candidate whose operator is already being migrated is skipped; any other is started and recorded. -/
theorem startCandidate_cases (o : PlacementOptimizer F) (c : Candidate F) (put : Except PyError Unit) :
    (o.migration.activeMigrations.contains c.operatorType = true ∧ o.startCandidate c put = (o, none)) ∨
    (o.migration.activeMigrations.contains c.operatorType = false ∧ ∃ migrationId migration started,
      o.migration.migrateOperator c.operatorType c.sourceTier c.targetTier = .ok (migrationId, migration) ∧
      o.startCandidate c put =
        ({ o with
            migration := migration
            placement := ⟨o.placement.cache.set c.operatorType c.targetTier⟩ }, some started)) := by
  unfold startCandidate PCTROrchestrator.migrateOperator
  cases hactive : o.migration.activeMigrations.contains c.operatorType with
  | true => exact Or.inl ⟨rfl, rfl⟩
  | false => exact Or.inr ⟨rfl, _, _, _, rfl, rfl⟩

/-- The loop; `put c` is how `etcd.put` ends for the candidate `c`. -/
def startCandidates (put : Candidate F → Except PyError Unit) :
    List (Candidate F) → PlacementOptimizer F → PlacementOptimizer F × List (StartedMigration F)
  | [], o      => (o, [])
  | c :: cs, o =>
      let (o₁, started) := o.startCandidate c (put c)
      let (o₂, rest) := startCandidates put cs o₁
      (o₂, started.toList ++ rest)

theorem startCandidates_cons (put : Candidate F → Except PyError Unit) (c : Candidate F)
    (cs : List (Candidate F)) (o : PlacementOptimizer F) :
    startCandidates put (c :: cs) o =
      ((startCandidates put cs (o.startCandidate c (put c)).1).1,
        (o.startCandidate c (put c)).2.toList ++ (startCandidates put cs (o.startCandidate c (put c)).1).2) := rfl

/-- `_run_optimization`: without operators on record there is nothing to do; otherwise the candidates are started one
    after the other. -/
def runOptimization (o : PlacementOptimizer F) (put : Candidate F → Except PyError Unit) :
    Except PyError (OptimizationResult F × PlacementOptimizer F) := do
  match ← o.candidates with
  | none    => .ok (.noOperators, o)
  | some cs =>
      let (o', migrations) := startCandidates put cs o
      .ok (.completed cs.length migrations, o')

/-- The candidates of a cycle come from its plan. -/
theorem candidates_eq_ok {o : PlacementOptimizer F} {cs : Option (List (Candidate F))}
    (h : o.candidates = .ok cs) :
    (cs = none ∧ o.placement.cache.keys = []) ∨
    ∃ scores optimal, o.plan = .ok (scores, optimal) ∧
      cs = some (identifyMigrationCandidates o.config.deltaH o.placement.cache optimal scores
        o.placement.cache.keys PlacementState.getTierCapacities.keys) := by
  unfold candidates at h
  dsimp only at h
  split at h
  · rename_i hnone
    cases h
    refine Or.inl ⟨rfl, hnone.resolve_right ?_⟩
    decide
  · obtain ⟨⟨scores, optimal⟩, hplan, h⟩ := bind_eq_ok.mp h
    cases h
    exact Or.inr ⟨scores, optimal, hplan, rfl⟩

/-- What a cycle that returned has done. -/
theorem runOptimization_eq_ok {o o' : PlacementOptimizer F} {put : Candidate F → Except PyError Unit}
    {result : OptimizationResult F} (h : o.runOptimization put = .ok (result, o')) :
    (result = .noOperators ∧ o' = o ∧ o.candidates = .ok none) ∨
    ∃ cs, o.candidates = .ok (some cs) ∧ o' = (startCandidates put cs o).1 ∧
      result = .completed cs.length (startCandidates put cs o).2 := by
  obtain ⟨cs, hcs, h⟩ := bind_eq_ok.mp h
  cases cs with
  | none =>
      cases h
      exact Or.inl ⟨rfl, rfl, hcs⟩
  | some cs =>
      cases h
      exact Or.inr ⟨cs, hcs, rfl, rfl⟩

end PlacementOptimizer

end Aode
end HybridStream
