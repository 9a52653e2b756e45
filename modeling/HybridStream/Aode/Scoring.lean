import HybridStream.Py.Value
import Mathlib.Data.List.Sort

/-!
# `Aode.Scoring` — telemetry, weights, scores and the optimal placement

`aode/telemetry/collector.py` (what scoring reads of it), `aode/scoring/weights.py` and
`aode/scoring/algorithm.py`. A score is a cost: `find_optimal_placement` gives every operator the cheapest
tier that still has room, the operators with the highest minimal cost first.

The score matrix is a list of rows. NumPy's minimum is the one NumPy function used; it propagates NaN.
-/

namespace HybridStream
namespace Aode

open Lib Py

variable {F : Type} [PyRuntime F]

/-! ## Configuration and telemetry

What the scoring is configured with, and the last telemetry of each HEA with the two look-ups that scoring makes. -/

/-- `AODEConfig`, the fields that scoring, placement and migration read. -/
structure AODEConfig (F : Type) where
  kappa             : F
  deltaH            : F
  sloPenaltyFactor  : Int
  migrationTimeoutS : Int

/-- The defaults of `AODEConfig`, which `main.run` leaves as they are. -/
def AODEConfig.default : AODEConfig F where
  kappa             := 2.0
  deltaH            := 0.15
  sloPenaltyFactor  := 10
  migrationTimeoutS := 300

/-- `HEATelemetry`, the fields scoring reads: what one collection has brought about an HEA. -/
structure HEATelemetry (F : Type) where
  cpuUtilization    : F
  memoryUtilization : F
  rttMs             : F
  operatorP95Ms     : Dict String F
  reachable         : Bool

/-- `TelemetryCollector`: the last telemetry of each HEA. -/
structure TelemetryCollector (F : Type) where
  lastTelemetry : Dict String (HEATelemetry F)

namespace TelemetryCollector

/-- `get_tier_utilization`: what the tier reported, and nine tenths of everything where nothing is known of it. -/
def getTierUtilization (t : TelemetryCollector F) (heaId : String) : F × F :=
  match t.lastTelemetry.get heaId with
  | some tel => if tel.reachable then (tel.cpuUtilization, tel.memoryUtilization) else (0.9, 0.9)
  | none     => (0.9, 0.9)

/-- `get_operator_latency`: the greatest 95th percentile any reachable HEA reports. -/
def getOperatorLatency (t : TelemetryCollector F) (operatorId : String) : Option F :=
  let latencies := t.lastTelemetry.values.filterMap
    (fun tel => if tel.reachable then tel.operatorP95Ms.get operatorId else none)
  match latencies with
  | []      => none
  | x :: xs => some (pyMaxOf x xs)

end TelemetryCollector

/-! ## Weights

The presets by their names; an unknown name raises. -/

/-- `WeightPreset`: the weights of the four terms of a score. -/
structure WeightPreset (F : Type) where
  name : String
  wLat : F
  wRes : F
  wNet : F
  wSlo : F

/-- `WEIGHT_PRESETS`: the three that exist, in all of which the network has the same weight. -/
def weightPresets : Dict String (WeightPreset F) :=
  Dict.ofList
    [ ("latency-first",      ⟨"latency-first", 0.55, 0.10, 0.20, 0.15⟩),
      ("balanced",           ⟨"balanced", 0.30, 0.30, 0.20, 0.20⟩),
      ("resource-efficient", ⟨"resource-efficient", 0.20, 0.50, 0.20, 0.10⟩) ]

/-- `get_weight_preset`, which raises for a name that is none of theirs. -/
def getWeightPreset (name : String) : Except PyError (WeightPreset F) :=
  match weightPresets.get name with
  | some preset => .ok preset
  | none        => .error ⟨.valueError,
      s!"Unknown weight preset '{name}'. Available: ['latency-first', 'balanced', 'resource-efficient']"⟩

/-! ## Scores

The four terms and their sum, as the methods compute them, and the matrix of an operator list and a tier list. -/

/-- `ScoringAlgorithm`: what a score depends on, apart from the operator and the tier. -/
structure ScoringAlgorithm (F : Type) where
  config    : AODEConfig F
  telemetry : TelemetryCollector F
  weights   : WeightPreset F

/-- The matrix `compute_scores` fills, one row per operator. -/
abbrev Scores (F : Type) := List (List F)

/-- `scores[i, j]`, over the zeros the matrix starts from. -/
def Scores.entry (scores : Scores F) (i j : Nat) : F := (scores.getD i []).getD j 0.0

namespace ScoringAlgorithm

/-- `set_weights`, which raises before anything is written. -/
def setWeights (s : ScoringAlgorithm F) (presetName : String) : Except PyError (ScoringAlgorithm F) := do
  .ok { s with weights := ← getWeightPreset presetName }

/-- `self._telemetry.get_operator_latency(operator_type) or 1.0`: no latency, and one of zero, count as a
    millisecond. -/
def observedLatencyMs (s : ScoringAlgorithm F) (operatorType : String) : F :=
  match s.telemetry.getOperatorLatency operatorType with
  | some x => if PyRuntime.eq x 0.0 then 1.0 else x
  | none   => 1.0

/-- `_compute_phi_lat`: the observed latency, weighted by the class of the operator. The tier does not enter. -/
def computePhiLat (s : ScoringAlgorithm F) (operatorType lambdaClass : String) : F :=
  let lambdaWeights : Dict String F := Dict.ofList [("critical", 3.0), ("standard", 1.0), ("batch", 0.1)]
  lambdaWeights.getD lambdaClass 1.0 * s.observedLatencyMs operatorType

/-- `_compute_phi_res`: the greater of the two utilizations, in the form of a queue's waiting time; the operator does
    not enter. -/
def computePhiRes (s : ScoringAlgorithm F) (tierId : String) : Except PyError F :=
  let (cpuUtil, memUtil) := s.telemetry.getTierUtilization tierId
  let rhoJ := pyMin (pyMax cpuUtil memUtil) 0.99
  floatDiv (s.config.kappa * rhoJ) (1.0 - rhoJ)

/-- `_compute_phi_net`: the round trip, which is zero to the cloud and a second where nothing is known. -/
def computePhiNet (s : ScoringAlgorithm F) (tierId : String) : F :=
  if tierId = "cloud" then 0.0
  else match s.telemetry.lastTelemetry.get tierId with
    | some tel => if tel.reachable then tel.rttMs else 1000.0
    | none     => 1000.0

/-- `_compute_phi_slo`: the share by which the observed latency exceeds the objective, times the penalty; without an
    objective it is an hour. -/
def computePhiSlo (s : ScoringAlgorithm F) (operatorType : String) (sloMs : Option F) : Except PyError F := do
  let sloMs := sloMs.getD (3600.0 * 1000.0)
  let observed := s.observedLatencyMs operatorType
  if PyRuntime.le observed sloMs then .ok 0.0
  else do
    let violationRatio ← floatDiv (observed - sloMs) sloMs
    .ok ((← floatOfInt s.config.sloPenaltyFactor) * violationRatio)

/-- The score of one operator on one tier. -/
def score (s : ScoringAlgorithm F) (operatorType tierId : String) (sloMs : Option F) (lambdaClass : String) :
    Except PyError F := do
  let phiLat := s.computePhiLat operatorType lambdaClass
  let phiRes ← s.computePhiRes tierId
  let phiNet := s.computePhiNet tierId
  let phiSlo ← s.computePhiSlo operatorType sloMs
  .ok (s.weights.wLat * phiLat + s.weights.wRes * phiRes + s.weights.wNet * phiNet + s.weights.wSlo * phiSlo)

/-- `compute_scores`: a row for each operator, with a score for each tier. -/
def computeScores (s : ScoringAlgorithm F) (operatorTypes tiers : List String)
    (sloMap : Dict String (Option F)) (lambdaMap : Dict String String) : Except PyError (Scores F) :=
  operatorTypes.mapM fun opType =>
    tiers.mapM fun tierId =>
      s.score opType tierId (sloMap.getD opType none) (lambdaMap.getD opType "standard")

end ScoringAlgorithm

/-! ## The optimal placement

The assignment loop with the NumPy calls in it: operators by falling row minimum, each to its cheapest tier with
room. -/

/-- `np.minimum(x, y)`, of which a NaN is a minimum. -/
def npMinimum (x y : F) : F := if PyRuntime.lt x y || !PyRuntime.eq x x then x else y

/-- `np.min(row)`, which raises on an empty row. -/
def npMin : List F → Except PyError F
  | []      => .error ⟨.valueError, "zero-size array to reduction operation minimum which has no identity"⟩
  | x :: xs => .ok (xs.foldl npMinimum x)

/-- `x < y` on the pairs `(score, j)`. -/
def tierScoreLt (x y : F × Nat) : Bool := if PyRuntime.eq x.1 y.1 then x.2 < y.2 else PyRuntime.lt x.1 y.1

/-- The tiers with an operator's scores, cheapest first; `i` is the operator's row. -/
def tierScores (scores : Scores F) (tiers : List String) (i : Nat) : List (String × (F × Nat)) :=
  (tiers.zipIdx.map (fun (tierId, j) => (tierId, (scores.entry i j, j)))).insertionSort
    (fun x y => ¬ tierScoreLt y.2 x.2 = true)

/-- The dictionaries `find_optimal_placement` builds: where each operator goes, and how many are on each tier. -/
structure Plan where
  placement : Dict String String
  tierUsage : Dict String Nat

/-- One operator is assigned: the cheapest tier with room, and `cloud` if there is none. The one caller takes the
    tiers from the capacities, so each has one; a tier without a capacity, for which the source raises `KeyError`,
    counts as full here. -/
def Plan.assign (scores : Scores F) (tiers : List String) (tierCapacities : Dict String Nat) (plan : Plan)
    (op : String × Nat) : Plan :=
  let room (tierId : String) : Bool := plan.tierUsage.getD tierId 0 < tierCapacities.getD tierId 0
  match (tierScores scores tiers op.2).find? (fun x => room x.1) with
  | some (tierId, _) =>
      { placement := plan.placement.set op.1 tierId
        tierUsage := plan.tierUsage.set tierId (plan.tierUsage.getD tierId 0 + 1) }
  | none => { plan with placement := plan.placement.set op.1 "cloud" }

/-- The operators with their row numbers, in the order they are assigned: highest minimal score first. -/
def assignmentOrder (scores : Scores F) (operatorTypes tiers : List String) :
    Except PyError (List (String × Nat)) := do
  let opMinScores ← operatorTypes.zipIdx.mapM fun (opType, i) => do
    let minScore ← npMin (tiers.zipIdx.map (fun (_, j) => scores.entry i j))
    pure ((opType, i), minScore)
  .ok ((opMinScores.insertionSort (fun x y => ¬ PyRuntime.lt x.2 y.2 = true)).map Prod.fst)

/-- `find_optimal_placement`. The tiers are the keys of the capacities. -/
def findOptimalPlacement (scores : Scores F) (operatorTypes tiers : List String)
    (tierCapacities : Dict String Nat) : Except PyError (Dict String String) := do
  let order ← assignmentOrder scores operatorTypes tiers
  let start : Plan := ⟨∅, Dict.ofList (tiers.map (fun tier => (tier, 0)))⟩
  .ok (order.foldl (Plan.assign scores tiers tierCapacities) start).placement

end Aode
end HybridStream
