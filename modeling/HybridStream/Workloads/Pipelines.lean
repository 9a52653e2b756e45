import HybridStream.Lib.Decimal
import HybridStream.Lib.Dict

/-!
# `Workloads.Pipelines` — the three workload DAGs

`workloads/w1/dag.py`, `w2/dag.py` and `w3/dag.py`: which operator instances a pipeline has and the topics
each is registered on. An instance is given by the constructor call that creates it.

Everything about ids and topics is decided here, before any operator exists: how many instances there are, how ids are
padded, which topics connect the stages. The results about fan-out, about latencies that are looked up under a type,
and about placements are instances of general ones at these lists.
-/

namespace HybridStream
namespace Workloads

/-- The constructor calls of the three builders; arguments not listed have their defaults. -/
inductive Construction where
  | normalizerOperator (operatorId zoneId : String)
  | featureAggWindow (operatorId zoneId : String)
  | multiStreamJoin (operatorId : String) (nZones : Nat)
  | binaryClassifier (operatorId : String)
  | vehicleDetector (operatorId sensorId : String)
  | zoneAggregator (operatorId zoneId : String)
  | patternDetector (operatorId : String)
  | riskCheck (operatorId riskCategory : String)
  | anomalyDetector (operatorId metricClass : String)
  | statAggregator (operatorId instrumentClass : String)
  | complianceLogger (operatorId complianceDomain : String)
  deriving DecidableEq

namespace Construction

/-- `operator_id` of the instance, which every constructor is given first. -/
def operatorId : Construction → String
  | normalizerOperator oid _ => oid
  | featureAggWindow oid _   => oid
  | multiStreamJoin oid _    => oid
  | binaryClassifier oid     => oid
  | vehicleDetector oid _    => oid
  | zoneAggregator oid _     => oid
  | patternDetector oid      => oid
  | riskCheck oid _          => oid
  | anomalyDetector oid _    => oid
  | statAggregator oid _     => oid
  | complianceLogger oid _   => oid

/-- `operator_type` of its class, a constant of each. -/
def operatorType : Construction → String
  | normalizerOperator _ _ => "NormalizerOperator"
  | featureAggWindow _ _   => "FeatureAggWindow"
  | multiStreamJoin _ _    => "MultiStreamJoin"
  | binaryClassifier _     => "BinaryClassifier"
  | vehicleDetector _ _    => "VehicleDetector"
  | zoneAggregator _ _     => "ZoneAggregator"
  | patternDetector _      => "PatternDetector"
  | riskCheck _ _          => "RiskCheck"
  | anomalyDetector _ _    => "AnomalyDetector"
  | statAggregator _ _     => "StatAggregator"
  | complianceLogger _ _   => "ComplianceLogger"

end Construction

/-- An entry of a pipeline: the operator, its input topics and its output topics. -/
structure PipelineEntry where
  op           : Construction
  inputTopics  : List String
  outputTopics : List String
  deriving DecidableEq

/-- `f"{n:0{width}d}"`: zeros in front up to the width, and nothing cut off beyond it. -/
def zeroPadded (width n : Nat) : String :=
  let digits := Nat.toDigits 10 n
  String.ofList (List.replicate (width - digits.length) '0' ++ digits)

/-- Leading zeros do not change a number. -/
theorem zeroPadded_injective (width : Nat) : Function.Injective (zeroPadded width) := by
  have hvalue : ∀ n, Nat.ofDigitChars 10 (zeroPadded width n).toList 0 = n := by
    intro n
    unfold zeroPadded
    dsimp only
    rw [String.toList_ofList, Nat.ofDigitChars_append, Nat.ofDigitChars_replicate_zero, Nat.mul_zero,
      Nat.ofDigitChars_ten_toDigits]
  intro m n h
  rw [← hvalue m, h, hvalue n]

/-! ## W1

Five zones, each with an operator for its records and one for its windows, and the two operators behind them. -/

/-- `ZONES`: the five zones of W1. -/
def zones : List String := ["zone_1", "zone_2", "zone_3", "zone_4", "zone_5"]

/-- `build_w1_pipeline`: two operators for each zone, one behind the other, then the join of all zones and the
    classifier behind it. -/
def buildW1Pipeline : List PipelineEntry :=
  zones.map (fun zone =>
    ⟨.normalizerOperator ("normalizer-" ++ zone) zone, ["w1-raw-" ++ zone], ["w1-norm-" ++ zone]⟩) ++
  zones.map (fun zone =>
    ⟨.featureAggWindow ("agg-" ++ zone) zone, ["w1-norm-" ++ zone], ["w1-agg-" ++ zone]⟩) ++
  [ ⟨.multiStreamJoin "multi-join" 5, zones.map (fun zone => "w1-agg-" ++ zone), ["w1-joined"]⟩,
    ⟨.binaryClassifier "classifier", ["w1-joined"], ["w1-classified"]⟩ ]

/-! ## W2

Five hundred sensors in twenty zones. -/

/-- `N_SENSORS`: a detector each. -/
def nSensors : Nat := 500

/-- `N_ZONES`: an aggregator each. -/
def nZones : Nat := 20

/-- `f"zone_{i + 1:02d}"`: zones are counted from one, with two digits. -/
def w2Zone (i : Nat) : String := "zone_" ++ zeroPadded 2 (i + 1)

/-- `build_w2_pipeline`: all detectors read one topic and put out to that of their zone, each zone has its aggregator,
    and one operator reads what these put out. -/
def buildW2Pipeline : List PipelineEntry :=
  let sensorsPerZone := nSensors / nZones
  (List.range nSensors).map (fun i =>
    ⟨.vehicleDetector ("detector-" ++ zeroPadded 4 i) ("sensor_" ++ zeroPadded 4 i), ["w2-sensors"],
      ["w2-detections-" ++ w2Zone (i / sensorsPerZone)]⟩) ++
  (List.range nZones).map (fun i =>
    ⟨.zoneAggregator ("zone-agg-" ++ w2Zone i) (w2Zone i), ["w2-detections-" ++ w2Zone i],
      ["w2-zone-" ++ w2Zone i]⟩) ++
  [⟨.patternDetector "pattern-detector", (List.range nZones).map (fun i => "w2-zone-" ++ w2Zone i),
    ["w2-incidents"]⟩]

/-! ## W3

An operator for each risk category, metric class, instrument and domain. -/

/-- The keys of `RiskCheck.CATEGORIES`, of which each has an operator. -/
def riskCategories : List String :=
  ["credit", "market", "liquidity", "operational", "counterparty", "settlement", "model", "reputational"]

/-- The metric classes of the anomaly detectors. -/
def metricClasses : List String := ["price_deviation", "volume_spike", "spread_anomaly", "order_flow_imbalance"]

/-- `instruments`: one aggregator of statistics for each. -/
def instruments : List String :=
  ["equities", "bonds", "fx", "commodities", "derivatives", "etfs", "options", "futures", "swaps", "indices",
    "crypto", "structured_products"]

/-- `ComplianceLogger.DOMAINS`: one trail for each. -/
def domains : List String := ["mifid2", "dodd_frank", "basel3", "sox", "gdpr", "aml"]

/-- `build_w3_pipeline`: all operators read the topic of trades, and each has an output topic of its own. -/
def buildW3Pipeline : List PipelineEntry :=
  riskCategories.map (fun category =>
    ⟨.riskCheck ("risk-" ++ category) category, ["w3-trades"], ["w3-risk-" ++ category]⟩) ++
  metricClasses.map (fun mc =>
    ⟨.anomalyDetector ("anomaly-" ++ mc) mc, ["w3-trades"], ["w3-anomaly-" ++ mc]⟩) ++
  instruments.map (fun instr =>
    ⟨.statAggregator ("stat-" ++ instr) instr, ["w3-trades"], ["w3-stats-" ++ instr]⟩) ++
  domains.map (fun domain =>
    ⟨.complianceLogger ("compliance-" ++ domain) domain, ["w3-trades"], ["w3-compliance-" ++ domain]⟩)

/-- The entries of the three pipelines. -/
def pipelines : List PipelineEntry := buildW1Pipeline ++ buildW2Pipeline ++ buildW3Pipeline

/-! ## Ids and types

Ids begin with the name of a stage in lower case and types are capitalised, so no instance has the name of a type. -/

/-- The operator types, in the order of the workloads. -/
def operatorTypes : List String :=
  ["NormalizerOperator", "FeatureAggWindow", "MultiStreamJoin", "BinaryClassifier", "VehicleDetector",
    "ZoneAggregator", "PatternDetector", "RiskCheck", "AnomalyDetector", "StatAggregator", "ComplianceLogger"]

theorem operatorType_mem (c : Construction) : c.operatorType ∈ operatorTypes := by
  cases c <;> simp [Construction.operatorType, operatorTypes]

/-- The text begins with a lower-case letter. -/
def beginsLower (s : String) : Bool := s.toList.head?.any Char.isLower

theorem beginsLower_append {s : String} (h : beginsLower s = true) (t : String) : beginsLower (s ++ t) = true := by
  unfold beginsLower at h ⊢
  rw [String.toList_append]
  cases hs : s.toList with
  | nil => rw [hs] at h; cases h
  | cons c cs => rw [hs] at h; exact h

/-- Every id a builder puts together begins with the name of its stage. -/
theorem beginsLower_operatorId : ∀ p ∈ pipelines, beginsLower p.op.operatorId = true := by
  have hstage : ∀ stage : String, beginsLower stage = true → ∀ {α : Type} (xs : List α) (name : α → String)
      (f : α → PipelineEntry), (∀ x, (f x).op.operatorId = stage ++ name x) →
      ∀ p ∈ xs.map f, beginsLower p.op.operatorId = true := by
    intro stage hlower α xs name f hid p hp
    obtain ⟨x, -, rfl⟩ := List.mem_map.mp hp
    rw [hid]
    exact beginsLower_append hlower (name x)
  simp only [pipelines, buildW1Pipeline, buildW2Pipeline, buildW3Pipeline, List.forall_mem_append,
    List.forall_mem_cons]
  refine ⟨⟨⟨⟨?_, ?_⟩, ?_, ?_⟩, ⟨?_, ?_⟩, ?_⟩, ⟨⟨?_, ?_⟩, ?_⟩, ?_⟩
  · exact hstage "normalizer-" rfl _ _ _ fun _ => rfl
  · exact hstage "agg-" rfl _ _ _ fun _ => rfl
  · decide
  · decide
  · exact hstage "detector-" rfl _ _ _ fun _ => rfl
  · exact hstage "zone-agg-" rfl _ _ _ fun _ => rfl
  · decide
  · exact hstage "risk-" rfl _ _ _ fun _ => rfl
  · exact hstage "anomaly-" rfl _ _ _ fun _ => rfl
  · exact hstage "stat-" rfl _ _ _ fun _ => rfl
  · exact hstage "compliance-" rfl _ _ _ fun _ => rfl

/-- **No instance of a pipeline has the name of an operator type as its id**: the types are capitalised. -/
theorem operatorId_not_type : ∀ p ∈ pipelines, p.op.operatorId ∉ operatorTypes := by
  have htypes : ∀ name ∈ operatorTypes, beginsLower name = false := by decide
  intro p hp htype
  have hlower := beginsLower_operatorId p hp
  rw [htypes _ htype] at hlower
  cases hlower

end Workloads
end HybridStream
