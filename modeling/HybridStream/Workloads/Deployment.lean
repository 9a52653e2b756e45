import HybridStream.Hea.Bridge
import HybridStream.Workloads.Pipelines
import HybridStream.Workloads.W1
import HybridStream.Workloads.W2
import HybridStream.Workloads.W3

/-!
# `Workloads.Deployment` — the pipelines with their operators

What `Workloads.Pipelines` lists as constructor calls, here with the classes that are constructed and the attributes
the constructors leave; and the `register_operator` calls of a workload.

A construction determines a class and attributes for it, so the entries of a pipeline determine operator objects and,
registered one after the other, an engine. The constructed operators report the ids and types that the pipeline lists
(`cls_identity`), which connects the two.
-/

namespace HybridStream
namespace Workloads

open Lib Py Hea

namespace Construction

variable {F : Type} [PyRuntime F]

/-- The attributes of the instance. -/
def Attributes (F : Type) [PyRuntime F] : Construction → Type
  | normalizerOperator _ _ => NormalizerOperator F
  | featureAggWindow _ _   => FeatureAggWindow F
  | multiStreamJoin _ _    => MultiStreamJoin F
  | binaryClassifier _     => BinaryClassifier F
  | vehicleDetector _ _    => VehicleDetector F
  | zoneAggregator _ _     => ZoneAggregator F
  | patternDetector _      => PatternDetector F
  | riskCheck _ _          => RiskCheck F
  | anomalyDetector _ _    => AnomalyDetector F
  | statAggregator _ _     => StatAggregator F
  | complianceLogger _ _   => ComplianceLogger F

/-- The class that is constructed. -/
def cls : (c : Construction) → BaseOperator F (c.Attributes F)
  | normalizerOperator _ _ => NormalizerOperator.operator
  | featureAggWindow _ _   => FeatureAggWindow.operator
  | multiStreamJoin _ _    => MultiStreamJoin.operator
  | binaryClassifier _     => BinaryClassifier.operator
  | vehicleDetector _ _    => VehicleDetector.operator
  | zoneAggregator _ _     => ZoneAggregator.operator
  | patternDetector _      => PatternDetector.operator
  | riskCheck _ _          => RiskCheck.operator
  | anomalyDetector _ _    => AnomalyDetector.operator
  | statAggregator _ _     => StatAggregator.operator
  | complianceLogger _ _   => ComplianceLogger.operator

/-- The attributes `__init__` leaves, the arguments not given having their defaults. -/
def constructed (clock : Clock F) : (c : Construction) → Except PyError (c.Attributes F)
  | normalizerOperator oid zone => .ok (NormalizerOperator.new oid zone 0.01)
  | featureAggWindow oid zone   => FeatureAggWindow.new oid zone 1000
  | multiStreamJoin oid n       => MultiStreamJoin.new clock oid n 100.0
  | binaryClassifier oid        => .ok (BinaryClassifier.new oid 0.6)
  | vehicleDetector oid sensor  => .ok (VehicleDetector.new oid sensor 0.2)
  | zoneAggregator oid zone     => .ok (ZoneAggregator.new clock oid zone 25)
  | patternDetector oid         => .ok (PatternDetector.new oid 0.7)
  | riskCheck oid category      => .ok (RiskCheck.new oid category)
  | anomalyDetector oid metric  => .ok (AnomalyDetector.new oid metric 0.2 3.0)
  | statAggregator oid instr    => .ok (StatAggregator.new oid instr)
  | complianceLogger oid domain => .ok (ComplianceLogger.new oid domain)

/-- The constructed operator reports its id and its type. -/
theorem cls_identity (clock : Clock F) (c : Construction) (s : c.Attributes F) (h : c.constructed clock = .ok s) :
    (c.cls (F := F)).operatorId s = c.operatorId ∧ (c.cls (F := F)).operatorType = c.operatorType := by
  refine ⟨?_, by cases c <;> rfl⟩
  cases c with
  | featureAggWindow oid zone =>
      obtain ⟨window, -, hs⟩ := bind_eq_ok.mp h
      cases hs
      rfl
  | multiStreamJoin oid n =>
      obtain ⟨timeout, -, hs⟩ := bind_eq_ok.mp h
      cases hs
      rfl
  | normalizerOperator | binaryClassifier | vehicleDetector | zoneAggregator | patternDetector | riskCheck
    | anomalyDetector | statAggregator | complianceLogger =>
      cases h
      rfl

end Construction

/-- The workloads. -/
inductive Workload where
  | w1 | w2 | w3
  deriving DecidableEq

namespace Workload

/-- `build_w1_pipeline`, `build_w2_pipeline`, `build_w3_pipeline` -/
def pipeline : Workload → List PipelineEntry
  | w1 => buildW1Pipeline
  | w2 => buildW2Pipeline
  | w3 => buildW3Pipeline

/-- One `register_operator` call for each entry. -/
def registered (w : Workload) : List (Registered Construction) :=
  w.pipeline.map (fun p => ⟨p.op, p.inputTopics, p.outputTopics⟩)

end Workload

end Workloads
end HybridStream
