import HybridStream.Workloads.W1
import HybridStream.Workloads.W2
import HybridStream.Workloads.W3

/-!
# `Workloads.Correctness.Reached` — what every history of records keeps

For each operator class: `Reached`, the facts about the attributes that hold from construction on whatever
records are processed (the constructor's arguments stay, a counter at zero means that nothing was counted),
and `run_reached`, that they do.

The facts are what the results about exported states need to know about the attributes that a history can have led to:
without them a state could be written down in which, say, a mean was kept of no values. One `Keeps` lemma for each
class carries them over a call, and the induction over the history is the one of `Hea.Operator`.
-/

namespace HybridStream
namespace Workloads

open Lib Py Hea

variable {F : Type} [PyRuntime F]

namespace NormalizerOperator

/-- The attributes of a normalizer built with `zoneId` and `alpha`. -/
structure Reached (zoneId : String) (alpha : F) (s : NormalizerOperator F) : Prop where
  zoneId : s.zoneId = zoneId
  alpha  : s.alpha = alpha
  count  : 0 ≤ s.count
  fresh  : s.count = 0 → s.mean = 0.0 ∧ s.variance = 1.0

theorem process_keeps (zoneId : String) (alpha : F) (clock : Clock F) (record : Record F) :
    (process clock record).Keeps (Reached zoneId alpha) := by
  unfold process
  refine Proc.keeps_lift_bind fun value => ?_
  -- once the record counts, nothing is said of the mean and the variance
  refine Proc.keeps_modify_bind (J := fun s => s.zoneId = zoneId ∧ s.alpha = alpha ∧ 0 < s.count) ?_ ?_ ?_
  · rintro s ⟨hzone, halpha, hcount, -⟩
    exact ⟨hzone, halpha, by show 0 < s.count + 1; omega⟩
  · refine Proc.keeps_get_bind fun s _ => Proc.keeps_lift_bind fun step => ?_
    refine Proc.keeps_write_bind (fun _ h => h) ?_
    refine Proc.keeps_get_bind fun s _ => ?_
    refine Proc.keeps_lift_bind fun weight => Proc.keeps_lift_bind fun variance => ?_
    refine Proc.keeps_write_bind (fun _ h => h) ?_
    refine Proc.keeps_get_bind fun s _ => ?_
    refine Proc.keeps_lift_bind fun std => Proc.keeps_lift_bind fun normalized => ?_
    exact Proc.keeps_pure _
  · rintro s ⟨hzone, halpha, hcount⟩
    exact ⟨hzone, halpha, by omega, fun h => by omega⟩

theorem run_reached (operatorId zoneId : String) (alpha : F) (stream : List (Clock F × Record F)) :
    (operator.run (new operatorId zoneId alpha) stream).Reached zoneId alpha :=
  BaseOperator.run_keeps (C := operator) (process_keeps zoneId alpha) stream
    ⟨rfl, rfl, Int.le_refl 0, fun _ => ⟨rfl, rfl⟩⟩

end NormalizerOperator

namespace FeatureAggWindow

/-- The attributes of a window operator built with `zoneId` and `windowSize`. -/
structure Reached (zoneId : String) (windowSize : Int) (s : FeatureAggWindow F) : Prop where
  zoneId     : s.zoneId = zoneId
  windowSize : s.windowSize = windowSize
  emitEvery  : s.emitEvery = 100

theorem process_keeps (zoneId : String) (windowSize : Int) (clock : Clock F) (record : Record F) :
    (process clock record).Keeps (Reached zoneId windowSize) := by
  unfold process
  refine Proc.keeps_lift_bind fun value => ?_
  refine Proc.keeps_write_bind (fun _ ⟨hzone, hsize, hemit⟩ => ⟨hzone, hsize, hemit⟩) ?_
  refine Proc.keeps_write_bind (fun _ ⟨hzone, hsize, hemit⟩ => ⟨hzone, hsize, hemit⟩) ?_
  refine Proc.keeps_get_bind fun s _ => Proc.keeps_ite (Proc.keeps_pure _) ?_
  refine Proc.keeps_write_bind (fun _ ⟨hzone, hsize, hemit⟩ => ⟨hzone, hsize, hemit⟩) ?_
  refine Proc.keeps_lift_bind fun out => ?_
  exact Proc.keeps_pure _

theorem run_reached {operatorId zoneId : String} {windowSize : Int} {s₀ : FeatureAggWindow F}
    (hnew : new operatorId zoneId windowSize = .ok s₀) (stream : List (Clock F × Record F)) :
    0 ≤ windowSize ∧ (operator.run s₀ stream).Reached zoneId windowSize := by
  have h₀ : 0 ≤ windowSize ∧ s₀.Reached zoneId windowSize := by
    unfold new dequeOf at hnew
    split at hnew
    · cases hnew
    · cases hnew
      exact ⟨by omega, rfl, rfl, rfl⟩
  exact ⟨h₀.1, BaseOperator.run_keeps (C := operator) (process_keeps zoneId windowSize) stream h₀.2⟩

end FeatureAggWindow

namespace MultiStreamJoin

/-- The attributes of a join built for `nZones` with the given timeout in seconds. -/
structure Reached (nZones : Int) (windowTimeout : F) (s : MultiStreamJoin F) : Prop where
  nZones        : s.nZones = nZones
  windowTimeout : s.windowTimeout = windowTimeout

theorem process_keeps (nZones : Int) (windowTimeout : F) (clock : Clock F) (record : Record F) :
    (process clock record).Keeps (Reached nZones windowTimeout) := by
  unfold process
  refine Proc.keeps_lift_bind fun zoneId => ?_
  refine Proc.keeps_write_bind (fun _ ⟨hzones, htimeout⟩ => ⟨hzones, htimeout⟩) ?_
  refine Proc.keeps_get_bind fun s _ => Proc.keeps_ite ?_ (Proc.keeps_pure _)
  refine Proc.keeps_write_bind (fun _ ⟨hzones, htimeout⟩ => ⟨hzones, htimeout⟩) ?_
  exact Proc.keeps_pure _

end MultiStreamJoin

namespace BinaryClassifier

/-- The attributes of a classifier never change: nothing counts the outcomes. -/
theorem process_keeps (s : BinaryClassifier F) (clock : Clock F) (record : Record F) :
    (process clock record).Keeps (fun t => t = s) := by
  unfold process
  exact Proc.keeps_lift_bind fun score => Proc.keeps_get_bind fun s _ => Proc.keeps_pure _

theorem run_eq (s : BinaryClassifier F) (stream : List (Clock F × Record F)) : operator.run s stream = s :=
  BaseOperator.run_keeps (C := operator) (process_keeps s) stream rfl

end BinaryClassifier

namespace VehicleDetector

/-- The attributes of a detector built with `sensorId` and `alpha`. -/
structure Reached (sensorId : String) (alpha : F) (s : VehicleDetector F) : Prop where
  sensorId : s.sensorId = sensorId
  alpha    : s.alpha = alpha
  count    : 0 ≤ s.detectionCount
  fresh    : s.detectionCount = 0 → s.lastDetectionTs = .none ∧ s.detectionTimes = []

theorem process_keeps (sensorId : String) (alpha : F) (clock : Clock F) (record : Record F) :
    (process clock record).Keeps (Reached sensorId alpha) := by
  unfold process
  refine Proc.keeps_lift_bind fun sample => ?_
  refine Proc.keeps_write_bind (fun s hs => ?_) ?_
  · obtain ⟨hsensor, halpha, hcount, hfresh⟩ := hs
    unfold next
    split
    · refine ⟨hsensor, halpha, ?_, fun h => ?_⟩
      · show 0 ≤ s.detectionCount + 1
        omega
      · have h : s.detectionCount + 1 = 0 := h
        omega
    · exact ⟨hsensor, halpha, hcount, hfresh⟩
  · refine Proc.keeps_get_bind fun s _ => Proc.keeps_lift_bind fun headway => ?_
    exact Proc.keeps_pure _

theorem run_reached (operatorId sensorId : String) (alpha : F) (stream : List (Clock F × Record F)) :
    (operator.run (new operatorId sensorId alpha) stream).Reached sensorId alpha :=
  BaseOperator.run_keeps (C := operator) (process_keeps sensorId alpha) stream
    ⟨rfl, rfl, Int.le_refl 0, fun _ => ⟨rfl, rfl⟩⟩

end VehicleDetector

namespace ZoneAggregator

/-- The attributes of an aggregator built with `zoneId` and `nSensors`. -/
structure Reached (zoneId : String) (nSensors : Int) (s : ZoneAggregator F) : Prop where
  zoneId       : s.zoneId = .str zoneId
  nSensors     : s.nSensors = nSensors
  emitInterval : s.emitInterval = 5.0
  total        : 0 ≤ s.zoneTotal
  fresh        : s.zoneTotal = 0 → s.sensorCounts = ∅

theorem process_keeps (zoneId : String) (nSensors : Int) (clock : Clock F) (record : Record F) :
    (process clock record).Keeps (Reached zoneId nSensors) := by
  have hcount : ∀ (s : ZoneAggregator F) (counts : Dict (Value F) Int), s.Reached zoneId nSensors →
      Reached zoneId nSensors { s with sensorCounts := counts, zoneTotal := s.zoneTotal + 1 } := by
    rintro s counts ⟨hzone, hsensors, hemit, htotal, -⟩
    refine ⟨hzone, hsensors, hemit, ?_, fun h => ?_⟩
    · show 0 ≤ s.zoneTotal + 1
      omega
    · have h : s.zoneTotal + 1 = 0 := h
      omega
  unfold process
  -- with or without a detection, the same emission follows
  extract_lets sensorId detected now emission
  have hemission : (emission ⟨⟩).Keeps (Reached zoneId nSensors) := by
    refine Proc.keeps_get_bind fun s _ => Proc.keeps_ite ?_ (Proc.keeps_pure _)
    refine Proc.keeps_write_bind
      (fun _ ⟨hzone, hsensors, hemit, htotal, hfresh⟩ => ⟨hzone, hsensors, hemit, htotal, hfresh⟩) ?_
    exact Proc.keeps_lift_bind fun density => Proc.keeps_pure _
  refine Proc.keeps_ite (Proc.keeps_lift_bind fun key => ?_) hemission
  exact Proc.keeps_write_bind (fun s hs => hcount s _ hs) hemission

theorem run_reached (clock : Clock F) (operatorId zoneId : String) (nSensors : Int)
    (stream : List (Clock F × Record F)) :
    (operator.run (new clock operatorId zoneId nSensors) stream).Reached zoneId nSensors :=
  BaseOperator.run_keeps (C := operator) (process_keeps zoneId nSensors) stream
    ⟨rfl, rfl, rfl, Int.le_refl 0, fun _ => rfl⟩

end ZoneAggregator

namespace PatternDetector

/-- The attributes of a pattern detector built with `threshold`. -/
structure Reached (threshold : F) (s : PatternDetector F) : Prop where
  threshold : s.congestionThreshold = threshold
  fresh     : s.zoneHistory = ∅ → s.incidentCount = 0

theorem process_keeps (threshold : F) (clock : Clock F) (record : Record F) :
    (process clock record).Keeps (Reached threshold) := by
  unfold process
  refine Proc.keeps_lift_bind fun density => Proc.keeps_lift_bind fun key => ?_
  -- from here on the history has an entry
  refine Proc.keeps_modify_bind
    (J := fun s => s.congestionThreshold = threshold ∧ s.zoneHistory ≠ ∅) ?_ ?_ ?_
  · rintro s ⟨hthreshold, -⟩
    exact ⟨hthreshold, Dict.set_ne_empty _ _ _⟩
  · refine Proc.keeps_get_bind fun s _ => Proc.keeps_ite ?_ (Proc.keeps_pure _)
    exact Proc.keeps_write_bind (fun _ h => h) (Proc.keeps_pure _)
  · rintro s ⟨hthreshold, hne⟩
    exact ⟨hthreshold, fun h => absurd h hne⟩

theorem run_reached (operatorId : String) (threshold : F) (stream : List (Clock F × Record F)) :
    (operator.run (new operatorId threshold) stream).Reached threshold :=
  BaseOperator.run_keeps (C := operator) (process_keeps threshold) stream ⟨rfl, fun _ => rfl⟩

end PatternDetector

namespace RiskCheck

/-- The attributes of a risk check built for `category`. -/
structure Reached (category : String) (s : RiskCheck F) : Prop where
  riskCategory : s.riskCategory = .str category
  limit        : s.limit = categories.getD category 1000000.0
  total        : 0 ≤ s.totalChecked
  fresh        : s.totalChecked = 0 → s.breachCount = 0

theorem process_keeps (category : String) (clock : Clock F) (record : Record F) :
    (process clock record).Keeps (Reached category) := by
  unfold process
  refine Proc.keeps_lift_bind fun value => ?_
  refine Proc.keeps_modify_bind (J := fun s => s.riskCategory = .str category ∧
    s.limit = categories.getD category 1000000.0 ∧ 0 < s.totalChecked) ?_ ?_ ?_
  · rintro s ⟨hcategory, hlimit, htotal, -⟩
    exact ⟨hcategory, hlimit, by show 0 < s.totalChecked + 1; omega⟩
  · refine Proc.keeps_write_bind (fun _ h => h) ?_
    exact Proc.keeps_get_bind fun s _ => Proc.keeps_lift_bind fun ratio => Proc.keeps_pure _
  · rintro s ⟨hcategory, hlimit, htotal⟩
    exact ⟨hcategory, hlimit, by omega, fun h => by omega⟩

theorem run_reached (operatorId category : String) (stream : List (Clock F × Record F)) :
    (operator.run (new operatorId category) stream).Reached category :=
  BaseOperator.run_keeps (C := operator) (process_keeps category) stream
    ⟨rfl, rfl, Int.le_refl 0, fun _ => rfl⟩

end RiskCheck

namespace AnomalyDetector

/-- The attributes of an anomaly detector built with the given arguments. -/
structure Reached (metricClass : String) (alpha zThreshold : F) (s : AnomalyDetector F) : Prop where
  metricClass : s.metricClass = .str metricClass
  alpha       : s.alpha = alpha
  zThreshold  : s.zThreshold = zThreshold
  fresh       : s.recentZscores = [] → s.anomalyCount = 0

theorem process_keeps (metricClass : String) (alpha zThreshold : F) (clock : Clock F) (record : Record F) :
    (process clock record).Keeps (Reached metricClass alpha zThreshold) := by
  have hscore : ∀ (s : AnomalyDetector F) (z : F) (n : Int), s.Reached metricClass alpha zThreshold →
      Reached metricClass alpha zThreshold
        { s with recentZscores := dequeAppend 100 s.recentZscores z, anomalyCount := n } :=
    fun s z n ⟨hclass, halpha, hthreshold, _⟩ =>
      ⟨hclass, halpha, hthreshold, fun h => absurd h (dequeAppend_ne_nil (by decide) _ _)⟩
  unfold process
  refine Proc.keeps_lift_bind fun value => Proc.keeps_get_bind fun s _ => ?_
  refine Proc.keeps_write_bind
    (fun _ ⟨hclass, halpha, hthreshold, hfresh⟩ => ⟨hclass, halpha, hthreshold, hfresh⟩) ?_
  refine Proc.keeps_lift_bind fun square => ?_
  refine Proc.keeps_write_bind
    (fun _ ⟨hclass, halpha, hthreshold, hfresh⟩ => ⟨hclass, halpha, hthreshold, hfresh⟩) ?_
  refine Proc.keeps_get_bind fun s _ => ?_
  refine Proc.keeps_lift_bind fun std => Proc.keeps_lift_bind fun z => ?_
  refine Proc.keeps_write_bind (fun s hs => hscore s z _ hs) ?_
  exact Proc.keeps_get_bind fun s _ => Proc.keeps_pure _

theorem run_reached (operatorId metricClass : String) (alpha zThreshold : F)
    (stream : List (Clock F × Record F)) :
    (operator.run (new operatorId metricClass alpha zThreshold) stream).Reached metricClass alpha zThreshold :=
  BaseOperator.run_keeps (C := operator) (process_keeps metricClass alpha zThreshold) stream
    ⟨rfl, rfl, rfl, fun _ => rfl⟩

end AnomalyDetector

namespace StatAggregator

/-- The attributes of an aggregator built for `instrumentClass`. -/
structure Reached (instrumentClass : String) (s : StatAggregator F) : Prop where
  instrumentClass : s.instrumentClass = .str instrumentClass
  count           : 0 ≤ s.count
  fresh           : s.count = 0 →
    s.mean = 0.0 ∧ s.m2 = 0.0 ∧ s.min = PyRuntime.inf ∧ s.max = PyRuntime.negInf

theorem process_keeps (instrumentClass : String) (clock : Clock F) (record : Record F) :
    (process clock record).Keeps (Reached instrumentClass) := by
  unfold process
  refine Proc.keeps_lift_bind fun value => ?_
  refine Proc.keeps_modify_bind
    (J := fun s => s.instrumentClass = .str instrumentClass ∧ 0 < s.count) ?_ ?_ ?_
  · rintro s ⟨hclass, hcount, -⟩
    exact ⟨hclass, by show 0 < s.count + 1; omega⟩
  · refine Proc.keeps_get_bind fun s _ => Proc.keeps_lift_bind fun step => ?_
    refine Proc.keeps_write_bind (fun _ h => h) (Proc.keeps_write_bind (fun _ h => h) ?_)
    refine Proc.keeps_write_bind (fun _ h => h) ?_
    refine Proc.keeps_get_bind fun s _ => Proc.keeps_ite ?_ (Proc.keeps_pure _)
    exact Proc.keeps_lift_bind fun variance => Proc.keeps_lift_bind fun std => Proc.keeps_pure _
  · rintro s ⟨hclass, hcount⟩
    exact ⟨hclass, by omega, fun h => by omega⟩

theorem run_reached (operatorId instrumentClass : String) (stream : List (Clock F × Record F)) :
    (operator.run (new operatorId instrumentClass) stream).Reached instrumentClass :=
  BaseOperator.run_keeps (C := operator) (process_keeps instrumentClass) stream
    ⟨rfl, Int.le_refl 0, fun _ => ⟨rfl, rfl, rfl, rfl⟩⟩

end StatAggregator

namespace ComplianceLogger

/-- The attributes of a logger built for `domain`. -/
structure Reached (domain : String) (s : ComplianceLogger F) : Prop where
  domain : s.domain = .str domain
  logSeq : 0 ≤ s.logSeq
  fresh  : s.logSeq = 0 → s.eventCounts = ∅ ∧ s.firstEventTs = .none ∧ s.lastEventTs = .none

theorem process_keeps (domain : String) (clock : Clock F) (record : Record F) :
    (process clock record).Keeps (Reached domain) := by
  unfold process
  refine Proc.keeps_lift_bind fun ts => ?_
  refine Proc.keeps_modify_bind (J := fun s => s.domain = .str domain ∧ 0 < s.logSeq) ?_ ?_ ?_
  · rintro s ⟨hdomain, hseq, -⟩
    exact ⟨hdomain, by show 0 < s.logSeq + 1; omega⟩
  · refine Proc.keeps_write_bind (fun _ h => h) ?_
    exact Proc.keeps_get_bind fun s _ => Proc.keeps_pure _
  · rintro s ⟨hdomain, hseq⟩
    exact ⟨hdomain, by omega, fun h => by omega⟩

theorem run_reached (operatorId domain : String) (stream : List (Clock F × Record F)) :
    (operator.run (new operatorId domain) stream).Reached domain :=
  BaseOperator.run_keeps (C := operator) (process_keeps domain) stream
    ⟨rfl, Int.le_refl 0, fun _ => ⟨rfl, rfl, rfl⟩⟩

end ComplianceLogger

end Workloads
end HybridStream
