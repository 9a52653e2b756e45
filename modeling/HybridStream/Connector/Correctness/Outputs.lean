import HybridStream.Connector.OperatorFactory
import HybridStream.Workloads.W1
import HybridStream.Workloads.W2
import HybridStream.Workloads.W3

/-!
# `Connector.Correctness.Outputs` — what the Python operators put out

For each operator class, the records of a `process` call that returned. Five classes put out the record they
were given with entries of their own (`process_eq_ok`), the values in closed form. The other six put out
records of their own making, or none, and for each of them there is a name none of these records has
(`process_lacks`).

The forms are those of calls that returned: the arithmetic in them did not raise, and what that means for a division
or a root is said first. They are used to compare each operator with its Java counterpart, entry by entry.
-/

namespace HybridStream
namespace Workloads

open Lib Py Hea Connector

variable {F : Type} [PyRuntime F]

/-! ## Arithmetic that returned

A division that returned had a divisor that is not zero, and its value is the quotient; likewise for the other
operations that may raise. With these the outputs of a call that returned can be read off its statements. -/

theorem eq_of_floatOfInt {i : Int} {x : F} (h : floatOfInt i = .ok x) : x = doubleOf i := by
  unfold floatOfInt at h
  unfold doubleOf
  cases hx : PyRuntime.ofInt (F := F) i with
  | some y => rw [hx] at h; exact (Except.ok.inj h).symm
  | none   => rw [hx] at h; cases h

theorem eq_of_floatDiv {x y z : F} (h : floatDiv x y = .ok z) : z = x / y := by
  unfold floatDiv at h
  split at h
  · cases h
  · exact (Except.ok.inj h).symm

/-- A division that is guarded against its divisor. -/
theorem eq_of_guardedDiv {x y z : F} {guard : Bool} (h : (if guard then floatDiv x y else .ok 0.0) = .ok z) :
    z = if guard then x / y else 0.0 := by
  cases guard with
  | true  => exact eq_of_floatDiv h
  | false => exact (Except.ok.inj h).symm

theorem eq_of_floatDivInt {x z : F} {i : Int} (h : floatDivInt x i = .ok z) : z = x / doubleOf i := by
  obtain ⟨y, hy, h⟩ := bind_eq_ok.mp h
  rw [← eq_of_floatOfInt hy]
  exact eq_of_floatDiv h

theorem eq_of_pySqrt {x y : F} (h : pySqrt x = .ok y) : y = PyRuntime.sqrt x := by
  unfold pySqrt at h
  split at h
  · cases h
  · exact (Except.ok.inj h).symm

theorem eq_of_pySquare {x y : F} (h : pySquare x = .ok y) : PyRuntime.sq x = some y := by
  unfold pySquare at h
  cases hx : PyRuntime.sq x with
  | some z => rw [hx] at h; exact congrArg some (Except.ok.inj h)
  | none   => rw [hx] at h; cases h

variable {record : Record F} {outs : List (Record F)}

/-! ## The five that enrich the record

What such an operator puts out is the record with some entries written over it, each given by the attributes before
the call. -/

namespace NormalizerOperator

variable {s t : NormalizerOperator F}

/-- The running mean with one more value. -/
def nextMean (s : NormalizerOperator F) (value : F) : F := s.mean + (value - s.mean) / doubleOf (s.count + 1)

/-- The running variance with one more value. -/
def nextVariance (s : NormalizerOperator F) (value : F) : F :=
  (doubleOf s.count * s.variance + (value - s.mean) * (value - s.nextMean value)) / doubleOf (s.count + 1)

/-- The deviation with one more value. -/
def nextStd (s : NormalizerOperator F) (value : F) : F := PyRuntime.sqrt (pyMax (s.nextVariance value) 1e-9)

theorem process_eq_ok (clock : Clock F) (h : (process clock record).exec s = (.ok outs, t)) :
    ∃ value, (record.getD "sensor_value" (.float 0.0)).toFloat = .ok value ∧
      outs = [record.update
        [ ("zone_id",          .str s.zoneId),
          ("normalized_value", .float ((value - s.nextMean value) / s.nextStd value)),
          ("sensor_mean",      .float (s.nextMean value)),
          ("sensor_std",       .float (s.nextStd value)) ]] := by
  unfold process at h
  simp only [Proc.exec_lift_bind_eq_ok, Proc.exec_modify_bind, Proc.exec_get_bind] at h
  obtain ⟨value, hvalue, step, hstep, weight, hweight, variance, hvariance, std, hstd, normalized, hnormalized,
    h⟩ := h
  -- each step that returned has the value its formula gives
  cases eq_of_floatDivInt hstep
  rw [Int.add_sub_cancel] at hweight
  cases eq_of_floatOfInt hweight
  cases eq_of_floatDivInt hvariance
  cases eq_of_pySqrt hstd
  cases eq_of_floatDiv hnormalized
  cases h
  exact ⟨value, hvalue, rfl⟩

end NormalizerOperator

namespace BinaryClassifier

variable {s t : BinaryClassifier F}

/-- The score of a record: the mean of the zones' maxima. -/
def scoreOf (record : Record F) : Except PyError F :=
  let zoneMaxes := (record.entries.filter (fun e => e.1.endsWith "_max")).map Prod.snd
  if zoneMaxes.isEmpty then .ok 0.0 else Value.meanOf zoneMaxes zoneMaxes.length

/-- The confidence in the label a score gets. -/
def confidence (s : BinaryClassifier F) (score : F) : F :=
  if PyRuntime.le s.threshold score then score else 1.0 - score

theorem process_eq_ok (clock : Clock F) (h : (process clock record).exec s = (.ok outs, t)) :
    ∃ score, scoreOf record = .ok score ∧
      outs = [record.update
        [ ("label",      .int (if PyRuntime.le s.threshold score then 1 else 0)),
          ("score",      .float (PyRuntime.round score 4)),
          ("confidence", .float (PyRuntime.round (s.confidence score) 4)),
          ("threshold",  .float s.threshold) ]] := by
  unfold process at h
  simp only [Proc.exec_lift_bind_eq_ok, Proc.exec_get_bind] at h
  obtain ⟨score, hscore, h⟩ := h
  refine ⟨score, hscore, ?_⟩
  cases h
  unfold confidence
  cases PyRuntime.le s.threshold score with
  | true  => rfl
  | false => rfl

end BinaryClassifier

namespace RiskCheck

variable {s t : RiskCheck F}

/-- The breach count with one more exposure. -/
def nextBreachCount (s : RiskCheck F) (exposure : F) : Int :=
  if PyRuntime.lt s.limit exposure then s.breachCount + 1 else s.breachCount

theorem process_eq_ok (clock : Clock F) (h : (process clock record).exec s = (.ok outs, t)) :
    ∃ value, (record.getD "exposure" (.float 0.0)).toFloat = .ok value ∧
      outs = [record.update
        [ ("risk_category",  s.riskCategory),
          ("limit",          .float s.limit),
          ("exposure",       .float (pyMax 0.0 value)),
          ("risk_exceeded",  .bool (PyRuntime.lt s.limit (pyMax 0.0 value))),
          ("exposure_ratio", .float (if PyRuntime.lt 0.0 s.limit then pyMax 0.0 value / s.limit else 0.0)),
          ("breach_count",   .int (s.nextBreachCount (pyMax 0.0 value))) ]] := by
  unfold process at h
  simp only [Proc.exec_lift_bind_eq_ok, Proc.exec_modify_bind, Proc.exec_get_bind] at h
  obtain ⟨value, hvalue, ratio, hratio, h⟩ := h
  refine ⟨value, hvalue, ?_⟩
  rw [← eq_of_guardedDiv hratio]
  cases h
  rfl

end RiskCheck

namespace AnomalyDetector

variable {s t : AnomalyDetector F}

/-- The weighted mean with one more value. -/
def nextMean (s : AnomalyDetector F) (value : F) : F := (1.0 - s.alpha) * s.ewmaMean + s.alpha * value

/-- The weighted deviation with one more squared distance from the mean. -/
def nextStd (s : AnomalyDetector F) (square : F) : F :=
  PyRuntime.sqrt (pyMax ((1.0 - s.alpha) * s.ewmaM2 + s.alpha * square) 1e-12)

/-- The distance of a value from the mean before it, in deviations. -/
def zScore (s : AnomalyDetector F) (value square : F) : F :=
  if PyRuntime.lt 0.0 (s.nextStd square) then pyAbs (value - s.ewmaMean) / s.nextStd square else 0.0

/-- The anomaly count with one more score. -/
def nextAnomalyCount (s : AnomalyDetector F) (z : F) : Int :=
  if PyRuntime.lt s.zThreshold z then s.anomalyCount + 1 else s.anomalyCount

theorem process_eq_ok (clock : Clock F) (h : (process clock record).exec s = (.ok outs, t)) :
    ∃ value square, (record.getD "value" (.float 0.0)).toFloat = .ok value ∧
      PyRuntime.sq (value - s.ewmaMean) = some square ∧
      outs = [record.update
        [ ("metric_class",  s.metricClass),
          ("is_anomaly",    .bool (PyRuntime.lt s.zThreshold (s.zScore value square))),
          ("z_score",       .float (PyRuntime.round (s.zScore value square) 4)),
          ("ewma_mean",     .float (PyRuntime.round (s.nextMean value) 6)),
          ("ewma_std",      .float (PyRuntime.round (s.nextStd square) 6)),
          ("anomaly_count", .int (s.nextAnomalyCount (s.zScore value square))) ]] := by
  unfold process at h
  simp only [Proc.exec_lift_bind_eq_ok, Proc.exec_modify_bind, Proc.exec_get_bind] at h
  obtain ⟨value, hvalue, square, hsquare, std, hstd, z, hz, h⟩ := h
  refine ⟨value, square, hvalue, eq_of_pySquare hsquare, ?_⟩
  cases eq_of_pySqrt hstd
  have hz' : z = s.zScore value square := eq_of_guardedDiv hz
  rw [← hz']
  cases h
  rfl

end AnomalyDetector

namespace ComplianceLogger

variable {s t : ComplianceLogger F}

/-- The event counts with one more event. -/
def nextCounts (s : ComplianceLogger F) (eventType : String) : Dict String Int :=
  s.eventCounts.set eventType (s.eventCounts.getD eventType 0 + 1)

theorem process_eq_ok (clock : Clock F) (h : (process clock record).exec s = (.ok outs, t)) :
    outs = [record.update
      [ ("compliance_domain", s.domain),
        ("log_sequence",      .int (s.logSeq + 1)),
        ("compliance_logged", .bool true),
        ("event_type_counts", countsValue
          { s with eventCounts := s.nextCounts (record.getD "event_type" (.str "unknown")).toStr }),
        ("logged_at",         .float (clock.time 1)) ]] := by
  unfold process at h
  simp only [Proc.exec_lift_bind_eq_ok, Proc.exec_modify_bind, Proc.exec_get_bind] at h
  obtain ⟨ts, -, h⟩ := h
  cases h
  rfl

end ComplianceLogger

/-! ## The six that put out records of their own

Their outputs are displays, so the names in them are known; that a certain name is not among them is all that is
needed. -/

omit [PyRuntime F] in
/-- The one record of a display has no other names. -/
theorem display_lacks {es : List (String × Value F)} {name : String} (h : name ∉ es.map Prod.fst) :
    ∀ out ∈ [(Dict.ofList es : Record F)], out.get name = none := by
  intro out hmem
  rw [List.mem_singleton.mp hmem]
  exact Dict.get_ofList_of_not_mem h

omit [PyRuntime F] in
theorem none_lack {name : String} : ∀ out ∈ ([] : List (Record F)), out.get name = none :=
  fun _ hmem => absurd hmem List.not_mem_nil

namespace FeatureAggWindow

variable {s t : FeatureAggWindow F}

theorem process_lacks (clock : Clock F) (h : (process clock record).exec s = (.ok outs, t)) :
    ∀ out ∈ outs, out.get "sum" = none := by
  unfold process at h
  simp only [Proc.exec_lift_bind_eq_ok, Proc.exec_modify_bind, Proc.exec_get_bind] at h
  obtain ⟨value, -, h⟩ := h
  split at h
  · cases h
    exact none_lack
  · simp only [Proc.exec_lift_bind_eq_ok, Proc.exec_modify_bind] at h
    obtain ⟨out, hout, h⟩ := h
    cases h
    -- an emission: `aggregate` is a display of other names
    unfold aggregate at hout
    split at hout
    · cases hout
    · obtain ⟨p95, -, hout⟩ := bind_eq_ok.mp hout
      obtain ⟨stdev, -, hout⟩ := bind_eq_ok.mp hout
      cases hout
      exact display_lacks (by simp)

end FeatureAggWindow

namespace MultiStreamJoin

variable {s t : MultiStreamJoin F}

/-- A name that ends in one letter is not one that ends in another. -/
theorem ne_append {name a b : String} (hlast : name.toList.getLast? ≠ b.toList.getLast?) (hb : b.toList ≠ []) :
    name ≠ a ++ b := by
  rintro rfl
  apply hlast
  rw [String.toList_append, List.getLast?_append_of_ne_nil _ hb]

theorem emitJoin_lacks (clock : Clock F) (s : MultiStreamJoin F) :
    (s.emitJoin clock).get "joined_records" = none := by
  unfold emitJoin
  -- each zone adds three names, by their last letters none of them this one
  have hzones : ∀ (es : List (Value F × Record F)) (merged : Record F),
      merged.get "joined_records" = none →
      (es.foldl (fun merged e => merged.update
        [ (s!"{e.1.toStr}_mean", e.2.getD "agg_mean" (.float 0.0)),
          (s!"{e.1.toStr}_max",  e.2.getD "agg_max" (.float 0.0)),
          (s!"{e.1.toStr}_p95",  e.2.getD "agg_p95" (.float 0.0)) ]) merged).get "joined_records" = none := by
    intro es
    induction es with
    | nil => exact fun merged h => h
    | cons e es ih =>
        intro merged h
        rw [List.foldl_cons]
        apply ih
        rw [Dict.get_update_of_not_mem]
        · exact h
        · have hmean : "joined_records" ≠ e.1.toStr ++ "_mean" := ne_append (by decide) (by decide)
          have hmax : "joined_records" ≠ e.1.toStr ++ "_max" := ne_append (by decide) (by decide)
          have hp95 : "joined_records" ≠ e.1.toStr ++ "_p95" := ne_append (by decide) (by decide)
          simp [toString, hmean, hmax, hp95]
  exact hzones _ _ (Dict.get_ofList_of_not_mem (by simp))

theorem process_lacks (clock : Clock F) (h : (process clock record).exec s = (.ok outs, t)) :
    ∀ out ∈ outs, out.get "joined_records" = none := by
  unfold process at h
  simp only [Proc.exec_lift_bind_eq_ok, Proc.exec_modify_bind, Proc.exec_get_bind] at h
  obtain ⟨zoneId, -, h⟩ := h
  split at h
  · cases h
    intro out hmem
    rw [List.mem_singleton.mp hmem]
    exact emitJoin_lacks clock _
  · cases h
    exact none_lack

end MultiStreamJoin

namespace VehicleDetector

variable {s t : VehicleDetector F}

theorem process_lacks (clock : Clock F) (h : (process clock record).exec s = (.ok outs, t)) :
    ∀ out ∈ outs, out.get "confidence_score" = none := by
  unfold process at h
  simp only [Proc.exec_lift_bind_eq_ok, Proc.exec_modify_bind, Proc.exec_get_bind] at h
  obtain ⟨sample, -, headway, -, h⟩ := h
  cases h
  exact display_lacks (by simp)

end VehicleDetector

namespace ZoneAggregator

variable {s t : ZoneAggregator F}

theorem process_lacks (clock : Clock F) (h : (process clock record).exec s = (.ok outs, t)) :
    ∀ out ∈ outs, out.get "vehicle_count" = none := by
  unfold process at h
  extract_lets sensorId detected now emission at h
  -- with or without a detection, the same emission follows
  have hemission : ∀ u, (emission ⟨⟩).exec u = (.ok outs, t) → ∀ out ∈ outs, out.get "vehicle_count" = none := by
    intro u h
    change Proc.exec (get >>= _) u = _ at h
    rw [Proc.exec_get_bind] at h
    split at h
    · simp only [Proc.exec_lift_bind_eq_ok, Proc.exec_modify_bind] at h
      obtain ⟨density, -, h⟩ := h
      cases h
      exact display_lacks (by simp)
    · cases h
      exact none_lack
  split at h
  · simp only [Proc.exec_lift_bind_eq_ok, Proc.exec_modify_bind] at h
    obtain ⟨key, -, h⟩ := h
    exact hemission _ h
  · exact hemission s h

end ZoneAggregator

namespace PatternDetector

variable {s t : PatternDetector F}

theorem process_lacks (clock : Clock F) (h : (process clock record).exec s = (.ok outs, t)) :
    ∀ out ∈ outs, out.get "pattern_detected" = none := by
  unfold process at h
  simp only [Proc.exec_lift_bind_eq_ok, Proc.exec_modify_bind, Proc.exec_get_bind] at h
  obtain ⟨density, -, key, -, h⟩ := h
  split at h
  · cases h
    exact display_lacks (by simp)
  · cases h
    exact none_lack

end PatternDetector

namespace StatAggregator

variable {s t : StatAggregator F}

theorem process_lacks (clock : Clock F) (h : (process clock record).exec s = (.ok outs, t)) :
    ∀ out ∈ outs, out.get "sum" = none := by
  unfold process at h
  simp only [Proc.exec_lift_bind_eq_ok, Proc.exec_modify_bind, Proc.exec_get_bind] at h
  obtain ⟨value, -, step, -, h⟩ := h
  split at h
  · simp only [Proc.exec_lift_bind_eq_ok] at h
    obtain ⟨variance, -, std, -, h⟩ := h
    cases h
    exact display_lacks (by simp)
  · cases h
    exact none_lack

end StatAggregator

end Workloads
end HybridStream
