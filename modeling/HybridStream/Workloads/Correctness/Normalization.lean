import Mathlib.Analysis.Real.Sqrt
import HybridStream.Hea.Lifetime
import HybridStream.Lib.Moments
import HybridStream.Py.Reals
import HybridStream.Workloads.W1

/-!
# `Workloads.Correctness.Normalization` — the normalizer's statistics are those of its stream

The recurrence of `NormalizerOperator` keeps the count, the mean and, as count times variance, the squared
deviations of the values so far (`Follows`). The initial variance has the weight zero and is gone with the first
value. A hand-off carries the three attributes over, so the statistics go on across it.

The recurrence is Welford's with the variance in place of the summed squares, so the invariant multiplies it by the
count: for no values that product is zero, whatever the variance is.
-/

namespace HybridStream
namespace Workloads

open Lib Lib.Moments Py Hea

namespace Normalization

open NormalizerOperator (process getState restoreState new operator)

/-- The value a record is normalized by. -/
noncomputable def sensorValue (record : Record ℝ) : Except PyError ℝ :=
  (record.getD "sensor_value" (.float 0.0)).toFloat

/-- The sensor values of some records; a record without a number is rejected and has none. -/
noncomputable def sensorValues (records : List (Record ℝ)) : List ℝ :=
  records.filterMap (fun record => (sensorValue record).toOption)

/-- The divisor of a normalized value. -/
noncomputable def divisor (xs : List ℝ) : ℝ := Real.sqrt (max (populationVariance xs) 1e-9)

/-- What is put out for the last value `x` of `xs`. -/
noncomputable def normalized (zoneId : String) (record : Record ℝ) (xs : List ℝ) (x : ℝ) : Record ℝ :=
  record.update
    [ ("zone_id",          .str zoneId),
      ("normalized_value", .float ((x - mean xs) / divisor xs)),
      ("sensor_mean",      .float (mean xs)),
      ("sensor_std",       .float (divisor xs)) ]

/-- The attributes are the statistics of the values `xs`; of no values the variance is not one. -/
structure Follows (xs : List ℝ) (s : NormalizerOperator ℝ) : Prop where
  count    : s.count = xs.length
  mean     : s.mean = mean xs
  variance : xs.length * s.variance = sqDev xs

variable {xs : List ℝ} {s : NormalizerOperator ℝ} {record : Record ℝ}

theorem divisor_pos (xs : List ℝ) : 0 < divisor xs := by
  apply Real.sqrt_pos.mpr
  exact lt_max_of_lt_right (by norm_num)

theorem Follows.variance_eq (h : Follows xs s) (hne : xs ≠ []) : s.variance = populationVariance xs := by
  have hlength : (xs.length : ℝ) ≠ 0 := Nat.cast_ne_zero.mpr (mt List.length_eq_zero_iff.mp hne)
  apply eq_div_of_mul_eq hlength
  rw [mul_comm]
  exact h.variance

/-! ## One event

A value, by the library's update of mean and squared deviations; a hand-off, by what is exported and restored. -/

/-- **One value**: the recurrence of the code computes the statistics with one more value. -/
theorem exec_process (h : Follows xs s) (clock : Clock ℝ) {x : ℝ} (hx : sensorValue record = .ok x) :
    ∃ s', (process clock record).exec s = (.ok [normalized s.zoneId record (xs ++ [x]) x], s') ∧
      Follows (xs ++ [x]) s' := by
  have hvalue : (record.getD "sensor_value" (.float 0.0)).toFloat = .ok x := hx
  have hcount : s.count + 1 = ((xs ++ [x]).length : Int) := by
    rw [h.count, List.length_append, List.length_singleton, Nat.cast_succ]
  have hne : s.count + 1 ≠ 0 := by rw [h.count]; omega
  have hlength : ((s.count + 1 : Int) : ℝ) = xs.length + 1 := by
    rw [h.count, Int.cast_add, Int.cast_natCast, Int.cast_one]
  have hmean : s.mean + (x - s.mean) / ((s.count + 1 : Int) : ℝ) = mean (xs ++ [x]) := by
    rw [hlength, h.mean, mean_concat]
  have hweight : (floatOfInt (s.count + 1 - 1) : Except PyError ℝ) = .ok (xs.length : ℝ) := by
    rw [h.count, add_sub_cancel_right]
    show Except.ok (((xs.length : Int)) : ℝ) = _
    rw [Int.cast_natCast]
  have hvariance : (xs.length * s.variance + (x - s.mean) * (x - mean (xs ++ [x]))) / ((s.count + 1 : Int) : ℝ) =
      populationVariance (xs ++ [x]) := by
    rw [h.variance, h.mean, ← sqDev_concat, hcount, Int.cast_natCast, populationVariance]
  have hmax : (0 : ℝ) < max (populationVariance (xs ++ [x])) 1e-9 := lt_max_of_lt_right (by norm_num)
  have hsqrt : pySqrt (max (populationVariance (xs ++ [x])) 1e-9) = .ok (divisor (xs ++ [x])) :=
    Reals.pySqrt_eq hmax.le
  have hdiv : floatDiv (x - mean (xs ++ [x])) (divisor (xs ++ [x])) =
      .ok ((x - mean (xs ++ [x])) / divisor (xs ++ [x])) := Reals.floatDiv_eq (divisor_pos _).ne'
  unfold process
  simp only [Proc.exec_bind, Proc.exec_lift, Proc.exec_get, Proc.exec_modify, Proc.exec_pure, hvalue,
    Reals.floatDivInt_eq _ hne, hmean, hweight, hvariance, OrderedRuntime.pyMax_eq_max, hsqrt, hdiv]
  refine ⟨_, rfl, hcount, rfl, ?_⟩
  have hpos : ((xs ++ [x]).length : ℝ) ≠ 0 := Nat.cast_ne_zero.mpr (by simp)
  exact mul_div_cancel₀ _ hpos

/-- A record without a number leaves the attributes as they are. -/
theorem exec_process_error (s : NormalizerOperator ℝ) (clock : Clock ℝ) {e : PyError}
    (hx : sensorValue record = .error e) : (process clock record).exec s = (.error e, s) := by
  have hvalue : (record.getD "sensor_value" (.float 0.0)).toFloat = .error e := hx
  unfold process
  rw [hvalue]
  rfl

/-- Whatever instance takes over, it has the statistics of the one it takes over from. -/
theorem follows_handoff (h : Follows xs s) (clock : Clock ℝ) (fresh : NormalizerOperator ℝ) :
    Follows xs ((restoreState clock (getState s)).exec fresh).2 := by
  have hstate : ((restoreState clock (getState s)).exec fresh).2 =
      { s with operatorId := fresh.operatorId, zoneId := fresh.zoneId } := by
    simp [restoreState, getState, Proc.exec_bind, Dict.ofList, Dict.update, Dict.getD, Dict.get_set]
  rw [hstate]
  exact ⟨h.count, h.mean, h.variance⟩

/-! ## A lifetime

Both together over any events, for every variance that the first instance may begin with: the first value replaces
it. -/

theorem sensorValues_concat (past : List (Record ℝ)) (record : Record ℝ) :
    sensorValues (past ++ [record]) = sensorValues past ++ (sensorValue record).toOption.toList := by
  unfold sensorValues
  rw [List.filterMap_append, List.filterMap_cons, List.filterMap_nil]
  cases (sensorValue record).toOption with
  | none => rfl
  | some x => rfl

/-- Before the first value nothing is asked of the variance. -/
theorem new_follows (operatorId zoneId : String) (alpha initialVariance : ℝ) :
    Follows [] { new operatorId zoneId alpha with variance := initialVariance } where
  count    := rfl
  mean     := by
    rw [mean_nil]
    exact Reals.zero_eq
  variance := by
    rw [sqDev_nil, List.length_nil, Nat.cast_zero, zero_mul]

/-- **Every lifetime**: the attributes stay the statistics of the values. -/
theorem live_follows (h : Follows [] s) (events : List (LifeEvent ℝ (NormalizerOperator ℝ))) :
    Follows (sensorValues (LifeEvent.records events)) (operator.live s events) := by
  refine BaseOperator.live_follows (C := operator) (I := fun past _ s => Follows (sensorValues past) s) ?_ ?_ h
  · intro past _ s clock record _ hs
    rw [sensorValues_concat]
    show Follows _ ((process clock record).exec s).2
    cases hx : sensorValue record with
    | ok x =>
        obtain ⟨s', hexec, hs'⟩ := exec_process hs clock hx
        rw [hexec]
        exact hs'
    | error e =>
        rw [exec_process_error s clock hx]
        show Follows (_ ++ []) s
        rwa [List.append_nil]
  · intro past _ s clock fresh hs
    exact follows_handoff hs clock fresh

/-- **The statistics are those of the stream**, after any records and hand-offs, whatever the variance was to begin
    with: from the first value on, the arithmetic mean and the population variance. Every value is normalized with
    the statistics that include it, by a positive divisor. The values are those of the records that are accepted, which
    over `Py.Reals` are none of those that give theirs as text. -/
theorem statistics_of_stream (operatorId zoneId : String) (alpha initialVariance : ℝ)
    (events : List (LifeEvent ℝ (NormalizerOperator ℝ))) :
    let xs := sensorValues (LifeEvent.records events)
    let s := operator.live { new operatorId zoneId alpha with variance := initialVariance } events
    (xs ≠ [] → s.count = xs.length ∧ s.mean = xs.sum / xs.length ∧
      s.variance = (xs.map (fun x => (x - xs.sum / xs.length) ^ 2)).sum / xs.length ∧ 0 ≤ s.variance) ∧
    ∀ clock record x, sensorValue record = .ok x →
      ((process clock record).exec s).1 = .ok [normalized s.zoneId record (xs ++ [x]) x] ∧
        0 < divisor (xs ++ [x]) := by
  intro xs s
  have hs : Follows xs s := live_follows (new_follows operatorId zoneId alpha initialVariance) events
  constructor
  · intro hne
    have hvariance : s.variance = populationVariance xs := hs.variance_eq hne
    refine ⟨hs.count, hs.mean, hvariance, ?_⟩
    rw [hvariance]
    exact populationVariance_nonneg xs
  · intro clock record x hx
    obtain ⟨s', hexec, -⟩ := exec_process hs clock hx
    rw [hexec]
    exact ⟨rfl, divisor_pos _⟩

/-- A second instance takes over between two values. -/
noncomputable def handedOver : List (LifeEvent ℝ (NormalizerOperator ℝ)) :=
  [ .record ⟨0, fun _ => 0⟩ (Dict.ofList [("sensor_value", .int 3)]),
    .handoff ⟨0, fun _ => 0⟩ (new "norm-1" "zone_1" 0.5),
    .record ⟨0, fun _ => 0⟩ (Dict.ofList [("sensor_value", .int 5)]) ]

theorem statistics_of_stream_handedOver :
    (operator.live { new "norm-1" "zone_1" (0.01 : ℝ) with variance := 1.0 } handedOver).variance = 1 := by
  have hvalues : sensorValues (LifeEvent.records handedOver) = [((3 : Int) : ℝ), ((5 : Int) : ℝ)] := rfl
  have hne : sensorValues (LifeEvent.records handedOver) ≠ [] := by
    rw [hvalues]
    exact List.cons_ne_nil _ _
  obtain ⟨-, -, hvariance, -⟩ := (statistics_of_stream "norm-1" "zone_1" 0.01 1.0 handedOver).1 hne
  rw [hvariance, hvalues]
  norm_num

end Normalization

end Workloads
end HybridStream
