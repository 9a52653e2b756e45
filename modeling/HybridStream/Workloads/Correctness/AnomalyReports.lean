import HybridStream.Py.Reals
import HybridStream.Workloads.Correctness.Reached

/-!
# `Workloads.Correctness.AnomalyReports` — which thresholds an anomaly can pass

The squared deviation of a record enters the variance it is measured by, with the weight `alpha`. So a z-score
never reaches `1 / √alpha`, however far the record is off, and comes as close to it as one likes: a threshold can
be passed exactly if `alpha * z_threshold ^ 2 < 1`. Exact arithmetic over the reals.
-/

namespace HybridStream
namespace Workloads

open Lib Py Hea

namespace AnomalyDetector

/-- The variance with which a deviation `delta` is measured. -/
noncomputable def varianceWith (s : AnomalyDetector ℝ) (delta : ℝ) : ℝ :=
  (1 - s.alpha) * s.ewmaM2 + s.alpha * (delta * delta)

/-- The record is reported as an anomaly. -/
def Reports (s : AnomalyDetector ℝ) (clock : Clock ℝ) (record : Record ℝ) : Prop :=
  ∃ out, ((process clock record).exec s).1 = .ok [out] ∧ out.get "is_anomaly" = some (.bool true)

/-- What `process` does with a record of value `value`. -/
theorem exec_process {s : AnomalyDetector ℝ} (clock : Clock ℝ) {record : Record ℝ} {value : ℝ}
    (hvalue : (record.getD "value" (.float 0.0)).toFloat = .ok value) :
    ∃ out s', (process clock record).exec s = (.ok [out], s') ∧
      s'.ewmaM2 = s.varianceWith (value - s.ewmaMean) ∧
      out.get "is_anomaly" = some (.bool (PyRuntime.lt s.zThreshold
        (|value - s.ewmaMean| / Real.sqrt (max (s.varianceWith (value - s.ewmaMean)) 1e-12)))) := by
  have hmax : (0 : ℝ) < max (s.varianceWith (value - s.ewmaMean)) 1e-12 := lt_max_of_lt_right (by norm_num)
  have hstd : PyRuntime.lt 0.0 (Real.sqrt (max (s.varianceWith (value - s.ewmaMean)) 1e-12)) = true := by
    rw [Reals.zero_eq]
    exact OrderedRuntime.lt_iff.mpr (Real.sqrt_pos.mpr hmax)
  have hsquare : pySquare (value - s.ewmaMean) = .ok ((value - s.ewmaMean) * (value - s.ewmaMean)) := rfl
  have hsqrt := Reals.pySqrt_eq hmax.le
  have hdiv : floatDiv |value - s.ewmaMean| (Real.sqrt (max (s.varianceWith (value - s.ewmaMean)) 1e-12)) =
      .ok (|value - s.ewmaMean| / Real.sqrt (max (s.varianceWith (value - s.ewmaMean)) 1e-12)) :=
    Reals.floatDiv_eq (Real.sqrt_pos.mpr hmax).ne'
  have hvariance : (1.0 - s.alpha) * s.ewmaM2 + s.alpha * ((value - s.ewmaMean) * (value - s.ewmaMean)) =
      s.varianceWith (value - s.ewmaMean) := by
    unfold varianceWith
    norm_num
  unfold process
  simp only [Proc.exec_bind, Proc.exec_lift, Proc.exec_get, Proc.exec_modify, Proc.exec_pure, hvalue, hsquare,
    hvariance, OrderedRuntime.pyMax_eq_max, hsqrt, hstd, if_pos, Reals.pyAbs_eq, hdiv]
  have hnames : ["metric_class", "is_anomaly", "z_score", "ewma_mean", "ewma_std", "anomaly_count"].Nodup := by
    decide
  refine ⟨_, _, rfl, rfl, ?_⟩
  refine Dict.get_update_of_mem ?_ (List.mem_cons_of_mem _ List.mem_cons_self)
  exact hnames

/-- A record without a number for a value leaves the detector as it is. -/
theorem exec_process_error {s : AnomalyDetector ℝ} (clock : Clock ℝ) {record : Record ℝ} {e : PyError}
    (hvalue : (record.getD "value" (.float 0.0)).toFloat = .error e) :
    (process clock record).exec s = (.error e, s) := by
  unfold process
  rw [hvalue]
  rfl

/-- A z-score passes a positive threshold where the squared deviation exceeds its share of the variance. -/
theorem reports_iff_lt {s : AnomalyDetector ℝ} (hz : 0 < s.zThreshold) (clock : Clock ℝ) {record : Record ℝ}
    {value : ℝ} (hvalue : (record.getD "value" (.float 0.0)).toFloat = .ok value) :
    s.Reports clock record ↔
      s.zThreshold ^ 2 * max (s.varianceWith (value - s.ewmaMean)) 1e-12 < (value - s.ewmaMean) ^ 2 := by
  obtain ⟨out, s', hexec, -, hout⟩ := exec_process clock hvalue
  have hmax : (0 : ℝ) < max (s.varianceWith (value - s.ewmaMean)) 1e-12 := lt_max_of_lt_right (by norm_num)
  have hreports : s.Reports clock record ↔ s.zThreshold <
      |value - s.ewmaMean| / Real.sqrt (max (s.varianceWith (value - s.ewmaMean)) 1e-12) := by
    rw [← OrderedRuntime.lt_iff]
    unfold Reports
    rw [hexec]
    constructor
    · rintro ⟨out', hok, htrue⟩
      cases hok
      rw [hout] at htrue
      exact Value.bool.inj (Option.some.inj htrue)
    · intro hlt
      refine ⟨out, rfl, ?_⟩
      rw [hout, hlt]
  rw [hreports, lt_div_iff₀ (Real.sqrt_pos.mpr hmax)]
  have hleft : 0 ≤ s.zThreshold * Real.sqrt (max (s.varianceWith (value - s.ewmaMean)) 1e-12) := by positivity
  rw [← abs_of_nonneg hleft, ← sq_lt_sq, mul_pow, Real.sq_sqrt hmax.le]

/-! ## The attainable deviations

The deviation of a record enters the variance that it is then measured by, with the share `alpha`. So its score stays
below the inverse root of `alpha`, which it comes arbitrarily close to. -/

/-- The variance of a detector does not get negative. -/
theorem process_keeps_variance (metricClass : String) {alpha : ℝ} (zThreshold : ℝ) (hpos : 0 < alpha)
    (hlt : alpha < 1) (clock : Clock ℝ) (record : Record ℝ) :
    (process clock record).Keeps (fun s => s.Reached metricClass alpha zThreshold ∧ 0 ≤ s.ewmaM2) := by
  rintro s ⟨hreached, hvariance⟩
  refine ⟨process_keeps metricClass alpha zThreshold clock record s hreached, ?_⟩
  cases hvalue : (record.getD "value" (.float 0.0)).toFloat with
  | error e =>
      rw [exec_process_error clock hvalue]
      exact hvariance
  | ok value =>
      obtain ⟨out, s', hexec, hm2, -⟩ := exec_process clock hvalue
      rw [hexec, hm2]
      unfold varianceWith
      rw [hreached.alpha]
      exact add_nonneg (mul_nonneg (sub_pos.mpr hlt).le hvariance) (mul_nonneg hpos.le (mul_self_nonneg _))

section Bounds

variable {s : AnomalyDetector ℝ}

/-- The deviation's own share of the variance. -/
theorem share_le_varianceWith (hlt : s.alpha < 1) (hvariance : 0 ≤ s.ewmaM2) (delta : ℝ) :
    s.alpha * delta ^ 2 ≤ s.varianceWith delta := by
  unfold varianceWith
  rw [← pow_two]
  exact le_add_of_nonneg_left (mul_nonneg (sub_pos.mpr hlt).le hvariance)

/-- Where some deviation passes the threshold, its share does not reach it. -/
theorem threshold_of_bound (hlt : s.alpha < 1) (hz : 0 < s.zThreshold) (hvariance : 0 ≤ s.ewmaM2)
    (hbound : ∃ D, ∀ clock record value, (record.getD "value" (.float 0.0)).toFloat = .ok value →
      D < |value - s.ewmaMean| → s.Reports clock record) : s.alpha * s.zThreshold ^ 2 < 1 := by
  obtain ⟨D, hD⟩ := hbound
  let value := s.ewmaMean + (|D| + 1)
  let record : Record ℝ := Dict.ofList [("value", .float value)]
  have hdelta : value - s.ewmaMean = |D| + 1 := by show s.ewmaMean + (|D| + 1) - s.ewmaMean = _; ring
  have hfar : D < |value - s.ewmaMean| := by
    rw [hdelta, abs_of_pos (by positivity)]
    exact (le_abs_self D).trans_lt (lt_add_one _)
  have hvalue : (record.getD "value" (.float 0.0)).toFloat = .ok value := rfl
  have hreports := hD ⟨0, fun _ => 0⟩ record value hvalue hfar
  rw [reports_iff_lt hz _ hvalue, hdelta] at hreports
  have hd : 0 < (|D| + 1) ^ 2 := by positivity
  have hshare : s.alpha * (|D| + 1) ^ 2 ≤ max (s.varianceWith (|D| + 1)) 1e-12 :=
    le_max_of_le_left (share_le_varianceWith hlt hvariance _)
  have hle := mul_le_mul_of_nonneg_left hshare (sq_nonneg s.zThreshold)
  have hscaled : s.alpha * s.zThreshold ^ 2 * (|D| + 1) ^ 2 < 1 * (|D| + 1) ^ 2 := by
    calc s.alpha * s.zThreshold ^ 2 * (|D| + 1) ^ 2 = s.zThreshold ^ 2 * (s.alpha * (|D| + 1) ^ 2) := by ring
      _ ≤ s.zThreshold ^ 2 * max (s.varianceWith (|D| + 1)) 1e-12 := hle
      _ < 1 * (|D| + 1) ^ 2 := by rw [one_mul]; exact hreports
  exact lt_of_mul_lt_mul_right hscaled hd.le

/-- Where the share does not reach it, all deviations that are large enough pass the threshold. -/
theorem bound_of_threshold (hlt : s.alpha < 1) (hz : 0 < s.zThreshold) (hvariance : 0 ≤ s.ewmaM2)
    (hthreshold : s.alpha * s.zThreshold ^ 2 < 1) :
    ∃ D, ∀ clock record value, (record.getD "value" (.float 0.0)).toFloat = .ok value →
      D < |value - s.ewmaMean| → s.Reports clock record := by
  have hsq := sq_nonneg s.zThreshold
  have hrest : 0 < 1 - s.alpha * s.zThreshold ^ 2 := sub_pos.mpr hthreshold
  let floor := s.zThreshold ^ 2 * ((1 - s.alpha) * s.ewmaM2) / (1 - s.alpha * s.zThreshold ^ 2)
  have hfloor : 0 ≤ floor := div_nonneg (mul_nonneg hsq (mul_nonneg (sub_pos.mpr hlt).le hvariance)) hrest.le
  refine ⟨floor + s.zThreshold ^ 2 + 1, fun clock record value hvalue hfar => ?_⟩
  rw [reports_iff_lt hz _ hvalue, mul_max_of_nonneg _ _ hsq]
  have hone : 1 < |value - s.ewmaMean| := by linarith
  have hsquare : floor + s.zThreshold ^ 2 + 1 < (value - s.ewmaMean) ^ 2 := by
    rw [← sq_abs (value - s.ewmaMean)]
    exact hfar.trans (lt_self_pow₀ hone Nat.one_lt_two)
  apply max_lt
  · have hdiv : floor < (value - s.ewmaMean) ^ 2 := by linarith
    rw [div_lt_iff₀ hrest] at hdiv
    unfold varianceWith
    rw [← pow_two]
    linarith
  · have hsmall : s.zThreshold ^ 2 * 1e-12 ≤ s.zThreshold ^ 2 := mul_le_of_le_one_right hsq (by norm_num)
    linarith

end Bounds

/-- **How far a record must be off.** Below `1 / √alpha` every threshold is passed by all deviations that are
    large enough, from there on by none. -/
theorem exists_bound_iff {s : AnomalyDetector ℝ} {alpha zThreshold : ℝ} (halpha : s.alpha = alpha)
    (hthreshold : s.zThreshold = zThreshold) (hlt : alpha < 1) (hz : 0 < zThreshold) (hvariance : 0 ≤ s.ewmaM2) :
    (∃ D, ∀ clock record value, (record.getD "value" (.float 0.0)).toFloat = .ok value →
      D < |value - s.ewmaMean| → s.Reports clock record) ↔ alpha * zThreshold ^ 2 < 1 := by
  subst halpha hthreshold
  exact ⟨threshold_of_bound hlt hz hvariance, bound_of_threshold hlt hz hvariance⟩

/-- What is reached from a new detector. -/
theorem run_variance (operatorId metricClass : String) {alpha : ℝ} (zThreshold : ℝ) (hpos : 0 < alpha)
    (hlt : alpha < 1) (stream : List (Clock ℝ × Record ℝ)) :
    (operator.run (new operatorId metricClass alpha zThreshold) stream).Reached metricClass alpha zThreshold ∧
      0 ≤ (operator.run (new operatorId metricClass alpha zThreshold) stream).ewmaM2 := by
  refine BaseOperator.run_keeps (C := operator) (process_keeps_variance metricClass zThreshold hpos hlt) stream ?_
  refine ⟨⟨rfl, rfl, rfl, fun _ => rfl⟩, ?_⟩
  show (0 : ℝ) ≤ 1.0
  norm_num

/-- **An anomaly can be reported exactly if `alpha * z_threshold ^ 2 < 1`**: then, in every state a detector
    reaches, every record that is off by more than some bound is, and otherwise there is no such bound. The deviation
    enters the variance before it is measured by it, so the score of a growing deviation tends to the inverse root of
    `alpha` from below; the condition says that this limit exceeds the threshold. (Records give the value as a number:
    `Py.Reals` reads none from text.) -/
theorem reports_iff (operatorId metricClass : String) {alpha zThreshold : ℝ} (hpos : 0 < alpha) (hlt : alpha < 1)
    (hz : 0 < zThreshold) (stream : List (Clock ℝ × Record ℝ)) :
    (∃ D, ∀ clock record value, (record.getD "value" (.float 0.0)).toFloat = .ok value →
      D < |value - (operator.run (new operatorId metricClass alpha zThreshold) stream).ewmaMean| →
      (operator.run (new operatorId metricClass alpha zThreshold) stream).Reports clock record) ↔
      alpha * zThreshold ^ 2 < 1 := by
  obtain ⟨hreached, hvariance⟩ := run_variance operatorId metricClass zThreshold hpos hlt stream
  exact exists_bound_iff hreached.alpha hreached.zThreshold hlt hz hvariance

/-- The threshold of the outlier test can be passed. -/
theorem reports_iff_test : ∃ D, ∀ clock record value, (record.getD "value" (.float 0.0)).toFloat = .ok value →
    D < |value - (operator.run (new "anomaly-1" "price_deviation" 0.2 1.5 : AnomalyDetector ℝ) []).ewmaMean| →
    (operator.run (new "anomaly-1" "price_deviation" 0.2 1.5 : AnomalyDetector ℝ) []).Reports clock record :=
  (reports_iff "anomaly-1" "price_deviation" (by norm_num) (by norm_num) (by norm_num) []).mpr (by norm_num)

/-- The default threshold cannot be passed by a new detector's first record. -/
theorem default_never_reports :
    ¬ ∃ D, ∀ clock record value, (record.getD "value" (.float 0.0)).toFloat = .ok value →
      D < |value - (new "anomaly-1" "price_deviation" 0.2 3.0 : AnomalyDetector ℝ).ewmaMean| →
      (new "anomaly-1" "price_deviation" 0.2 3.0 : AnomalyDetector ℝ).Reports clock record := by
  have hvariance : (0 : ℝ) ≤ (new "anomaly-1" "price_deviation" 0.2 3.0 : AnomalyDetector ℝ).ewmaM2 := by
    show (0 : ℝ) ≤ 1.0
    norm_num
  rw [exists_bound_iff rfl rfl (show (0.2 : ℝ) < 1 by norm_num) (show (0 : ℝ) < 3.0 by norm_num) hvariance]
  show ¬ (0.2 : ℝ) * 3.0 ^ 2 < 1
  norm_num

end AnomalyDetector

end Workloads
end HybridStream
