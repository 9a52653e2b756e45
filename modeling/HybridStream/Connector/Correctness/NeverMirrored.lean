import HybridStream.Connector.Correctness.Mirror
import HybridStream.Py.Doubles
import HybridStream.Workloads.Correctness.Resume

/-!
# `Connector.Correctness.NeverMirrored` — no exported state is mirrored

`Connector.Correctness.Mirror` decides one sequence of records; here all sequences are at stake. Each of the five
operators that enrich a record writes a name that its Java counterpart does not write, so on records that have not
been through such an operator before (`Plain`) the outputs can only be alike where Python puts out none at all. That
leaves the question whether Python can be kept from putting anything out, and for that a reachable state is needed:
`Sound` is what construction, `process` and `restore_state` keep, and from a sound state at least one of two plain
records is processed.

The one exception is a counter: two operators divide by the number of records they have seen, and past the greatest
double that division raises, on every record to come (`CountedOut`).
-/

namespace HybridStream
namespace Workloads

open Lib Py Hea Connector SideBySide

variable {F : Type}

/-! ## A record that returns

An instance `Accepts` a record if the first or the second call on it returns. Two calls are needed because three
operators may raise while they emit; they have reset or advanced what made them emit by then, so that the next call
returns without emitting anything. -/

section Accepts

variable {σ : Type}

/-- One of two calls on the record returns. -/
def Accepts (C : BaseOperator F σ) (clock : Clock F) (s : σ) (record : Record F) : Prop :=
  ((C.process clock record).exec s).1.isOk = true ∨
    ((C.process clock record).exec ((C.process clock record).exec s).2).1.isOk = true

variable {C : BaseOperator F σ} {clock : Clock F} {s : σ} {record : Record F} {outs : List (Record F)}

theorem accepts_of_returned (h : ((C.process clock record).exec s).1 = .ok outs) : Accepts C clock s record :=
  Or.inl (by rw [h]; rfl)

theorem accepts_of_second
    (h : ((C.process clock record).exec ((C.process clock record).exec s).2).1 = .ok outs) :
    Accepts C clock s record := Or.inr (by rw [h]; rfl)

end Accepts

variable [PyRuntime F]

/-! ## The counters

`NormalizerOperator` and `StatAggregator` divide by their count. They return as long as it converts, and once it does
not they have no further output; `CountedOut` is where the next record's count does not convert. -/

namespace NormalizerOperator

/-- The next count is too large for a double. -/
def CountedOut (s : NormalizerOperator F) : Prop := PyRuntime.ofInt (F := F) (s.count + 1) = none

variable [Doubles F]

theorem accepts (clock : Clock F) {s : NormalizerOperator F} (hcount : 0 ≤ s.count) (h : ¬ s.CountedOut) :
    Accepts operator clock s ∅ := by
  have hnext : ∀ x : F, ∃ y, floatDivInt x (s.count + 1) = .ok y := fun x =>
    Doubles.floatDivInt_of_pos x (by omega) h
  have hweight : ∃ weight, floatOfInt (F := F) (s.count + 1 - 1) = .ok weight := by
    rw [Int.add_sub_cancel]
    exact Doubles.floatOfInt_of_ne_none fun hnone => h (Doubles.ofInt_mono hcount (by omega) hnone)
  obtain ⟨weight, hweight⟩ := hweight
  obtain ⟨step, hstep⟩ := hnext (0.0 - s.mean)
  obtain ⟨variance, hvariance⟩ := hnext (weight * s.variance + (0.0 - s.mean) * (0.0 - (s.mean + step)))
  have hvalue : ((∅ : Record F).getD "sensor_value" (.float 0.0)).toFloat = .ok 0.0 := rfl
  apply accepts_of_returned
  show ((process clock ∅).exec s).1 = _
  unfold process
  rw [hvalue]
  simp only [Proc.exec_bind, Proc.exec_lift, Proc.exec_get, Proc.exec_modify, hstep, hweight, hvariance,
    Doubles.pySqrt_bounded Doubles.small_pos.1, Doubles.floatDiv_sqrt_bounded _ Doubles.small_pos.1]
  rfl

/-- **Counted out, every record raises**, and the count is out of range for the next one as well. -/
theorem process_of_countedOut (clock : Clock F) (record : Record F) {s : NormalizerOperator F}
    (hcount : 0 ≤ s.count) (h : s.CountedOut) :
    ((process clock record).exec s).1.isOk = false ∧ 0 ≤ ((process clock record).exec s).2.count ∧
      ((process clock record).exec s).2.CountedOut := by
  unfold process
  cases (record.getD "sensor_value" (.float 0.0)).toFloat with
  | error e => exact ⟨rfl, hcount, h⟩
  | ok value =>
      obtain ⟨e, he⟩ := Doubles.floatDivInt_of_overflow (value - s.mean) h
      simp only [Proc.exec_bind, Proc.exec_lift, Proc.exec_get, Proc.exec_modify, he]
      exact ⟨rfl, by omega, Doubles.ofInt_mono (by omega) (by simp) h⟩

omit [Doubles F] in
theorem process_keeps_count (clock : Clock F) (record : Record F) :
    (process clock record).Keeps (fun s => 0 ≤ s.count) := by
  unfold process
  refine Proc.keeps_lift_bind fun value => ?_
  refine Proc.keeps_write_bind (fun s hs => Int.add_nonneg hs Int.one_nonneg) ?_
  refine Proc.keeps_get_bind fun s _ => Proc.keeps_lift_bind fun step => ?_
  refine Proc.keeps_write_bind (fun _ h => h) ?_
  refine Proc.keeps_get_bind fun s _ => ?_
  refine Proc.keeps_lift_bind fun weight => Proc.keeps_lift_bind fun variance => ?_
  refine Proc.keeps_write_bind (fun _ h => h) ?_
  refine Proc.keeps_get_bind fun s _ => ?_
  refine Proc.keeps_lift_bind fun std => Proc.keeps_lift_bind fun normalized => ?_
  exact Proc.keeps_pure _

omit [Doubles F] in
theorem restore_keeps_count (clock : Clock F) {s : NormalizerOperator F} (hs : 0 ≤ s.count) :
    (restoreState clock s.getState).Keeps (fun t => 0 ≤ t.count) := by
  have hcount : s.getState.getD "count" (.int 0) = .int s.count := by
    simp [getState, Dict.ofList, Dict.update, Dict.getD, Dict.get_set]
  unfold restoreState
  rw [hcount]
  refine Proc.keeps_lift_bind fun mean => Proc.keeps_write_bind (fun _ h => h) ?_
  refine Proc.keeps_lift_bind fun variance => Proc.keeps_write_bind (fun _ h => h) ?_
  refine Proc.keeps_lift_bind_of_ok fun count hread => ?_
  cases hread
  refine Proc.keeps_write_bind (fun _ _ => hs) ?_
  exact Proc.keeps_lift_bind fun alpha => Proc.keeps_modify (fun _ h => h)

end NormalizerOperator

namespace StatAggregator

/-- The next count is too large for a double. -/
def CountedOut (s : StatAggregator F) : Prop := PyRuntime.ofInt (F := F) (s.count + 1) = none

theorem process_keeps_count (clock : Clock F) (record : Record F) :
    (process clock record).Keeps (fun s => 0 ≤ s.count) := by
  unfold process
  refine Proc.keeps_lift_bind fun value => ?_
  refine Proc.keeps_write_bind (fun s hs => Int.add_nonneg hs Int.one_nonneg) ?_
  refine Proc.keeps_get_bind fun s _ => Proc.keeps_lift_bind fun step => ?_
  refine Proc.keeps_write_bind (fun _ h => h) (Proc.keeps_write_bind (fun _ h => h) ?_)
  refine Proc.keeps_write_bind (fun _ h => h) ?_
  refine Proc.keeps_get_bind fun s _ => Proc.keeps_ite ?_ (Proc.keeps_pure _)
  exact Proc.keeps_lift_bind fun variance => Proc.keeps_lift_bind fun std => Proc.keeps_pure _

theorem restore_keeps_count (clock : Clock F) {s : StatAggregator F} (hs : 0 ≤ s.count) :
    (restoreState clock s.getState).Keeps (fun t => 0 ≤ t.count) := by
  have hcount : s.getState.getD "count" (.int 0) = .int s.count := by
    simp [getState, Dict.ofList, Dict.update, Dict.getD, Dict.get_set]
  unfold restoreState
  rw [hcount]
  refine Proc.keeps_write_bind (fun _ h => h) (Proc.keeps_lift_bind_of_ok fun count hread => ?_)
  cases hread
  refine Proc.keeps_write_bind (fun _ _ => hs) ?_
  refine Proc.keeps_lift_bind fun mean => Proc.keeps_write_bind (fun _ h => h) ?_
  refine Proc.keeps_lift_bind fun m2 => Proc.keeps_write_bind (fun _ h => h) ?_
  refine Proc.keeps_lift_bind fun min => Proc.keeps_write_bind (fun _ h => h) ?_
  exact Proc.keeps_lift_bind fun max => Proc.keeps_modify (fun _ h => h)

variable [Doubles F]

/-- **Counted out, every record raises**, and the count is out of range for the next one as well. -/
theorem process_of_countedOut (clock : Clock F) (record : Record F) {s : StatAggregator F}
    (hcount : 0 ≤ s.count) (h : s.CountedOut) :
    ((process clock record).exec s).1.isOk = false ∧ 0 ≤ ((process clock record).exec s).2.count ∧
      ((process clock record).exec s).2.CountedOut := by
  unfold process
  cases (record.getD "value" (.float 0.0)).toFloat with
  | error e => exact ⟨rfl, hcount, h⟩
  | ok value =>
      obtain ⟨e, he⟩ := Doubles.floatDivInt_of_overflow (value - s.mean) h
      simp only [Proc.exec_bind, Proc.exec_lift, Proc.exec_get, Proc.exec_modify, he]
      exact ⟨rfl, by omega, Doubles.ofInt_mono (by omega) (by simp) h⟩

/-- A record that is counted, and that is none to emit at. -/
theorem process_quiet (clock : Clock F) {s : StatAggregator F} (hcount : 0 ≤ s.count) (h : ¬ s.CountedOut)
    (hquiet : (s.count + 1) % 500 ≠ 0) : ((process clock ∅).exec s).1 = .ok [] := by
  obtain ⟨step, hstep⟩ := Doubles.floatDivInt_of_pos ((0.0 : F) - s.mean) (by omega) h
  have hvalue : ((∅ : Record F).getD "value" (.float 0.0)).toFloat = .ok 0.0 := rfl
  unfold process
  rw [hvalue]
  simp only [Proc.exec_bind, Proc.exec_lift, Proc.exec_get, Proc.exec_modify, hstep, if_neg hquiet]
  rfl

omit [Doubles F] in
theorem count_process (clock : Clock F) (s : StatAggregator F) :
    ((process clock ∅).exec s).2.count = s.count + 1 := by
  have hvalue : ((∅ : Record F).getD "value" (.float 0.0)).toFloat = .ok 0.0 := rfl
  unfold process
  rw [hvalue, Proc.exec_bind_ok (Proc.exec_lift (.ok (0.0 : F)) s), Proc.exec_modify_bind]
  -- nothing after the first write touches the count
  have hrest : ∀ {m : Proc PyError (StatAggregator F) (List (Record F))} {u : StatAggregator F},
      m.Keeps (fun t => t.count = s.count + 1) → u.count = s.count + 1 → (m.exec u).2.count = s.count + 1 :=
    fun hm hu => hm _ hu
  refine hrest ?_ rfl
  refine Proc.keeps_get_bind fun s _ => Proc.keeps_lift_bind fun step => ?_
  refine Proc.keeps_write_bind (fun _ h => h) (Proc.keeps_write_bind (fun _ h => h) ?_)
  refine Proc.keeps_write_bind (fun _ h => h) ?_
  refine Proc.keeps_get_bind fun s _ => Proc.keeps_ite ?_ (Proc.keeps_pure _)
  exact Proc.keeps_lift_bind fun variance => Proc.keeps_lift_bind fun std => Proc.keeps_pure _

/-- An emission may raise, on a variance below zero. Its count is even, so the next one converts as well, and there
    nothing is emitted. -/
theorem accepts (clock : Clock F) {s : StatAggregator F} (hcount : 0 ≤ s.count) (h : ¬ s.CountedOut) :
    Accepts operator clock s ∅ := by
  by_cases hquiet : (s.count + 1) % 500 = 0
  · have hnext := count_process clock s
    apply accepts_of_second
    apply process_quiet clock (s := ((process clock ∅).exec s).2)
    · omega
    · unfold CountedOut
      rw [hnext]
      exact Doubles.ofInt_odd (by omega) h
    · omega
  · exact accepts_of_returned (process_quiet clock hcount h hquiet)

end StatAggregator

/-! ## The others that may raise while they emit

Once it has emitted, a window counts from the start again, and an aggregator waits for its interval; whether the
emission itself returned makes no difference to that. A detector's headway is a mean over at most 99 intervals. -/

namespace FeatureAggWindow

/-- A window that has just been emitted takes a record without emitting. -/
theorem process_quiet (clock : Clock F) {s : FeatureAggWindow F} (hquiet : s.countSinceEmit + 1 < s.emitEvery) :
    ((process clock ∅).exec s).1 = .ok [] := by
  have hvalue : ((∅ : Record F).getD "normalized_value" (.float 0.0)).toFloat = .ok 0.0 := rfl
  unfold process
  rw [hvalue]
  simp only [Proc.exec_bind, Proc.exec_lift, Proc.exec_get, Proc.exec_modify, if_pos hquiet]
  rfl

/-- An emission starts the count again, whether it returns or not. -/
theorem emission_resets (clock : Clock F) {s : FeatureAggWindow F} (hemits : ¬ s.countSinceEmit + 1 < s.emitEvery) :
    ((process clock ∅).exec s).2.countSinceEmit = 0 ∧ ((process clock ∅).exec s).2.emitEvery = s.emitEvery := by
  have hvalue : ((∅ : Record F).getD "normalized_value" (.float 0.0)).toFloat = .ok 0.0 := rfl
  unfold process
  rw [hvalue, Proc.exec_bind_ok (Proc.exec_lift (.ok (0.0 : F)) s), Proc.exec_modify_bind, Proc.exec_modify_bind,
    Proc.exec_get_bind, if_neg hemits, Proc.exec_modify_bind]
  have hrest : ∀ out : Except PyError (Record F),
      (Proc.lift out >>= fun out => pure [out] : Proc PyError (FeatureAggWindow F) (List (Record F))).Keeps
        (fun t => t.countSinceEmit = 0 ∧ t.emitEvery = s.emitEvery) :=
    fun out => Proc.keeps_lift_bind fun out => Proc.keeps_pure _
  exact hrest _ _ ⟨rfl, rfl⟩

theorem accepts (clock : Clock F) {s : FeatureAggWindow F} (hemit : s.emitEvery = 100) :
    Accepts operator clock s ∅ := by
  by_cases hquiet : s.countSinceEmit + 1 < s.emitEvery
  · exact accepts_of_returned (process_quiet clock hquiet)
  · obtain ⟨hcount, hevery⟩ := emission_resets clock hquiet
    apply accepts_of_second
    apply process_quiet clock (s := ((process clock ∅).exec s).2)
    rw [hcount, hevery, hemit]
    decide

end FeatureAggWindow

namespace ZoneAggregator

/-- A record without a detection, before the interval has passed. -/
theorem process_quiet (clock : Clock F) {s : ZoneAggregator F}
    (hquiet : PyRuntime.le s.emitInterval (clock.monotonic - s.lastEmitTs) = false) :
    ((process clock ∅).exec s).1 = .ok [] := by
  have hdetected : ((∅ : Record F).getD "vehicle_detected" (.bool false)).truthy = false := rfl
  unfold process
  rw [hdetected]
  show (Proc.exec (get >>= _) s).1 = _
  rw [Proc.exec_get_bind, if_neg (Bool.not_eq_true _ ▸ hquiet)]
  rfl

/-- An emission starts the interval again, whether it returns or not. -/
theorem emission_resets (clock : Clock F) {s : ZoneAggregator F}
    (hemits : PyRuntime.le s.emitInterval (clock.monotonic - s.lastEmitTs) = true) :
    ((process clock ∅).exec s).2.lastEmitTs = clock.monotonic ∧
      ((process clock ∅).exec s).2.emitInterval = s.emitInterval := by
  have hdetected : ((∅ : Record F).getD "vehicle_detected" (.bool false)).truthy = false := rfl
  unfold process
  rw [hdetected]
  have hrest : ∀ (density : Except PyError F) (f : F → List (Record F)),
      (Proc.lift density >>= fun density => pure (f density) : Proc PyError (ZoneAggregator F) _).Keeps
        (fun t => t.lastEmitTs = clock.monotonic ∧ t.emitInterval = s.emitInterval) :=
    fun density f => Proc.keeps_lift_bind fun out => Proc.keeps_pure _
  show (Proc.exec (get >>= _) s).2.lastEmitTs = _ ∧ (Proc.exec (get >>= _) s).2.emitInterval = _
  rw [Proc.exec_get_bind, if_pos hemits, Proc.exec_modify_bind]
  exact hrest _ _ _ ⟨rfl, rfl⟩

theorem accepts [Doubles F] (clock : Clock F) {s : ZoneAggregator F} (hinterval : s.emitInterval = 5.0) :
    Accepts operator clock s ∅ := by
  cases hemits : PyRuntime.le s.emitInterval (clock.monotonic - s.lastEmitTs) with
  | false => exact accepts_of_returned (process_quiet clock hemits)
  | true =>
      obtain ⟨hlast, hkept⟩ := emission_resets clock hemits
      apply accepts_of_second
      apply process_quiet clock (s := ((process clock ∅).exec s).2)
      rw [hlast, hkept, hinterval]
      exact Doubles.not_le_sub_self clock.monotonic

end ZoneAggregator

namespace VehicleDetector

/-- At most 100 times are at most 99 intervals, a number that converts. -/
theorem headway_returns [Doubles F] {times : List F} (h : times.length ≤ 100) : ∃ v, headway times = .ok v := by
  unfold headway
  split
  · have hlength := length_intervals times
    obtain ⟨mean, hmean⟩ := Doubles.floatDivInt_of_pos (sumFloats (intervals times))
      (i := (intervals times).length) (by omega) (Doubles.ofInt_ne_none (by omega) (by omega))
    rw [hmean]
    exact ⟨_, rfl⟩
  · exact ⟨_, rfl⟩

theorem accepts [Doubles F] (clock : Clock F) {s : VehicleDetector F} (h : s.detectionTimes.length ≤ 100) :
    Accepts operator clock s ∅ := by
  have hread : sampleOf clock (∅ : Record F) = .ok ⟨0.0, 0.0, clock.time 0⟩ := rfl
  have hkept := process_keeps_resumable s clock ∅ s ⟨rfl, rfl, h⟩
  rw [exec_process s hread] at hkept
  obtain ⟨v, hv⟩ := headway_returns hkept.times
  apply accepts_of_returned
  show ((process clock ∅).exec s).1 = _
  rw [exec_process s hread, hv]
  rfl

theorem restore_keeps_times (clock : Clock F) (state : Record F) :
    (restoreState clock state).Keeps (fun t => t.detectionTimes.length ≤ 100) := by
  unfold restoreState
  refine Proc.keeps_lift_bind fun alpha => Proc.keeps_write_bind (fun _ h => h) ?_
  refine Proc.keeps_lift_bind fun ewmaOcc => Proc.keeps_write_bind (fun _ h => h) ?_
  refine Proc.keeps_lift_bind fun ewmaSpeed => Proc.keeps_write_bind (fun _ h => h) ?_
  refine Proc.keeps_lift_bind fun detectionCount => Proc.keeps_write_bind (fun _ h => h) ?_
  refine Proc.keeps_write_bind (fun _ h => h) (Proc.keeps_lift_bind fun times => ?_)
  refine Proc.keeps_lift_bind_of_ok fun detectionTimes hdeque => Proc.keeps_modify fun _ _ => ?_
  cases hdeque
  show (lastItems 100 times).length ≤ 100
  rw [length_lastItems]
  omega

end VehicleDetector

/-! ## The others

The remaining six return at once: on an empty record, or, where a square may overflow, on a value that is the mean
already. -/

namespace RiskCheck

theorem accepts [Doubles F] (clock : Clock F) (s : RiskCheck F) : Accepts operator clock s ∅ := by
  have hvalue : ((∅ : Record F).getD "exposure" (.float 0.0)).toFloat = .ok 0.0 := rfl
  obtain ⟨ratio, hratio⟩ := Doubles.guardedDiv_returns (pyMax 0.0 0.0) s.limit
  apply accepts_of_returned
  show ((process clock ∅).exec s).1 = _
  unfold process
  rw [hvalue]
  simp only [Proc.exec_bind, Proc.exec_lift, Proc.exec_get, Proc.exec_modify, hratio]
  rfl

end RiskCheck

namespace AnomalyDetector

/-- A record with the mean for its value. -/
def atMean (s : AnomalyDetector F) : Record F := Dict.ofList [("value", .float s.ewmaMean)]

theorem accepts [Doubles F] (clock : Clock F) (s : AnomalyDetector F) : Accepts operator clock s s.atMean := by
  have hvalue : (s.atMean.getD "value" (.float 0.0)).toFloat = .ok s.ewmaMean := rfl
  obtain ⟨square, hsquare⟩ := Doubles.pySquare_sub_self s.ewmaMean
  obtain ⟨z, hz⟩ := Doubles.guardedDiv_returns (pyAbs (s.ewmaMean - s.ewmaMean))
    (PyRuntime.sqrt (pyMax ((1.0 - s.alpha) * s.ewmaM2 + s.alpha * square) 1e-12))
  apply accepts_of_returned
  show ((process clock s.atMean).exec s).1 = _
  unfold process
  rw [hvalue]
  simp only [Proc.exec_bind, Proc.exec_lift, Proc.exec_get, Proc.exec_modify, hsquare,
    Doubles.pySqrt_bounded Doubles.small_pos.2, hz]
  rfl

end AnomalyDetector

namespace MultiStreamJoin

theorem accepts (clock : Clock F) (s : MultiStreamJoin F) : Accepts operator clock s ∅ := by
  have hkey : ((∅ : Record F).getD "zone_id" (.str "unknown")).asKey = .ok (.str "unknown") := by
    simp [Dict.getD, Value.asKey, Value.hashable]
  left
  show ((process clock ∅).exec s).1.isOk = true
  unfold process
  rw [hkey]
  simp only [Proc.exec_bind, Proc.exec_lift, Proc.exec_get, Proc.exec_modify]
  split
  · rfl
  · rfl

end MultiStreamJoin

namespace PatternDetector

theorem accepts (clock : Clock F) (s : PatternDetector F) : Accepts operator clock s ∅ := by
  have hkey : ((∅ : Record F).getD "zone_id" (.str "unknown")).asKey = .ok (.str "unknown") := by
    simp [Dict.getD, Value.asKey, Value.hashable]
  have hdensity : ((∅ : Record F).getD "density" (.float 0.0)).toFloat = .ok 0.0 := rfl
  left
  show ((process clock ∅).exec s).1.isOk = true
  unfold process
  dsimp only
  rw [hkey, hdensity]
  simp only [Proc.exec_bind, Proc.exec_lift, Proc.exec_get, Proc.exec_modify]
  split
  · rfl
  · rfl

end PatternDetector

namespace FeatureAggWindow

theorem restore_keeps_emitEvery (clock : Clock F) {s : FeatureAggWindow F} (hs : s.emitEvery = 100) :
    (restoreState clock s.getState).Keeps (fun t => t.emitEvery = 100) := by
  have hemit : s.getState.getD "emit_every" (.int 100) = .int s.emitEvery := by
    simp [getState, Dict.ofList, Dict.update, Dict.getD]
  unfold restoreState
  rw [hemit]
  refine Proc.keeps_lift_bind fun windowSize => Proc.keeps_write_bind (fun _ h => h) ?_
  refine Proc.keeps_lift_bind fun items => Proc.keeps_lift_bind fun window => ?_
  refine Proc.keeps_write_bind (fun _ h => h) (Proc.keeps_lift_bind_of_ok fun emitEvery hread => ?_)
  cases hread
  exact Proc.keeps_write_bind (fun _ _ => hs) (Proc.keeps_modify (fun _ h => h))

end FeatureAggWindow

namespace ZoneAggregator

theorem process_keeps_interval (clock : Clock F) (record : Record F) :
    (process clock record).Keeps (fun s => s.emitInterval = 5.0) := by
  unfold process
  extract_lets sensorId detected now emission
  have hemission : (emission ⟨⟩).Keeps (fun s => s.emitInterval = 5.0) := by
    refine Proc.keeps_get_bind fun s _ => Proc.keeps_ite ?_ (Proc.keeps_pure _)
    refine Proc.keeps_write_bind (fun _ h => h) ?_
    exact Proc.keeps_lift_bind fun density => Proc.keeps_pure _
  refine Proc.keeps_ite (Proc.keeps_lift_bind fun key => ?_) hemission
  exact Proc.keeps_write_bind (fun _ h => h) hemission

theorem restore_keeps_interval (clock : Clock F) {s : ZoneAggregator F} (hs : s.emitInterval = 5.0) :
    (restoreState clock s.getState).Keeps (fun t => t.emitInterval = 5.0) := by
  have hinterval : s.getState.getD "emit_interval" (.float 5.0) = .float s.emitInterval := by
    simp [getState, Dict.ofList, Dict.update, Dict.getD]
  unfold restoreState
  rw [hinterval]
  refine Proc.keeps_write_bind (fun _ h => h) (Proc.keeps_lift_bind fun nSensors => ?_)
  refine Proc.keeps_write_bind (fun _ h => h) (Proc.keeps_lift_bind fun sensorCounts => ?_)
  refine Proc.keeps_write_bind (fun _ h => h) (Proc.keeps_lift_bind fun zoneTotal => ?_)
  refine Proc.keeps_write_bind (fun _ h => h) (Proc.keeps_lift_bind_of_ok fun emitInterval hread => ?_)
  cases hread
  exact Proc.keeps_modify (fun _ _ => hs)

end ZoneAggregator

/-! ## The eleven types

What an instance can have become, and what all of that has in common: a state is `Reachable` by construction, by
`process`, and by taking over what a reachable instance exports. -/

namespace OperatorType

/-- The attributes `__init__` leaves, whatever its arguments. -/
def Constructed : (t : OperatorType) → t.Attributes F → Prop
  | normalizerOperator, s => ∃ operatorId zoneId alpha, s = NormalizerOperator.new operatorId zoneId alpha
  | featureAggWindow,   s => ∃ operatorId zoneId size, FeatureAggWindow.new operatorId zoneId size = .ok s
  | multiStreamJoin,    s => ∃ clock operatorId nZones timeout,
      MultiStreamJoin.new clock operatorId nZones timeout = .ok s
  | binaryClassifier,   s => ∃ operatorId threshold, s = BinaryClassifier.new operatorId threshold
  | vehicleDetector,    s => ∃ operatorId sensorId alpha, s = VehicleDetector.new operatorId sensorId alpha
  | zoneAggregator,     s => ∃ clock operatorId zoneId nSensors,
      s = ZoneAggregator.new clock operatorId zoneId nSensors
  | patternDetector,    s => ∃ operatorId threshold, s = PatternDetector.new operatorId threshold
  | riskCheck,          s => ∃ operatorId category, s = RiskCheck.new operatorId category
  | anomalyDetector,    s => ∃ operatorId metricClass alpha zThreshold,
      s = AnomalyDetector.new operatorId metricClass alpha zThreshold
  | statAggregator,     s => ∃ operatorId instrumentClass, s = StatAggregator.new operatorId instrumentClass
  | complianceLogger,   s => ∃ operatorId domain, s = ComplianceLogger.new operatorId domain

/-- The attributes an instance can have. -/
inductive Reachable (t : OperatorType) : t.Attributes F → Prop where
  | constructed {s : t.Attributes F} (h : t.Constructed s) : Reachable t s
  | processed (clock : Clock F) (record : Record F) {s : t.Attributes F} (h : Reachable t s) :
      Reachable t (((t.operator F).process clock record).exec s).2
  | restored (clock : Clock F) {s u : t.Attributes F} (hs : Reachable t s) (hu : Reachable t u) :
      Reachable t (((t.operator F).restoreState clock ((t.operator F).getState s)).exec u).2

/-- What the instances of a type have in common: of a counter, that it is not negative, of a deque, that it is not
    overfull, and the schedules the constructors set. -/
def Sound : (t : OperatorType) → t.Attributes F → Prop
  | normalizerOperator, s => 0 ≤ NormalizerOperator.count s
  | featureAggWindow,   s => FeatureAggWindow.emitEvery s = 100
  | vehicleDetector,    s => (VehicleDetector.detectionTimes s).length ≤ 100
  | zoneAggregator,     s => ZoneAggregator.emitInterval s = 5.0
  | statAggregator,     s => 0 ≤ StatAggregator.count s
  | _,                  _ => True

theorem sound_of_constructed {t : OperatorType} {s : t.Attributes F} (h : t.Constructed s) : t.Sound s := by
  cases t with
  | normalizerOperator =>
      obtain ⟨operatorId, zoneId, alpha, rfl⟩ := h
      exact Int.le_refl 0
  | featureAggWindow =>
      obtain ⟨operatorId, zoneId, size, h⟩ := h
      exact (FeatureAggWindow.run_reached h []).2.emitEvery
  | vehicleDetector =>
      obtain ⟨operatorId, sensorId, alpha, rfl⟩ := h
      exact Nat.zero_le 100
  | zoneAggregator =>
      obtain ⟨clock, operatorId, zoneId, nSensors, rfl⟩ := h
      rfl
  | statAggregator =>
      obtain ⟨operatorId, instrumentClass, rfl⟩ := h
      exact Int.le_refl 0
  | multiStreamJoin | binaryClassifier | patternDetector | riskCheck | anomalyDetector | complianceLogger => trivial

theorem process_keeps_sound (t : OperatorType) (clock : Clock F) (record : Record F) :
    ((t.operator F).process clock record).Keeps t.Sound := by
  cases t with
  | normalizerOperator => exact NormalizerOperator.process_keeps_count clock record
  | featureAggWindow   =>
      exact fun s hs => (FeatureAggWindow.process_keeps _ _ clock record s ⟨rfl, rfl, hs⟩).emitEvery
  | vehicleDetector    =>
      exact fun s hs => (VehicleDetector.process_keeps_resumable s clock record s ⟨rfl, rfl, hs⟩).times
  | zoneAggregator     => exact ZoneAggregator.process_keeps_interval clock record
  | statAggregator     => exact StatAggregator.process_keeps_count clock record
  | multiStreamJoin | binaryClassifier | patternDetector | riskCheck | anomalyDetector | complianceLogger =>
      exact fun _ _ => trivial

theorem restore_keeps_sound {t : OperatorType} (clock : Clock F) {s : t.Attributes F} (hs : t.Sound s) :
    ((t.operator F).restoreState clock ((t.operator F).getState s)).Keeps t.Sound := by
  cases t with
  | normalizerOperator => exact NormalizerOperator.restore_keeps_count clock hs
  | featureAggWindow   => exact FeatureAggWindow.restore_keeps_emitEvery clock hs
  | vehicleDetector    => exact VehicleDetector.restore_keeps_times clock _
  | zoneAggregator     => exact ZoneAggregator.restore_keeps_interval clock hs
  | statAggregator     => exact StatAggregator.restore_keeps_count clock hs
  | multiStreamJoin | binaryClassifier | patternDetector | riskCheck | anomalyDetector | complianceLogger =>
      exact fun _ _ => trivial

theorem sound_of_reachable {t : OperatorType} {s : t.Attributes F} (h : t.Reachable s) : t.Sound s := by
  induction h with
  | constructed h => exact sound_of_constructed h
  | processed clock record _ ih => exact process_keeps_sound t clock record _ ih
  | restored clock _ _ ihs ihu => exact restore_keeps_sound clock ihs _ ihu

/-- The next record is one too many to count in a double: it raises, and so does every record after it. -/
def CountedOut : (t : OperatorType) → t.Attributes F → Prop
  | normalizerOperator, s => NormalizerOperator.CountedOut s
  | statAggregator,     s => StatAggregator.CountedOut s
  | _,                  _ => False

/-- A name the operator adds to a record that its Java counterpart does not add. -/
def addition : OperatorType → Option String
  | normalizerOperator => some "sensor_mean"
  | binaryClassifier   => some "threshold"
  | riskCheck          => some "breach_count"
  | anomalyDetector    => some "ewma_mean"
  | complianceLogger   => some "event_type_counts"
  | featureAggWindow | multiStreamJoin | vehicleDetector | zoneAggregator | patternDetector | statAggregator => none

/-- The record has not been through an operator of the type before. -/
def Plain (t : OperatorType) (record : Record F) : Prop := ∀ name ∈ t.addition, record.get name = none

/-- From every sound state there is a plain record that is accepted, unless the count is out of range. -/
theorem exists_accepted [Doubles F] (t : OperatorType) (clock : Clock F) {s : t.Attributes F} (hs : t.Sound s)
    (hcount : ¬ t.CountedOut s) : ∃ record, t.Plain record ∧ Accepts (t.operator F) clock s record := by
  have hempty : t.Plain (∅ : Record F) := fun _ _ => rfl
  cases t with
  | normalizerOperator => exact ⟨∅, hempty, NormalizerOperator.accepts clock hs hcount⟩
  | featureAggWindow   => exact ⟨∅, hempty, FeatureAggWindow.accepts clock hs⟩
  | multiStreamJoin    => exact ⟨∅, hempty, MultiStreamJoin.accepts clock s⟩
  | binaryClassifier   => exact ⟨∅, hempty, Or.inl rfl⟩
  | vehicleDetector    => exact ⟨∅, hempty, VehicleDetector.accepts clock hs⟩
  | zoneAggregator     => exact ⟨∅, hempty, ZoneAggregator.accepts clock hs⟩
  | patternDetector    => exact ⟨∅, hempty, PatternDetector.accepts clock s⟩
  | riskCheck          => exact ⟨∅, hempty, RiskCheck.accepts clock s⟩
  | anomalyDetector    =>
      refine ⟨AnomalyDetector.atMean s, ?_, AnomalyDetector.accepts clock s⟩
      rintro _ ⟨⟩
      rfl
  | statAggregator     => exact ⟨∅, hempty, StatAggregator.accepts clock hs hcount⟩
  | complianceLogger   => exact ⟨∅, hempty, Or.inl rfl⟩

/-- Where the count is out of range, it stays so, and every record raises. -/
theorem process_of_countedOut [Doubles F] {t : OperatorType} (clock : Clock F) (record : Record F)
    {s : t.Attributes F} (h : t.Sound s ∧ t.CountedOut s) :
    (((t.operator F).process clock record).exec s).1.isOk = false ∧
      t.Sound (((t.operator F).process clock record).exec s).2 ∧
      t.CountedOut (((t.operator F).process clock record).exec s).2 := by
  obtain ⟨hs, hcount⟩ := h
  cases t with
  | normalizerOperator => exact NormalizerOperator.process_of_countedOut clock record hs hcount
  | statAggregator     => exact StatAggregator.process_of_countedOut clock record hs hcount
  | featureAggWindow | multiStreamJoin | binaryClassifier | vehicleDetector | zoneAggregator | patternDetector
    | riskCheck | anomalyDetector | complianceLogger => exact hcount.elim

end OperatorType

end Workloads

namespace Workloads

open Lib Py Hea Connector SideBySide

namespace OperatorType

variable {F : Type} [JavaRuntime F]

/-! ## No exported state is mirrored

On plain records the Java operator cannot put out what Python puts out, so they are alike only as long as Python
raises; and from a reachable state Python does not raise for long. -/

/-- A plain record lacks what the condition of its type asks of it. -/
theorem not_mirrored_of_plain {t : OperatorType} {record : Record F} (h : t.Plain record) (clock : Clock F)
    (s : t.Attributes F) (state : Record F) : ¬ t.Mirrored clock s state record := by
  cases t with
  | normalizerOperator =>
      rintro ⟨_, -, -, hmean, -⟩
      rw [h _ rfl] at hmean
      cases hmean
  | binaryClassifier =>
      rintro ⟨_, -, -, hthreshold, -⟩
      rw [h _ rfl] at hthreshold
      cases hthreshold
  | riskCheck =>
      rintro ⟨_, -, -, -, -, hcount, -⟩
      rw [h _ rfl] at hcount
      cases hcount
  | anomalyDetector =>
      rintro ⟨_, _, -, -, -, hmean, -⟩
      rw [h _ rfl] at hmean
      cases hmean
  | complianceLogger =>
      rintro ⟨-, -, hcounts, -⟩
      rw [h _ rfl] at hcounts
      cases hcounts
  | featureAggWindow | multiStreamJoin | vehicleDetector | zoneAggregator | patternDetector | statAggregator =>
      exact not_false

/-- **On plain records, alike means silent.** -/
theorem mirrors_plain_iff (t : OperatorType) (clock : Clock F) (s : t.Attributes F) {records : List (Record F)}
    (hplain : ∀ record ∈ records, t.Plain record) :
    Mirrors (t.operator F) clock s records ↔
      AtEachStep (SideBySide.step (t.operator F) clock) (fun p record => ¬ Returns (t.operator F) clock p record)
        (exported (t.operator F) s) records := by
  rw [mirrors_iff]
  apply atEachStep_congr (I := fun _ => True) (fun _ _ _ => trivial)
  · intro p record hmem _
    have hnot := not_mirrored_of_plain (hplain record hmem) clock p.python p.java.currentState
    exact ⟨fun h hreturns => hnot (h hreturns), fun h hreturns => absurd hreturns h⟩
  · trivial

/-- An instance that accepts a record does not stay silent on two of it. -/
theorem not_silent_of_accepts {t : OperatorType} {clock : Clock F} {s : t.Attributes F} {record : Record F}
    (h : Accepts (t.operator F) clock s record) :
    ¬ AtEachStep (SideBySide.step (t.operator F) clock)
      (fun p record => ¬ Returns (t.operator F) clock p record) (exported (t.operator F) s) [record, record] := by
  rintro ⟨hfirst, hsecond, -⟩
  rcases h with hreturned | hreturned
  · exact hfirst (returns_of_isOk hreturned)
  · exact hsecond (returns_of_isOk hreturned)

/-- A risk check for credit, whose limit is five million, as it is built. -/
def credit : RiskCheck ℚ := .new "risk-credit" "credit"

/-- An exposure of two million, in a record that has what Python adds. -/
def exposureRecord : Record ℚ :=
  Dict.ofList
    [ ("exposure", .float 2000000), ("risk_category", .str "credit"), ("limit", .float 5000000),
      ("breach_count", .int 0) ]

end OperatorType

end Workloads
end HybridStream
