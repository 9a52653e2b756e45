import Mathlib.Analysis.Real.Sqrt
import HybridStream.Hea.Engine
import HybridStream.Lib.Smoothing
import HybridStream.Py.Reals
import HybridStream.Workloads.Correctness.Resume

/-!
# `Workloads.Correctness.Headway` — the detector's history is that of its reports

What a `VehicleDetector` keeps is made of the samples it has read and of the reports it has put out (`Follows`): the
averages are the smoothed samples, the count and the deque are those of the reported detections. The intervals of the
deque telescope, so the mean headway is the difference of its ends by the number of intervals. Exact arithmetic over
the reals.
-/

namespace HybridStream
namespace Workloads

open Lib Lib.Smoothing Py Hea

namespace Headway

open VehicleDetector (Sample sampleOf process new operator intervals headway)

/-! ## Samples and reports

What is read of a stream and what is put out, as lists; a record that cannot be read is in neither. -/

/-- The samples of a stream; a record that cannot be read is rejected and has none. -/
noncomputable def samples (stream : List (Clock ℝ × Record ℝ)) : List (Sample ℝ) :=
  stream.filterMap (fun e => (sampleOf e.1 e.2).toOption)

/-- The records that are put out. -/
noncomputable def reports (s : VehicleDetector ℝ) (stream : List (Clock ℝ × Record ℝ)) : List (Record ℝ) :=
  (operator.outcomes s stream).flatMap emitted

/-- A vehicle is reported as detected. -/
def isDetection (report : Record ℝ) : Bool :=
  match report.get "vehicle_detected" with
  | some (.bool detected) => detected
  | _                     => false

/-- The time of a report. -/
def timeOf (report : Record ℝ) : Option ℝ :=
  match report.get "timestamp" with
  | some (.float ts) => some ts
  | _                => none

/-- The times of the detections reported, in order. -/
def detections (reports : List (Record ℝ)) : List ℝ := (reports.filter isDetection).filterMap timeOf

/-! ## The mean headway

The sum of the intervals telescopes, so their mean is the distance of the ends by their number. -/

/-- The difference of the ends by the number of intervals. -/
noncomputable def meanHeadway (times : List ℝ) : ℝ := (times.getLastD 0 - times.headD 0) / (times.length - 1)

/-- What is reported for it. -/
noncomputable def reportedHeadway (times : List ℝ) : Value ℝ :=
  open Classical in
  if times.length < 2 ∨ meanHeadway times = 0 then .none else .float (PyRuntime.round (meanHeadway times) 3)

/-- **The intervals telescope.** -/
theorem sum_intervals (x : ℝ) (times : List ℝ) : (intervals (x :: times)).sum = (x :: times).getLastD 0 - x := by
  induction times generalizing x with
  | nil => simp [intervals]
  | cons y times ih =>
      rw [intervals, List.sum_cons, ih]
      simp

theorem sumFloats_eq_sum (xs : List ℝ) : sumFloats xs = xs.sum := by
  cases xs with
  | nil => exact Reals.zero_eq
  | cons x xs =>
      show 0.0 + x + xs.sum = _
      rw [Reals.zero_eq, zero_add, List.sum_cons]

/-- The mean of the intervals is that of the ends. -/
theorem mean_intervals {times : List ℝ} (h : 2 ≤ times.length) :
    floatDivInt (sumFloats (intervals times)) (intervals times).length = .ok (meanHeadway times) := by
  have hlength : ((intervals times).length : Int) = times.length - 1 := by
    rw [VehicleDetector.length_intervals]
    omega
  have hne : ((intervals times).length : Int) ≠ 0 := by omega
  cases times with
  | nil => simp at h
  | cons x times =>
      rw [Reals.floatDivInt_eq _ hne, sumFloats_eq_sum, sum_intervals, hlength, Int.cast_sub, Int.cast_natCast,
        Int.cast_one]
      rfl

theorem headway_eq (times : List ℝ) : headway times = .ok (reportedHeadway times) := by
  unfold headway reportedHeadway
  by_cases h : 2 ≤ times.length
  · rw [if_pos h, mean_intervals h, Reals.zero_eq]
    by_cases hzero : meanHeadway times = 0
    · rw [if_pos (Or.inr hzero)]
      show Except.ok (if PyRuntime.eq (meanHeadway times) 0 then _ else _) = _
      rw [if_pos (OrderedRuntime.eq_iff.mpr hzero)]
    · rw [if_neg (not_or.mpr ⟨not_lt.mpr h, hzero⟩)]
      show Except.ok (if PyRuntime.eq (meanHeadway times) 0 then _ else _) = _
      rw [if_neg (mt OrderedRuntime.eq_iff.mp hzero)]
  · rw [if_neg h, if_pos (Or.inl (not_le.mp h))]

/-- Times in order do not make a negative headway. -/
theorem meanHeadway_nonneg {times : List ℝ} (h : times.Pairwise (· ≤ ·)) : 0 ≤ meanHeadway times := by
  unfold meanHeadway
  cases times with
  | nil => simp
  | cons x times =>
      have hends : x ≤ (x :: times).getLastD 0 := by
        cases times with
        | nil => exact le_refl x
        | cons y times => exact List.rel_of_pairwise_cons h (List.getLast_mem (List.cons_ne_nil y times))
      have hlength : (1 : ℝ) ≤ (x :: times).length := Nat.one_le_cast.mpr (Nat.succ_pos _)
      exact div_nonneg (sub_nonneg.mpr hends) (sub_nonneg.mpr hlength)

/-! ## One record

What one record does to the attributes, in terms of what has been read and reported so far. -/

/-- What is put out for a record read with the time `ts`, of the attributes it leaves behind. -/
noncomputable def reportAt (s : VehicleDetector ℝ) (ts : ℝ) : Record ℝ := s.report (reportedHeadway s.detectionTimes) ts

/-- The attributes are made of the samples read and the reports put out. -/
structure Follows (alpha : ℝ) (read : List (Sample ℝ)) (out : List (Record ℝ)) (s : VehicleDetector ℝ) : Prop where
  share   : s.alpha = alpha
  occ     : s.ewmaOcc = smooth alpha (read.map Sample.occupancy)
  speed   : s.ewmaSpeed = smooth alpha (read.map Sample.speed)
  count   : s.detectionCount = out.countP isDetection
  times   : s.detectionTimes = lastItems 100 (detections out)
  length  : (detections out).length = out.countP isDetection
  inOrder : (detections out).Sublist (read.map Sample.ts)

variable {s : VehicleDetector ℝ} {sample : Sample ℝ} {alpha : ℝ} {read : List (Sample ℝ)} {out : List (Record ℝ)}

theorem isDetection_reportAt (s : VehicleDetector ℝ) (ts : ℝ) : isDetection (reportAt s ts) = s.detected := by
  simp [isDetection, reportAt, VehicleDetector.report, Dict.ofList, Dict.update, Dict.get_set]

theorem timeOf_reportAt (s : VehicleDetector ℝ) (ts : ℝ) : timeOf (reportAt s ts) = some ts := by
  simp [timeOf, reportAt, VehicleDetector.report, Dict.ofList, Dict.update]

/-- The headway can always be computed, so a record that is read is reported. -/
theorem exec_process (s : VehicleDetector ℝ) {clock : Clock ℝ} {record : Record ℝ}
    (hread : sampleOf clock record = .ok sample) :
    (process clock record).exec s = (.ok [reportAt (s.next sample) sample.ts], s.next sample) := by
  rw [VehicleDetector.exec_process s hread, headway_eq]
  rfl

theorem detections_concat (out : List (Record ℝ)) (s : VehicleDetector ℝ) (ts : ℝ) :
    detections (out ++ [reportAt s ts]) = if s.detected then detections out ++ [ts] else detections out := by
  unfold detections
  rw [List.filter_append, List.filterMap_append, List.filter_singleton, isDetection_reportAt]
  cases s.detected with
  | true =>
      rw [if_pos rfl]
      show _ ++ List.filterMap timeOf [reportAt s ts] = _
      rw [List.filterMap_cons, timeOf_reportAt]
      rfl
  | false => simp

theorem ewmaOcc_next (s : VehicleDetector ℝ) (sample : Sample ℝ) :
    (s.next sample).ewmaOcc = (1 - s.alpha) * s.ewmaOcc + s.alpha * sample.occupancy := by
  have hone : (1 : ℝ) = 1.0 := by norm_num
  rw [VehicleDetector.next_eq, hone]
  rfl

theorem ewmaSpeed_next (s : VehicleDetector ℝ) (sample : Sample ℝ) :
    (s.next sample).ewmaSpeed = (1 - s.alpha) * s.ewmaSpeed + s.alpha * sample.speed := by
  have hone : (1 : ℝ) = 1.0 := by norm_num
  rw [VehicleDetector.next_eq, hone]
  rfl

/-- **One record**: the detector stays made of what it has read and reported. -/
theorem Follows.step (h : Follows alpha read out s) (sample : Sample ℝ) :
    Follows alpha (read ++ [sample]) (out ++ [reportAt (s.next sample) sample.ts]) (s.next sample) := by
  -- the averages take every sample in, detected or not
  have hshare : (s.next sample).alpha = alpha := by
    rw [VehicleDetector.next_eq]
    exact h.share
  have hocc : (s.next sample).ewmaOcc = smooth alpha ((read ++ [sample]).map Sample.occupancy) := by
    rw [ewmaOcc_next, List.map_append, List.map_singleton, smooth_concat, h.occ, h.share]
  have hspeed : (s.next sample).ewmaSpeed = smooth alpha ((read ++ [sample]).map Sample.speed) := by
    rw [ewmaSpeed_next, List.map_append, List.map_singleton, smooth_concat, h.speed, h.share]
  have hconcat := detections_concat out (s.next sample) sample.ts
  have hcountP : (out ++ [reportAt (s.next sample) sample.ts]).countP isDetection =
      out.countP isDetection + if (s.next sample).detected then 1 else 0 := by
    rw [List.countP_append, List.countP_singleton, isDetection_reportAt]
  cases hdetected : (s.next sample).detected with
  | true =>
      obtain ⟨hcount, htimes⟩ := VehicleDetector.next_of_detected hdetected
      rw [hdetected, if_pos rfl] at hconcat hcountP
      refine ⟨hshare, hocc, hspeed, ?_, ?_, ?_, ?_⟩
      -- detected: one more in the count, in the list of times and among the reports
      · rw [hcountP, hcount, h.count, Nat.cast_succ]
      · rw [hconcat, htimes, h.times]
        exact dequeAppend_lastItems 100 (detections out) sample.ts
      · rw [hconcat, hcountP, List.length_append, h.length]
        simp
      · rw [hconcat, List.map_append]
        exact h.inOrder.append (List.Sublist.refl [sample.ts])
  | false =>
      have hsame := VehicleDetector.next_of_not_detected hdetected
      -- not detected: the report is out, and the attributes on detections are what they were
      have hcount : (s.next sample).detectionCount = s.detectionCount := by
        rw [hsame]
        rfl
      have htimes : (s.next sample).detectionTimes = s.detectionTimes := by
        rw [hsame]
        rfl
      rw [hdetected] at hconcat hcountP
      refine ⟨hshare, hocc, hspeed, ?_, ?_, ?_, ?_⟩
      · rw [hcountP, hcount, h.count]
        simp
      · rw [hconcat, htimes, h.times]
        simp
      · rw [hconcat, hcountP]
        exact h.length
      · rw [hconcat, List.map_append]
        exact h.inOrder.trans (List.sublist_append_left _ _)

/-! ## A stream

The attributes after a stream, and what is reported with the next record. -/

theorem new_follows (operatorId sensorId : String) (alpha : ℝ) :
    Follows alpha [] [] (new operatorId sensorId alpha) where
  share   := rfl
  occ     := Reals.zero_eq
  speed   := Reals.zero_eq
  count   := rfl
  times   := rfl
  length  := rfl
  inOrder := List.Sublist.refl []

/-- **Every stream**: the detector stays made of what it has read and reported. -/
theorem run_follows (h : Follows alpha read out s) (stream : List (Clock ℝ × Record ℝ)) :
    Follows alpha (read ++ samples stream) (out ++ reports s stream) (operator.run s stream) := by
  induction stream generalizing read out s with
  | nil =>
      show Follows alpha (read ++ []) (out ++ []) s
      rwa [List.append_nil, List.append_nil]
  | cons e stream ih =>
      have hreports : reports s (e :: stream) =
          emitted ((process e.1 e.2).exec s).1 ++ reports ((process e.1 e.2).exec s).2 stream := by
        exact List.flatMap_cons
      show Follows alpha _ _ (operator.run ((process e.1 e.2).exec s).2 stream)
      rw [hreports, samples, List.filterMap_cons, ← List.append_assoc]
      cases hread : sampleOf e.1 e.2 with
      | ok sample =>
          rw [exec_process s hread]
          have hrest := ih (h.step sample)
          rwa [List.append_assoc] at hrest
      | error error =>
          rw [VehicleDetector.exec_process_error s hread]
          show Follows alpha (read ++ samples stream) (out ++ [] ++ _) _
          rw [List.append_nil]
          exact ih h

/-- There are never more than the deque takes. -/
theorem Follows.length_times (h : Follows alpha read out s) :
    s.detectionTimes.length = min (out.countP isDetection) 100 := by
  rw [h.times, length_lastItems, h.length]

/-- The detections kept are in the order of the stream. -/
theorem Follows.pairwise_times (h : Follows alpha read out s) (hordered : (read.map Sample.ts).Pairwise (· ≤ ·)) :
    s.detectionTimes.Pairwise (· ≤ ·) := by
  rw [h.times]
  exact (hordered.sublist h.inOrder).sublist (List.drop_sublist _ _)

theorem reportedHeadway_eq_none_iff (times : List ℝ) :
    reportedHeadway times = .none ↔ times.length < 2 ∨ meanHeadway times = 0 := by
  unfold reportedHeadway
  split
  · rename_i hnone
    exact iff_of_true rfl hnone
  · rename_i hsome
    exact iff_of_false (by simp) hsome

/-- **The headway is that of the reported detections.** After any stream a fresh detector has counted the detections it
    has reported, and keeps the times of the last hundred; the mean of their intervals is the difference of the ends by
    the number of intervals, and not negative if the times are in order. With a share between zero and one both averages
    lie between the least and the greatest of zero and the values read. A further record that is read is reported with
    the rounded mean, or with none where there are fewer than two times or the mean is zero. Records that give their
    numbers as text are not read over `Py.Reals`, so they count here as records that are refused. `Follows` ties the
    attributes to the samples read and to the reports; the rest are facts about means of differences and about
    smoothing. -/
theorem headway_of_detections (operatorId sensorId : String) (alpha : ℝ) (stream : List (Clock ℝ × Record ℝ)) :
    let out := reports (new operatorId sensorId alpha) stream
    let read := samples stream
    let s := operator.run (new operatorId sensorId alpha) stream
    let times := s.detectionTimes
    s.detectionCount = out.countP isDetection ∧
    times = lastItems 100 (detections out) ∧ times.length = min (out.countP isDetection) 100 ∧
    (2 ≤ times.length →
      floatDivInt (sumFloats (intervals times)) (intervals times).length = .ok (meanHeadway times)) ∧
    ((read.map Sample.ts).Pairwise (· ≤ ·) → 0 ≤ meanHeadway times) ∧
    (0 ≤ alpha → alpha ≤ 1 →
      (0 :: read.map Sample.occupancy).min (List.cons_ne_nil _ _) ≤ s.ewmaOcc ∧
      s.ewmaOcc ≤ (0 :: read.map Sample.occupancy).max (List.cons_ne_nil _ _) ∧
      (0 :: read.map Sample.speed).min (List.cons_ne_nil _ _) ≤ s.ewmaSpeed ∧
      s.ewmaSpeed ≤ (0 :: read.map Sample.speed).max (List.cons_ne_nil _ _)) ∧
    ∀ clock record sample, sampleOf clock record = .ok sample →
      let s' := operator.run s [(clock, record)]
      ((process clock record).exec s).1 = .ok [reportAt s' sample.ts] ∧
      (reportAt s' sample.ts).get "mean_headway_s" = some (reportedHeadway s'.detectionTimes) ∧
      (reportedHeadway s'.detectionTimes = .none ↔
        s'.detectionTimes.length < 2 ∨ meanHeadway s'.detectionTimes = 0) := by
  intro out read s times
  -- everything about the stream is in the invariant at its end
  have h : Follows alpha read out s := run_follows (new_follows operatorId sensorId alpha) stream
  refine ⟨h.count, h.times, h.length_times, mean_intervals, fun hordered => ?_, fun h0 h1 => ?_, ?_⟩
  · exact meanHeadway_nonneg (h.pairwise_times hordered)
  · rw [h.occ, h.speed]
    obtain ⟨hleastOcc, hgreatestOcc⟩ := smooth_between h0 h1 (read.map Sample.occupancy)
    obtain ⟨hleastSpeed, hgreatestSpeed⟩ := smooth_between h0 h1 (read.map Sample.speed)
    exact ⟨hleastOcc, hgreatestOcc, hleastSpeed, hgreatestSpeed⟩
  · intro clock record sample hread s'
    -- a further record that is read is one step more
    have hs' : s' = s.next sample := by
      show ((process clock record).exec s).2 = _
      rw [exec_process s hread]
    refine ⟨?_, ?_, reportedHeadway_eq_none_iff _⟩
    · rw [exec_process s hread, hs']
    · simp [reportAt, VehicleDetector.report, Dict.ofList, Dict.update, Dict.get_set]

/-- A car under the sensor. -/
noncomputable def car (ts : Int) : Clock ℝ × Record ℝ :=
  (⟨0, fun _ => 0⟩, Dict.ofList [("occupancy", .int 1), ("speed_kmh", .int 100), ("timestamp", .int ts)])

/-- Two cars one after the other. -/
theorem headway_of_detections_cars :
    let s := operator.run (new "detector_0000" "sensor_0000" (0.2 : ℝ)) [car 10, car 14]
    0 ≤ meanHeadway s.detectionTimes ∧ s.ewmaOcc ≤ 1 ∧
      ((process (car 19).1 (car 19).2).exec s).1 = .ok [reportAt (operator.run s [car 19]) 19] := by
  intro s
  have hread : ∀ ts : Int, sampleOf (car ts).1 (car ts).2 = .ok ⟨((1 : Int) : ℝ), ((100 : Int) : ℝ), (ts : ℝ)⟩ :=
    fun ts => rfl
  have hsamples : samples [car 10, car 14] =
      [⟨((1 : Int) : ℝ), ((100 : Int) : ℝ), ((10 : Int) : ℝ)⟩,
        ⟨((1 : Int) : ℝ), ((100 : Int) : ℝ), ((14 : Int) : ℝ)⟩] := rfl
  obtain ⟨-, -, -, -, hnonneg, hbounds, hreport⟩ :=
    headway_of_detections "detector_0000" "sensor_0000" 0.2 [car 10, car 14]
  refine ⟨hnonneg ?_, ?_, ?_⟩
  · rw [hsamples]
    simp
    norm_num
  · obtain ⟨-, hmax, -⟩ := hbounds (by norm_num) (by norm_num)
    rw [hsamples] at hmax
    refine hmax.trans ((List.max_le_iff (List.cons_ne_nil _ _)).mpr ?_)
    simp
  · obtain ⟨hout, -⟩ := hreport (car 19).1 (car 19).2 _ (hread 19)
    simpa using hout

end Headway

end Workloads
end HybridStream
