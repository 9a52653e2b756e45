import HybridStream.Hea.Metrics
import HybridStream.Py.Percentile
import HybridStream.Workloads.Correctness.WindowSchedule

/-!
# `Workloads.Correctness.Percentiles` — the reported 95th percentiles

The metrics of an HEA keep the last thousand latencies of each operator, a window the last values of its zone. Both
report the sample at the nearest rank of what they keep: the index is in range, and neither the order of the samples
nor ties among them matter. What is kept after any history is the end of that history.
-/

namespace HybridStream
namespace Hea

open Lib Py

variable {F : Type}

namespace HEAMetrics

/-- The latencies recorded for an operator, in order. -/
def latenciesOf (oid : String) (records : List (String × F)) : List F :=
  (records.filter (fun r => r.1 = oid)).map Prod.snd

theorem latenciesOf_concat (oid : String) (records : List (String × F)) (r : String × F) :
    latenciesOf oid (records ++ [r]) = latenciesOf oid records ++ if r.1 = oid then [r.2] else [] := by
  unfold latenciesOf
  by_cases h : r.1 = oid <;> simp [h]

/-- The last thousand latencies of each operator are kept. -/
theorem latencySamples_recordAll {m : HEAMetrics F} (hm : m.latencySamples = ∅) (records : List (String × F))
    (oid : String) :
    (m.recordAll records).latencySamples.get oid = entryOf (lastItems 1000) (latenciesOf oid records) := by
  induction records using List.reverseRecOn with
  | nil => simp [recordAll, hm, latenciesOf]
  | append_singleton records r ih =>
      have hstep : m.recordAll (records ++ [r]) = (m.recordAll records).recordLatency r.1 r.2 := List.foldl_append
      rw [hstep, latenciesOf_concat]
      unfold recordLatency
      dsimp only
      rw [Dict.get_set]
      by_cases hoid : oid = r.1
      · subst hoid
        have hkept : (m.recordAll records).latencySamples.getD r.1 [] = lastItems 1000 (latenciesOf r.1 records) := by
          unfold Dict.getD
          rw [ih]
          exact getD_entryOf (lastItems_nil 1000)
        have happend := dequeAppend_lastItems 1000 (latenciesOf r.1 records) r.2
        rw [Nat.cast_ofNat] at happend
        rw [if_pos rfl, if_pos rfl, entryOf_concat, hkept, happend]
      · rw [if_neg hoid, ih, if_neg (Ne.symm hoid), List.append_nil]

variable [PyRuntime F]

/-- The percentile is the one of `Py.Percentile`. -/
theorem p95_eq (samples : List F) : p95 samples = p95Of samples := rfl

variable [LinearOrder F] [OrderedRuntime F] [ExactShare F]

/-- **The telemetry** reports the nearest rank of the last thousand latencies. -/
theorem getOperatorP95_recordAll {m : HEAMetrics F} (hm : m.latencySamples = ∅) (records : List (String × F)) :
    ∃ result, (m.recordAll records).getOperatorP95 = .ok result ∧
      ∀ oid, ReportsP95 (lastItems 1000 (latenciesOf oid records)) (result.get oid) := by
  have hkept : ∀ xs : List F, xs ≠ [] → lastItems 1000 xs ≠ [] := fun _ hne => lastItems_ne_nil (by decide) hne
  obtain ⟨result, hresult, hreports⟩ := exists_percentiles (lastItems 1000) (fun xs => xs)
    (latencySamples_recordAll hm records) hkept (fun _ hne => hne) (lastItems_nil 1000)
  exact ⟨result, hresult, hreports⟩

end HEAMetrics

end Hea
end HybridStream

namespace HybridStream
namespace Workloads

open Lib Py Hea

variable {F : Type} [PyRuntime F]

namespace FeatureAggWindow

/-- What is emitted for a window, if the deviation of its values can be computed. -/
theorem aggregate_eq {s : FeatureAggWindow F} (hwindow : s.window ≠ []) (record : Record F) {v : F}
    (hp95 : p95Of s.window = .ok v) :
    ∃ fields : F → Record F, (∀ stdev, (fields stdev).get "agg_p95" = some (.float v)) ∧
      s.aggregate record = (deviationOf s.window).map fields := by
  unfold aggregate
  split
  · exact absurd ‹_› hwindow
  · rename_i x xs hxs
    rw [hxs] at hp95
    refine ⟨fun stdev => Dict.ofList
      [ ("zone_id",      .str s.zoneId),
        ("agg_sum",      .float (sumFloats (x :: xs))),
        ("agg_mean",     .float (PyRuntime.mean (x :: xs))),
        ("agg_min",      .float (pyMinOf x xs)),
        ("agg_max",      .float (pyMaxOf x xs)),
        ("agg_p95",      .float v),
        ("agg_stdev",    .float stdev),
        ("window_count", .int (x :: xs).length),
        ("source_ts",    record.getD "timestamp" (.int 0)) ], fun stdev => ?_, ?_⟩
    · refine Dict.get_update_of_mem ?_ (by simp)
      show ["zone_id", "agg_sum", "agg_mean", "agg_min", "agg_max", "agg_p95", "agg_stdev", "window_count",
        "source_ts"].Nodup
      decide
    · rw [hxs]
      dsimp only
      rw [hp95]
      cases deviationOf (x :: xs) with
      | error e     => rfl
      | ok stdev => rfl

section Emission

variable [LinearOrder F] [OrderedRuntime F] [ExactShare F] {fresh : FeatureAggWindow F}

/-- **The window** reports the nearest rank of its last values with each hundredth value, unless `statistics.stdev`
    raises on them. -/
theorem emission_of_history {operatorId zoneId : String} {windowSize : Nat} (hsize : 0 < windowSize)
    (hnew : new operatorId zoneId windowSize = .ok fresh) (history : List (Clock F × Record F)) (clock : Clock F)
    {record : Record F} {value : F} (hvalue : (record.getD "normalized_value" (.float 0.0)).toFloat = .ok value) :
    ∃ (fields : F → Record F) (v : F), ((process clock record).exec (operator.run fresh history)).1 =
        (if (counted history + 1) % 100 = 0 then
          (deviationOf (lastItems windowSize (valuesOf history ++ [value]))).map (fun stdev => [fields stdev])
        else .ok []) ∧
      (∀ stdev, (fields stdev).get "agg_p95" = some (.float v)) ∧
      IsNearestRank (19 / 20) (lastItems windowSize (valuesOf history ++ [value])) v := by
  have hfresh : fresh = ⟨operatorId, zoneId, windowSize, [], 100, 0⟩ := eq_of_new (by omega) hnew
  obtain ⟨t, ht, hrun⟩ := run_new (by omega) hnew history
  -- the window holds the last values of the history, and with this one it is not empty
  have hholds : Holds windowSize (valuesOf history) (operator.run fresh history) := by
    have hempty : Holds windowSize [] fresh := by
      refine ⟨?_, ?_⟩
      · rw [hfresh]
      · rw [hfresh, lastItems_nil]
    exact hempty.run history
  have hpushed : Holds windowSize (valuesOf history ++ [value]) ((operator.run fresh history).pushed value) :=
    hholds.pushed value
  have hwindow : ((operator.run fresh history).pushed value).window ≠ [] := by
    refine pushed_window_ne_nil ?_ value
    rw [hholds.1]
    exact Int.natCast_pos.mpr hsize
  -- the counter has what is left of the values by a hundred, so this call is due exactly at a hundredth
  have hcount : (operator.run fresh history).countSinceEmit + 1 < (operator.run fresh history).emitEvery ↔
      ¬ (counted history + 1) % 100 = 0 := by
    rw [hrun]
    show ((counted history % 100 : Nat) : Int) + 1 < t.emitEvery ↔ _
    rw [ht.emitEvery, hfresh]
    dsimp only
    omega
  obtain ⟨-, -, v, -, hp95, hrank⟩ := p95Of_eq hwindow
  obtain ⟨fields, hfields, haggregate⟩ := aggregate_eq
    (s := ((operator.run fresh history).pushed value).withCount ((operator.run fresh history).countSinceEmit + 1))
    hwindow record hp95
  refine ⟨fields, v, ?_, hfields, hpushed.2 ▸ hrank⟩
  -- due: the aggregate, unless the deviation raises; not due: nothing is put out
  by_cases hfull : (counted history + 1) % 100 = 0
  · have hemit := exec_process_emit (s := operator.run fresh history) clock hvalue (mt hcount.mp (not_not.mpr hfull))
    rw [if_pos hfull, ← hpushed.2]
    refine (congrArg Prod.fst hemit).trans ?_
    rw [haggregate]
    show ((deviationOf ((operator.run fresh history).pushed value).window).map fields).map (fun out => [out]) = _
    cases deviationOf ((operator.run fresh history).pushed value).window with
    | error e  => rfl
    | ok stdev => rfl
  · have hquiet := exec_process_quiet (s := operator.run fresh history) clock hvalue (hcount.mpr hfull)
    rw [if_neg hfull]
    exact congrArg Prod.fst hquiet

end Emission

end FeatureAggWindow

/-! ## The three together

The index, the telemetry and the window in one statement. -/

section NearestRank

variable (F) [LinearOrder F] [OrderedRuntime F] [ExactShare F]

/-- **Percentiles**: the index is in range, and it selects the sample at the nearest rank, whatever the order of the
    samples; after any latencies the telemetry reports it of the last thousand, and after any records a window of the
    last values it holds, with each hundredth value whose window `statistics.stdev` takes. The samples are sorted by an
    order, so the index is all that has to be computed, and histories only have to say what is kept. -/
theorem p95_nearest_rank :
    (∀ samples : List F, samples ≠ [] →
      0 ≤ rankIndex (19 / 20) samples.length ∧ rankIndex (19 / 20) samples.length < samples.length ∧
      ∃ v, (pySorted samples)[(rankIndex (19 / 20) samples.length).toNat]? = some v ∧
        IsNearestRank (19 / 20) samples v ∧
        ∀ samples', samples.Perm samples' → HEAMetrics.p95 samples' = .ok v) ∧
    (∀ m : HEAMetrics F, m.latencySamples = ∅ → ∀ records, ∃ result,
      (m.recordAll records).getOperatorP95 = .ok result ∧
      ∀ oid, ReportsP95 (lastItems 1000 (HEAMetrics.latenciesOf oid records)) (result.get oid)) ∧
    (∀ (operatorId zoneId : String) (windowSize : Nat), 0 < windowSize → ∀ fresh,
      FeatureAggWindow.new operatorId zoneId windowSize = .ok fresh →
      ∀ (history : List (Clock F × Record F)) (clock : Clock F) (record : Record F) (value : F),
        (record.getD "normalized_value" (.float 0.0)).toFloat = .ok value →
        ∃ (fields : F → Record F) (v : F),
          ((FeatureAggWindow.process clock record).exec (FeatureAggWindow.operator.run fresh history)).1 =
            (if (FeatureAggWindow.counted history + 1) % 100 = 0 then
              (FeatureAggWindow.deviationOf (lastItems windowSize (FeatureAggWindow.valuesOf history ++ [value]))).map
                (fun stdev => [fields stdev])
            else .ok []) ∧
          (∀ stdev, (fields stdev).get "agg_p95" = some (.float v)) ∧
          IsNearestRank (19 / 20) (lastItems windowSize (FeatureAggWindow.valuesOf history ++ [value])) v) := by
  refine ⟨fun samples hne => ?_, fun m hm records => HEAMetrics.getOperatorP95_recordAll hm records, ?_⟩
  · obtain ⟨hlow, hhigh, v, hget, hv, hrank⟩ := p95Of_eq hne
    refine ⟨hlow, hhigh, v, hget, hrank, fun samples' hperm => ?_⟩
    rw [HEAMetrics.p95_eq, ← hv]
    unfold p95Of
    rw [pySorted_congr hperm]
  · intro operatorId zoneId windowSize hsize fresh hnew history clock record value hvalue
    exact FeatureAggWindow.emission_of_history hsize hnew history clock hvalue

end NearestRank

/-- The greatest of three samples, for an operator, and for a window that takes its hundredth value. -/
theorem p95_nearest_rank_three :
    HEAMetrics.p95 ([3, 1, 2] : List ℚ) = .ok 3 ∧
    (∃ result, ((⟨0, 0, 0, ∅⟩ : HEAMetrics ℚ).recordAll [("op", 3), ("op", 1)]).getOperatorP95 = .ok result ∧
      ReportsP95 (lastItems 1000 (HEAMetrics.latenciesOf "op" [("op", 3), ("op", 1)])) (result.get "op")) ∧
    ∃ (history : List (Clock ℚ × Record ℚ)) (out : Record ℚ) (v : ℚ),
      ((FeatureAggWindow.process ⟨0, fun _ => 0⟩ ∅).exec
        (FeatureAggWindow.operator.run ⟨"agg-1", "zone_1", 3, [], 100, 0⟩ history)).1 = .ok [out] ∧
      out.get "agg_p95" = some (.float v) ∧
      IsNearestRank (19 / 20) (lastItems 3 (FeatureAggWindow.valuesOf history ++ [0.0])) v := by
  obtain ⟨hsamples, htelemetry, hwindow⟩ := p95_nearest_rank ℚ
  refine ⟨?_, ?_, ?_⟩
  · obtain ⟨-, -, v, -, hrank, hperm⟩ := hsamples [3, 1, 2] (by simp)
    have hthree : IsNearestRank (19 / 20) ([3, 1, 2] : List ℚ) 3 :=
      ⟨by simp, by norm_num [List.countP_cons], by norm_num [List.countP_cons]⟩
    rw [hperm _ (List.Perm.refl _), hrank.unique hthree]
  · obtain ⟨result, hresult, hreports⟩ := htelemetry ⟨0, 0, 0, ∅⟩ rfl [("op", 3), ("op", 1)]
    exact ⟨result, hresult, hreports "op"⟩
  · let history : List (Clock ℚ × Record ℚ) := List.replicate 99 (⟨0, fun _ => 0⟩, ∅)
    obtain ⟨fields, v, hexec, hfields, hrank⟩ :=
      hwindow "agg-1" "zone_1" 3 (by decide) _ rfl history ⟨0, fun _ => 0⟩ ∅ 0.0 rfl
    have hfull : (FeatureAggWindow.counted history + 1) % 100 = 0 := by decide +kernel
    have hlast : lastItems 3 (FeatureAggWindow.valuesOf history ++ [0.0]) = [0.0, 0.0, 0.0] := by decide +kernel
    rw [if_pos hfull, hlast] at hexec
    exact ⟨history, _, v, hexec, hfields _, hrank⟩

end Workloads
end HybridStream
