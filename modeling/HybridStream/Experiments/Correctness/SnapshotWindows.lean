import HybridStream.Experiments.Collector
import HybridStream.Lib.NamedEntries

/-!
# `Experiments.Correctness.SnapshotWindows` — each sample is counted in one snapshot

The snapshots cut a history into windows. What the six accumulators hold between two snapshots is what was recorded
since the last one (`Accumulated`), each call adds its sample to it, and a snapshot sums it up and empties all of them
at once. So the snapshots are the batch metrics of the windows, the windows and the open one at the end are the whole
history, and no event is counted twice or lost. Arithmetic is exact.
-/

namespace HybridStream
namespace Experiments

open Lib Py

/-! ## What calls record

What each call contributes to each of the metrics, as functions of lists of calls. -/

namespace Call

variable {F : Type}

def latencyOf (op : String) : Call F → Option F
  | .latency op' latencyMs _ => if op' = op then some latencyMs else none
  | _                        => none

/-- A latency with its objective. -/
def objectiveOf (op : String) : Call F → Option (F × F)
  | .latency op' latencyMs (some sloMs) => if op' = op then some (latencyMs, sloMs) else none
  | _                                   => none

def nEvents : Call F → Int
  | .ingest n => n
  | _         => 0

def pause : Call F → Option F
  | .migration pauseDurationMs => some pauseDurationMs
  | _                          => none

def overhead : Call F → Option F
  | .aodeOverhead durationMs => some durationMs
  | _                        => none

/-- A sample of utilization is the greater of two fractions. -/
def utilization [LinearOrder F] : Call F → Option F
  | .edgeUtilization cpuFrac memFrac => some (max cpuFrac memFrac)
  | _                                => none

end Call

/-- The events that calls report. -/
def ingested {F : Type} (calls : List (Call F)) : Int := (calls.map Call.nEvents).sum

/-- How many latencies keep their objective, and of how many. -/
noncomputable def compliance (objectives : List (ℝ × ℝ)) : Int × Int :=
  (objectives.countP (fun o => o.1 ≤ o.2), objectives.length)

theorem compliance_concat (objectives : List (ℝ × ℝ)) (o : ℝ × ℝ) :
    compliance (objectives ++ [o]) =
      ((compliance objectives).1 + (if o.1 ≤ o.2 then 1 else 0), (compliance objectives).2 + 1) := by
  unfold compliance
  by_cases h : o.1 ≤ o.2 <;> simp [h]

/-! ## What the accumulators hold

The invariant: the accumulators are what the calls since the last snapshot recorded. One lemma for each method. -/

/-- The accumulators hold what the calls recorded. -/
structure Accumulated (calls : List (Call ℝ)) (c : MetricsCollector ℝ) : Prop where
  latencies    : ∀ op, c.latencySamples.get op = entryOf id (calls.filterMap (Call.latencyOf op))
  objectives   : ∀ op, c.sloCounters.get op = entryOf compliance (calls.filterMap (Call.objectiveOf op))
  ingestCount  : c.ingestCount = ingested calls
  pauses       : c.migrationTimes = calls.filterMap Call.pause
  overheads    : c.aodeOverheadSamples = calls.filterMap Call.overhead
  utilizations : c.edgeUtilizations = calls.filterMap Call.utilization

section Steps

variable {calls : List (Call ℝ)} {c : MetricsCollector ℝ}

theorem accumulated_new (configId : String) (repetition : Int) (startTime ingestWindowStart : ℝ) :
    Accumulated [] (MetricsCollector.new configId repetition startTime ingestWindowStart) :=
  ⟨fun _ => rfl, fun _ => rfl, rfl, rfl, rfl, rfl⟩

theorem filterMap_concat {α β : Type} (f : α → Option β) (xs : List α) (x : α) :
    (xs ++ [x]).filterMap f = xs.filterMap f ++ (f x).toList := by
  cases hx : f x <;> simp [hx]

theorem filterMap_concat_none {α β : Type} {f : α → Option β} {x : α} (hx : f x = none) (xs : List α) :
    (xs ++ [x]).filterMap f = xs.filterMap f := by
  rw [filterMap_concat, hx, Option.toList_none, List.append_nil]

/-- A latency enters the samples of its type. -/
theorem Accumulated.get_latencySamples (h : Accumulated calls c) (op : String) (latencyMs : ℝ) (sloMs : Option ℝ)
    (op' : String) :
    (c.recordLatency op latencyMs sloMs).latencySamples.get op' =
      entryOf id ((calls ++ [Call.latency op latencyMs sloMs]).filterMap (Call.latencyOf op')) := by
  have hset : (c.recordLatency op latencyMs sloMs).latencySamples =
      c.latencySamples.set op (c.latencySamples.getD op [] ++ [latencyMs]) := by
    cases sloMs <;> rfl
  rw [hset, Dict.get_set, filterMap_concat, Call.latencyOf]
  by_cases hop : op' = op
  · have hgetD : c.latencySamples.getD op [] = calls.filterMap (Call.latencyOf op) := by
      unfold Dict.getD
      rw [h.latencies]
      exact getD_entryOf rfl
    rw [hop, if_pos rfl, if_pos rfl, hgetD, Option.toList_some, entryOf_concat]
    rfl
  · rw [if_neg hop, if_neg (Ne.symm hop), h.latencies, Option.toList_none, List.append_nil]

/-- A latency with an objective enters the counters of its type. -/
theorem Accumulated.get_sloCounters (h : Accumulated calls c) (op : String) (latencyMs sloMs : ℝ) (op' : String) :
    (c.recordLatency op latencyMs (some sloMs)).sloCounters.get op' =
      entryOf compliance ((calls ++ [Call.latency op latencyMs (some sloMs)]).filterMap (Call.objectiveOf op')) := by
  have hgetD : c.sloCounters.getD op (0, 0) = compliance (calls.filterMap (Call.objectiveOf op)) := by
    unfold Dict.getD
    rw [h.objectives]
    exact getD_entryOf rfl
  have hle : (PyRuntime.le latencyMs sloMs = true) = (latencyMs ≤ sloMs) := propext decide_eq_true_iff
  unfold MetricsCollector.recordLatency
  dsimp only
  rw [hgetD, Dict.get_set, filterMap_concat, Call.objectiveOf]
  by_cases hop : op' = op
  · rw [hop, if_pos rfl, if_pos rfl, Option.toList_some, entryOf_concat, compliance_concat]
    simp only [hle]
  · rw [if_neg hop, if_neg (Ne.symm hop), h.objectives, Option.toList_none, List.append_nil]

/-- A call of another method leaves both tables as they are. -/
theorem Accumulated.tables (h : Accumulated calls c) (call : Call ℝ) (hlatency : ∀ op, call.latencyOf op = none)
    (hobjective : ∀ op, call.objectiveOf op = none) :
    (∀ op, c.latencySamples.get op = entryOf id ((calls ++ [call]).filterMap (Call.latencyOf op))) ∧
      ∀ op, c.sloCounters.get op = entryOf compliance ((calls ++ [call]).filterMap (Call.objectiveOf op)) := by
  constructor
  · intro op
    rw [filterMap_concat_none (hlatency op)]
    exact h.latencies op
  · intro op
    rw [filterMap_concat_none (hobjective op)]
    exact h.objectives op

/-- **One call** adds its sample. -/
theorem Accumulated.record (h : Accumulated calls c) (call : Call ℝ) :
    Accumulated (calls ++ [call]) (c.record call) := by
  have hcount : c.ingestCount + call.nEvents = ingested (calls ++ [call]) := by simp [ingested, h.ingestCount]
  -- a call adds to one of the lists and leaves the others
  have hkept : ∀ {xs : List ℝ} {f : Call ℝ → Option ℝ}, xs = calls.filterMap f → f call = none →
      xs = (calls ++ [call]).filterMap f := fun hxs hf => hxs.trans (filterMap_concat_none hf calls).symm
  have hadded : ∀ {xs : List ℝ} {f : Call ℝ → Option ℝ} {x : ℝ}, xs = calls.filterMap f → f call = some x →
      xs ++ [x] = (calls ++ [call]).filterMap f := by
    intro xs f x hxs hf
    rw [filterMap_concat, hf, hxs, Option.toList_some]
  -- by the kind of call: which list is added to
  cases call with
  | latency op latencyMs sloMs =>
      have hcount : c.ingestCount = ingested (calls ++ [Call.latency op latencyMs sloMs]) :=
        (Int.add_zero _).symm.trans hcount
      have hlatencies := h.get_latencySamples op latencyMs sloMs
      cases sloMs with
      | none =>
          refine ⟨hlatencies, fun op' => ?_, hcount, hkept h.pauses rfl, hkept h.overheads rfl,
            hkept h.utilizations rfl⟩
          rw [filterMap_concat_none rfl]
          exact h.objectives op'
      | some slo =>
          exact ⟨hlatencies, h.get_sloCounters op latencyMs slo, hcount, hkept h.pauses rfl, hkept h.overheads rfl,
            hkept h.utilizations rfl⟩
  | ingest n =>
      obtain ⟨hlatencies, hobjectives⟩ := h.tables (.ingest n) (fun _ => rfl) (fun _ => rfl)
      exact ⟨hlatencies, hobjectives, hcount, hkept h.pauses rfl, hkept h.overheads rfl, hkept h.utilizations rfl⟩
  | migration pauseDurationMs =>
      obtain ⟨hlatencies, hobjectives⟩ := h.tables (.migration pauseDurationMs) (fun _ => rfl) (fun _ => rfl)
      exact ⟨hlatencies, hobjectives, (Int.add_zero _).symm.trans hcount, hadded h.pauses rfl,
        hkept h.overheads rfl, hkept h.utilizations rfl⟩
  | aodeOverhead durationMs =>
      obtain ⟨hlatencies, hobjectives⟩ := h.tables (.aodeOverhead durationMs) (fun _ => rfl) (fun _ => rfl)
      exact ⟨hlatencies, hobjectives, (Int.add_zero _).symm.trans hcount, hkept h.pauses rfl,
        hadded h.overheads rfl, hkept h.utilizations rfl⟩
  | edgeUtilization cpuFrac memFrac =>
      obtain ⟨hlatencies, hobjectives⟩ := h.tables (.edgeUtilization cpuFrac memFrac) (fun _ => rfl) (fun _ => rfl)
      have hmax : pyMax cpuFrac memFrac = max cpuFrac memFrac := OrderedRuntime.pyMax_eq_max cpuFrac memFrac
      refine ⟨hlatencies, hobjectives, (Int.add_zero _).symm.trans hcount, hkept h.pauses rfl,
        hkept h.overheads rfl, ?_⟩
      show c.edgeUtilizations ++ [pyMax cpuFrac memFrac] = _
      rw [hmax]
      exact hadded h.utilizations rfl

end Steps

/-! ## Batch metrics

The metrics of a list of calls, defined without the accumulators, and the snapshot that is made of them. -/

/-- The fraction of latencies that keep their objective. -/
noncomputable def fraction (objectives : List (ℝ × ℝ)) : ℝ :=
  objectives.countP (fun o => o.1 ≤ o.2) / objectives.length

/-- The greatest of some numbers, zero if there are none. -/
def IsMaximum (xs : List ℝ) (x : ℝ) : Prop := if xs = [] then x = 0 else IsGreatest {y | y ∈ xs} x

/-- The mean of some numbers, zero if there are none. -/
noncomputable def average (xs : List ℝ) : ℝ := if xs = [] then 0 else xs.sum / xs.length

/-- The calls between two snapshots, with the times the window was opened and closed. -/
structure Window where
  calls  : List (Call ℝ)
  opened : ℝ
  closed : ℝ

/-- The length throughput is divided by: a second at least. -/
noncomputable def Window.length (w : Window) : ℝ := max (w.closed - w.opened) 1

/-- The snapshot of a window. -/
structure Batch (configId : String) (repetition : Int) (startTime : ℝ) (w : Window) (s : MetricSnapshot ℝ) : Prop where
  timestamp  : s.timestamp = w.closed - startTime
  configId   : s.configId = configId
  repetition : s.repetition = repetition
  m1         : ∀ op, ReportsP95 (lastItems 1000 (w.calls.filterMap (Call.latencyOf op))) (s.m1P95LatencyMs.get op)
  m2         : ∀ op, s.m2SloCompliance.get op = entryOf fraction (w.calls.filterMap (Call.objectiveOf op))
  m3         : s.m3ThroughputEps = ingested w.calls / w.length
  m4         : IsMaximum (w.calls.filterMap Call.pause) s.m4MigrationPauseMs
  m5         : s.m5AodeOverheadMs = average (w.calls.filterMap Call.overhead)
  m6         : s.m6EdgeUtilization = average (w.calls.filterMap Call.utilization)

section Snapshots

variable {calls : List (Call ℝ)} {c : MetricsCollector ℝ}

theorem Accumulated.p95LatencyMs (h : Accumulated calls c) : ∃ m1, c.p95LatencyMs = .ok m1 ∧
    ∀ op, ReportsP95 (lastItems 1000 (calls.filterMap (Call.latencyOf op))) (m1.get op) :=
  exists_percentiles id (lastItems 1000) h.latencies (fun _ hne => hne)
    (fun _ hne => lastItems_ne_nil (by decide) hne) (lastItems_nil 1000)

theorem Accumulated.sloCompliance (h : Accumulated calls c) : ∃ m2, c.sloCompliance = .ok m2 ∧
    ∀ op, m2.get op = entryOf fraction (calls.filterMap (Call.objectiveOf op)) := by
  refine ⟨Dict.mapValues (fun counts => (counts.1 : ℝ) / counts.2) c.sloCounters, ?_, fun op => ?_⟩
  · refine bind_eq_ok.mpr ⟨_, mapM_entries fun e he => ?_, congrArg Except.ok (Dict.ofList_entries _)⟩
    obtain ⟨hne, heq⟩ := entryOf_eq_some ((h.objectives e.1).symm.trans (Dict.get_eq_some_iff.mpr he))
    have htotal : 0 < e.2.2 := by
      rw [heq]
      exact Int.natCast_pos.mpr (List.length_pos_iff.mpr hne)
    unfold MetricsCollector.shareOf
    rw [if_pos htotal, intDiv, if_neg htotal.ne']
    rfl
  · rw [Dict.get_mapValues, h.objectives]
    cases calls.filterMap (Call.objectiveOf op) with
    | nil => rfl
    | cons o os =>
        refine congrArg some ?_
        simp [compliance, fraction]

theorem isMaximum_maxOrZero (xs : List ℝ) : IsMaximum xs (MetricsCollector.maxOrZero xs) := by
  unfold IsMaximum
  cases xs with
  | nil =>
      rw [if_pos rfl]
      exact Reals.zero_eq
  | cons x xs =>
      rw [if_neg (List.cons_ne_nil x xs)]
      exact OrderedRuntime.isGreatest_pyMaxOf x xs

theorem meanOrZero_eq (xs : List ℝ) : MetricsCollector.meanOrZero xs = average xs := by
  cases xs with
  | nil => exact Reals.zero_eq
  | cons x xs => rfl

/-- **One snapshot** is the batch metrics of what was recorded, and leaves nothing behind. -/
theorem Accumulated.buildSnapshot (h : Accumulated calls c) (now : ℝ) :
    ∃ s c', (MetricsCollector.buildSnapshot now).exec c = (.ok s, c') ∧
      Batch c.configId c.repetition c.startTime ⟨calls, c.ingestWindowStart, now⟩ s ∧
      Accumulated [] c' ∧ c'.configId = c.configId ∧ c'.repetition = c.repetition ∧ c'.startTime = c.startTime ∧
      c'.ingestWindowStart = now := by
  obtain ⟨m1, hm1, hbatch1⟩ := h.p95LatencyMs
  obtain ⟨m2, hm2, hbatch2⟩ := h.sloCompliance
  -- a window of less than a second counts as one second, so nothing is divided by zero
  have hlength : pyMax (now - c.ingestWindowStart) 1.0 = max (now - c.ingestWindowStart) 1 := by
    rw [OrderedRuntime.pyMax_eq_max]
    norm_num
  have hpos : max (now - c.ingestWindowStart) 1 ≠ 0 := (lt_max_of_lt_right one_pos).ne'
  have hm3 : (do floatDiv (← floatOfInt c.ingestCount) (pyMax (now - c.ingestWindowStart) 1.0) : Except PyError ℝ) =
      .ok (c.ingestCount / max (now - c.ingestWindowStart) 1) := by
    rw [hlength]
    exact Reals.floatDiv_eq hpos
  let s : MetricSnapshot ℝ :=
    { timestamp          := now - c.startTime
      configId           := c.configId
      repetition         := c.repetition
      m1P95LatencyMs     := m1
      m2SloCompliance    := m2
      m3ThroughputEps    := c.ingestCount / max (now - c.ingestWindowStart) 1
      m4MigrationPauseMs := MetricsCollector.maxOrZero c.migrationTimes
      m5AodeOverheadMs   := MetricsCollector.meanOrZero c.aodeOverheadSamples
      m6EdgeUtilization  := MetricsCollector.meanOrZero c.edgeUtilizations }
  -- what is left is a collector that has just been made, with its window beginning now
  let c' : MetricsCollector ℝ := MetricsCollector.new c.configId c.repetition c.startTime now
  refine ⟨s, c', ?_, ?_, accumulated_new _ _ _ _, rfl, rfl, rfl, rfl⟩
  · unfold MetricsCollector.buildSnapshot
    simp only [Proc.exec_bind, Proc.exec_get, Proc.exec_lift, Proc.exec_modify, Proc.exec_pure, hm1, hm2]
    rw [hm3]
    rfl
  · refine ⟨rfl, rfl, rfl, hbatch1, hbatch2, ?_, ?_, ?_, ?_⟩
    · show (c.ingestCount : ℝ) / _ = _
      rw [h.ingestCount]
      rfl
    · rw [← h.pauses]
      exact isMaximum_maxOrZero _
    · rw [← h.overheads]
      exact meanOrZero_eq _
    · rw [← h.utilizations]
      exact meanOrZero_eq _

end Snapshots

/-! ## Histories

A history of calls and snapshots is cut into windows at the snapshots. Each call is in one of them or in the one that
is still open. -/

/-- All calls of a history. -/
def recorded : List (Event ℝ) → List (Call ℝ)
  | []                     => []
  | .record call :: events => call :: recorded events
  | .snapshot _ :: events  => recorded events

/-- The windows a history is cut into, from a window that was opened before and has some calls already. -/
def windowsFrom (opened : ℝ) (calls : List (Call ℝ)) : List (Event ℝ) → List Window
  | []                      => []
  | .record call :: events  => windowsFrom opened (calls ++ [call]) events
  | .snapshot now :: events => ⟨calls, opened, now⟩ :: windowsFrom now [] events

/-- The calls since the last snapshot. -/
def openCalls (calls : List (Call ℝ)) : List (Event ℝ) → List (Call ℝ)
  | []                     => calls
  | .record call :: events => openCalls (calls ++ [call]) events
  | .snapshot _ :: events  => openCalls [] events

/-- Every call is in one window, or in the open one. -/
theorem windows_partition (opened : ℝ) (calls : List (Call ℝ)) (events : List (Event ℝ)) :
    (windowsFrom opened calls events).flatMap Window.calls ++ openCalls calls events = calls ++ recorded events := by
  induction events generalizing opened calls with
  | nil => simp [windowsFrom, openCalls, recorded]
  | cons event events ih =>
      cases event with
      | record call =>
          rw [windowsFrom, openCalls, recorded, ih, List.append_assoc, List.singleton_append]
      | snapshot now =>
          rw [windowsFrom, openCalls, recorded, List.flatMap_cons, List.append_assoc, ih, List.nil_append]

section Histories

variable {calls : List (Call ℝ)} {c : MetricsCollector ℝ}

/-- **All snapshots** of a history are the batch metrics of its windows. -/
theorem Accumulated.history (h : Accumulated calls c) (events : List (Event ℝ)) :
    ∃ snapshots, (c.history events).1 = snapshots.map .ok ∧
      List.Forall₂ (Batch c.configId c.repetition c.startTime)
        (windowsFrom c.ingestWindowStart calls events) snapshots ∧
      Accumulated (openCalls calls events) (c.history events).2 := by
  induction events generalizing calls c with
  | nil => exact ⟨[], rfl, .nil, h⟩
  | cons event events ih =>
      cases event with
      | record call =>
          have hsame : (c.record call).configId = c.configId ∧ (c.record call).repetition = c.repetition ∧
              (c.record call).startTime = c.startTime ∧ (c.record call).ingestWindowStart = c.ingestWindowStart := by
            cases call with
            | latency op latencyMs sloMs => cases sloMs <;> exact ⟨rfl, rfl, rfl, rfl⟩
            | ingest | migration | aodeOverhead | edgeUtilization => exact ⟨rfl, rfl, rfl, rfl⟩
          obtain ⟨hconfig, hrepetition, hstart, hopened⟩ := hsame
          have hrest := ih (h.record call)
          rw [hconfig, hrepetition, hstart, hopened] at hrest
          exact hrest
      | snapshot now =>
          obtain ⟨s, c', hexec, hbatch, hempty, hconfig, hrepetition, hstart, hopened⟩ := h.buildSnapshot now
          obtain ⟨snapshots, hanswers, hbatches, hopen⟩ := ih hempty
          rw [hconfig, hrepetition, hstart, hopened] at hbatches
          unfold MetricsCollector.history
          rw [hexec]
          exact ⟨s :: snapshots, congrArg (Except.ok s :: ·) hanswers, .cons hbatch hbatches, hopen⟩

end Histories

/-! ## No event is lost

Throughput is events by length, so the events can be had back from the snapshots and their windows, and add up. -/

theorem ingested_append (calls calls' : List (Call ℝ)) :
    ingested (calls ++ calls') = ingested calls + ingested calls' := by
  simp [ingested]

/-- The events of a window are its throughput times its length. -/
theorem Batch.ingested_eq {configId : String} {repetition : Int} {startTime : ℝ} {w : Window} {s : MetricSnapshot ℝ}
    (h : Batch configId repetition startTime w s) : (ingested w.calls : ℝ) = s.m3ThroughputEps * w.length := by
  have hlength : w.length ≠ 0 := (lt_max_of_lt_right one_pos).ne'
  rw [h.m3, div_mul_cancel₀ _ hlength]

theorem sum_ingested {configId : String} {repetition : Int} {startTime : ℝ} {ws : List Window}
    {snapshots : List (MetricSnapshot ℝ)} (h : List.Forall₂ (Batch configId repetition startTime) ws snapshots) :
    (ingested (ws.flatMap Window.calls) : ℝ) =
      (List.zipWith (fun w s => s.m3ThroughputEps * w.length) ws snapshots).sum := by
  induction h with
  | nil => simp [ingested]
  | cons hbatch _ ih =>
      rw [List.flatMap_cons, ingested_append, Int.cast_add, ih, hbatch.ingested_eq, List.zipWith_cons_cons,
        List.sum_cons]

/-- **Every sample is counted in exactly one window**, over a whole history of calls and snapshots: the snapshots are
    the batch metrics of the windows, the windows and the open one are all calls, and the events that were ingested are
    those the throughputs account for and those of the open window. Between two snapshots the collector has exactly the
    calls since the first (`Accumulated`), and a snapshot takes them away. -/
theorem snapshots_count_once (configId : String) (repetition : Int) (startTime ingestWindowStart : ℝ)
    (events : List (Event ℝ)) :
    ∃ snapshots c,
      (MetricsCollector.new configId repetition startTime ingestWindowStart).history events =
        (snapshots.map .ok, c) ∧
      List.Forall₂ (Batch configId repetition startTime) (windowsFrom ingestWindowStart [] events) snapshots ∧
      (windowsFrom ingestWindowStart [] events).flatMap Window.calls ++ openCalls [] events = recorded events ∧
      c.ingestCount = ingested (openCalls [] events) ∧
      (ingested (recorded events) : ℝ) =
        (List.zipWith (fun w s => s.m3ThroughputEps * w.length) (windowsFrom ingestWindowStart [] events)
          snapshots).sum + c.ingestCount := by
  have hnew := accumulated_new configId repetition startTime ingestWindowStart
  obtain ⟨snapshots, hanswers, hbatches, hopen⟩ := hnew.history events
  have hbatches : List.Forall₂ (Batch configId repetition startTime) (windowsFrom ingestWindowStart [] events)
      snapshots := hbatches
  have hpartition := windows_partition ingestWindowStart [] events
  refine ⟨snapshots, _, Prod.ext hanswers rfl, hbatches, hpartition, hopen.ingestCount, ?_⟩
  rw [List.nil_append] at hpartition
  rw [← hpartition, ingested_append, Int.cast_add, sum_ingested hbatches, hopen.ingestCount]

end Experiments
end HybridStream
