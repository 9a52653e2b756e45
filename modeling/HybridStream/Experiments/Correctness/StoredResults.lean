import HybridStream.Experiments.Correctness.Campaign
import HybridStream.Experiments.Correctness.SnapshotWindows

/-!
# `Experiments.Correctness.StoredResults` — from the collector to the comparisons

A run creates a collector, starts it, waits, stops it and saves its snapshots; nobody records anything into the
collector. So every snapshot is the one of no calls (`unmeasured_of_collectionLoop`), every row that is saved is empty
(`runRow_of_run`), and what the analysis loads after a campaign and takes apart into workload, system and network has no
latency, no compliance and a throughput of zero (`nothing_measured`). Arithmetic is exact.
-/

namespace HybridStream
namespace Experiments

open Lib Py Proc

/-! ## What a run saves

The collector of a run is created and never handed on, so its accumulators are empty at every snapshot, and a snapshot
of nothing becomes one row without measurements. -/

/-- A snapshot of a collector that nothing was recorded into. -/
structure Unmeasured (snap : MetricSnapshot ℝ) : Prop where
  m1 : snap.m1P95LatencyMs.keys = []
  m2 : snap.m2SloCompliance.keys = []
  m3 : snap.m3ThroughputEps = 0
  m4 : snap.m4MigrationPauseMs = 0
  m5 : snap.m5AodeOverheadMs = 0
  m6 : snap.m6EdgeUtilization = 0

theorem keys_eq_nil {α : Type} {d : Dict String α} (h : ∀ k, d.get k = none) : d.keys = [] := by
  refine List.eq_nil_iff_forall_not_mem.mpr fun k hk => ?_
  obtain ⟨v, hv⟩ := Dict.mem_keys_iff.mp hk
  rw [h k] at hv
  cases hv

/-- The batch metrics of no calls. -/
theorem Batch.unmeasured {configId : String} {repetition : Int} {startTime opened closed : ℝ} {snap : MetricSnapshot ℝ}
    (h : Batch configId repetition startTime ⟨[], opened, closed⟩ snap) : Unmeasured snap where
  m1 := keys_eq_nil fun op => by
    have hm1 := h.m1 op
    rw [List.filterMap_nil, lastItems_nil] at hm1
    cases hget : snap.m1P95LatencyMs.get op with
    | none => rfl
    | some v =>
        rw [hget] at hm1
        exact absurd hm1.mem List.not_mem_nil
  m2 := keys_eq_nil h.m2
  m3 := by
    rw [h.m3, ingested, List.map_nil, List.sum_nil, Int.cast_zero, zero_div]
  m4 := by
    have hm4 := h.m4
    rwa [List.filterMap_nil, IsMaximum, if_pos rfl] at hm4
  m5 := h.m5.trans (if_pos rfl)
  m6 := h.m6.trans (if_pos rfl)

/-- **The snapshots** of a collector that nothing is recorded into. -/
theorem unmeasured_of_collectionLoop {c : MetricsCollector ℝ} (h : Accumulated [] c) (times : List ℝ) :
    ∀ snap ∈ c.collectionLoop (times.map .snapshot),
      snap.configId = c.configId ∧ snap.repetition = c.repetition ∧ Unmeasured snap := by
  induction times generalizing c with
  | nil => exact nofun
  | cons now times ih =>
      obtain ⟨built, c', hexec, hbatch, hnext, hconfigId, hrepetition, -, -⟩ := h.buildSnapshot now
      have hloop : c.collectionLoop ((now :: times).map .snapshot) =
          built :: c'.collectionLoop (times.map .snapshot) := by
        unfold MetricsCollector.collectionLoop
        rw [List.map_cons, MetricsCollector.history, hexec]
        rfl
      rw [hloop]
      intro snap hsnap
      rcases List.mem_cons.mp hsnap with rfl | hsnap
      · exact ⟨hbatch.configId, hbatch.repetition, hbatch.unmeasured⟩
      · rw [← hconfigId, ← hrepetition]
        exact ih hnext snap hsnap

/-- A row of a run: it names the run, comes from after the warmup, and holds no measurement. -/
structure RunRow (config : ExperimentConfig) (repetition : Int) (row : StoredRow ℝ) : Prop where
  configId     : row.configId = config.configId
  repetition   : row.repetition = repetition
  warm         : 600 ≤ row.timestampS
  operatorType : row.operatorType = "_global"
  latency      : row.m1P95LatencyMs = none
  compliance   : row.m2SloCompliance = none
  zeros        : row.m3ThroughputEps = 0 ∧ row.m4MigrationPauseMs = 0 ∧ row.m5AodeOverheadMs = 0 ∧
    row.m6EdgeUtilization = 0

/-- Without measurements there is one row for the whole snapshot. -/
theorem rowsOf_unmeasured (union : SetUnion) {snap : MetricSnapshot ℝ} (h : Unmeasured snap) :
    rowsOf union snap = [snap.row "_global" none none] := by
  have hnone : union.elements snap.m1P95LatencyMs.keys snap.m2SloCompliance.keys = [] := by
    rw [h.m1, h.m2]
    refine List.eq_nil_iff_forall_not_mem.mpr fun op hop => ?_
    rcases (union.mem_iff [] [] op).mp hop with hop | hop <;> exact absurd hop List.not_mem_nil
  unfold rowsOf
  rw [hnone]
  rfl

theorem warmupS_eq (workload : Workload) : (workload.warmupS : ℝ) = 600 := by
  cases workload <;> norm_num [Workload.warmupS]

/-- **The rows of a run.** -/
theorem runRow_of_run (union : SetUnion) (config : ExperimentConfig) (repetition : Int) (measured : ℝ × ℝ × List ℝ) :
    ∀ row ∈ rowsOfRun union config repetition measured, RunRow config repetition row := by
  intro row hrow
  obtain ⟨snap, hsnap, hrow⟩ := List.mem_flatMap.mp hrow
  obtain ⟨hsnap, hwarm⟩ := List.mem_filter.mp hsnap
  have hempty := accumulated_new config.configId repetition measured.2.1 measured.2.1
  obtain ⟨hconfigId, hrepetition, hunmeasured⟩ := unmeasured_of_collectionLoop hempty measured.2.2 snap hsnap
  rw [rowsOf_unmeasured union hunmeasured, List.mem_singleton] at hrow
  have hwarm : (config.workload.warmupS : ℝ) ≤ snap.timestamp := of_decide_eq_true hwarm
  rw [warmupS_eq] at hwarm
  rw [hrow]
  exact ⟨hconfigId, hrepetition, hwarm, rfl, rfl, rfl, hunmeasured.m3, hunmeasured.m4, hunmeasured.m5, hunmeasured.m6⟩

/-! ## What a campaign saves

The results directory has the files that were there before, and files of the campaign's own runs. -/

/-- A file of a run of the matrix. -/
def FileOfRun (matrix : List ExperimentConfig) (stored : List (StoredRow ℝ)) : Prop :=
  ∀ row ∈ stored, ∃ config ∈ matrix, ∃ repetition ∈ repetitions, RunRow config repetition row

/-- The results directory during a campaign. -/
def Recorded (matrix : List ExperimentConfig) (before : ResultFiles ℝ) (lab : Lab W ℝ) : Prop :=
  ∀ stored ∈ lab.files.values, stored ∈ before.values ∨ FileOfRun matrix stored

variable {W : Type} {matrix : List ExperimentConfig} {before : ResultFiles ℝ} (site : Site W ℝ)

/-- What leaves the files alone. -/
theorem Recorded.of_files {lab lab' : Lab W ℝ} (h : Recorded matrix before lab) (hfiles : lab'.files = lab.files) :
    Recorded matrix before lab' := by
  unfold Recorded
  rw [hfiles]
  exact h

/-- One run saves rows of its own. -/
theorem keeps_runSingle {config : ExperimentConfig} (hconfig : config ∈ matrix) {repetition : Int}
    (hrepetition : repetition ∈ repetitions) :
    Keeps (Recorded matrix before) (runSingle site config repetition) := by
  intro lab hlab
  rcases (ends_runSingle site lab config repetition).of_exec with
    ⟨_, ended, hexec, measured, -, hfiles⟩ | ⟨_, ended, hexec, -, hfiles⟩
  · rw [hexec]
    intro stored hstored
    rw [hfiles] at hstored
    unfold saveSnapshots at hstored
    split at hstored
    · exact hlab stored hstored
    · rcases Dict.mem_values_set hstored with rfl | hold
      · exact Or.inr fun row hrow =>
          ⟨config, hconfig, repetition, hrepetition, runRow_of_run site.union config repetition measured row hrow⟩
      · exact hlab stored hold
  · rw [hexec]
    exact hlab.of_files hfiles

theorem keeps_runReps {config : ExperimentConfig} (hconfig : config ∈ matrix) {reps : List Int}
    (hreps : ∀ rep ∈ reps, rep ∈ repetitions) :
    Keeps (Recorded matrix before) (runReps site false config reps) := by
  induction reps with
  | nil => exact keeps_pure _
  | cons rep reps ih =>
      exact keeps_bind (keeps_runSingle site hconfig (hreps rep List.mem_cons_self))
        fun _ => ih fun rep' hmem => hreps rep' (List.mem_cons_of_mem _ hmem)

/-- Shaping the network saves nothing. -/
theorem keeps_applyNetworkProfile (network : Network) :
    Keeps (Recorded matrix before) (applyNetworkProfile site network.profile) := by
  intro lab hlab
  rcases (ends_applyNetworkProfile site lab network).of_exec with
    ⟨_, ended, hexec, hfiles, -⟩ | ⟨_, ended, hexec, hfiles, -⟩
  · rw [hexec]
    exact hlab.of_files hfiles
  · rw [hexec]
    exact hlab.of_files hfiles

theorem keeps_runConfigs {configs : List ExperimentConfig} (hconfigs : ∀ config ∈ configs, config ∈ matrix)
    (current : Option Network) : Keeps (Recorded matrix before) (runConfigs site false current configs) := by
  induction configs generalizing current with
  | nil => exact keeps_pure _
  | cons config configs ih =>
      have hreps : Keeps (Recorded matrix before) (runReps site false config repetitions) :=
        keeps_runReps site (hconfigs config List.mem_cons_self) fun _ hmem => hmem
      have hrest := keeps_bind hreps fun _ => ih (fun config' hmem => hconfigs config' (List.mem_cons_of_mem _ hmem))
        (some config.network)
      unfold runConfigs
      split
      · exact keeps_bind (keeps_applyNetworkProfile site config.network) fun _ => hrest
      · exact hrest

/-- The parts of a configuration are read back from its id. -/
theorem partsOf_configId (config : ExperimentConfig) :
    partsOf config.configId = [config.workload.name, config.system.name, config.network.name] := by
  obtain ⟨workload, system, network⟩ := config
  cases workload <;> cases system <;> cases network <;> decide

/-- **Nothing is measured.** What the analysis loads after a campaign, if it can load it, is what was there before or is
    named after a configuration of the campaign and holds no value: no latency, no compliance and a throughput of
    zero. No step of a run hands its collector to anybody, so each of its snapshots is the one of no calls. -/
theorem nothing_measured (listing : Listing ℝ) (resultsDir : String) (matrix : List ExperimentConfig) (host : W)
    (before : ResultFiles ℝ) (nan : ℝ) :
    ∃ result ended, exec (runAll site false matrix) (Lab.new host before) = (result, ended) ∧
      ∀ rows, loadAllResults listing resultsDir ended.files = .ok rows → ∀ row ∈ rows,
        (∃ stored ∈ before.values, row.stored ∈ stored) ∨
        ∃ config ∈ matrix, ∃ repetition ∈ repetitions, RunRow config repetition row.stored ∧
          let read := row.toRow nan
          read.workload = config.workload.name ∧ read.system = config.system.name ∧
            read.network = config.network.name ∧ read.repetition = repetition ∧ read.m1P95LatencyMs = nan ∧
            read.m2Compliance = nan ∧ read.m3Throughput = 0 := by
  refine ⟨(exec (runAll site false matrix) (Lab.new host before)).1,
    (exec (runAll site false matrix) (Lab.new host before)).2, rfl, fun rows hload row hrow => ?_⟩
  have hrecorded : Recorded matrix before (exec (runAll site false matrix) (Lab.new host before)).2 :=
    keeps_runConfigs site (fun config hmem => (List.perm_insertionSort _ _).mem_iff.mp hmem) none _
      fun stored hmem => Or.inl hmem
  generalize (exec (runAll site false matrix) (Lab.new host before)).2 = ended at hload hrecorded
  -- the row comes from a file of the directory
  obtain ⟨stored, hstored, source, hsource, rfl⟩ : ∃ stored ∈ ended.files.values, ∃ source ∈ stored,
      source.parsed = row := by
    unfold loadAllResults at hload
    dsimp only at hload
    split at hload
    · cases hload
    · split at hload
      · cases hload
      · cases hload
        obtain ⟨source, hsource, rfl⟩ := List.mem_map.mp (List.mem_filter.mp hrow).1
        obtain ⟨stored, hstored, hmem⟩ := List.mem_flatten.mp hsource
        exact ⟨stored, (listing.perm ended.files).mem_iff.mp hstored, source, hmem, rfl⟩
  rcases hrecorded stored hstored with hold | hrun
  · exact Or.inl ⟨stored, hold, hsource⟩
  · obtain ⟨config, hconfig, repetition, hrepetition, hrunRow⟩ := hrun source hsource
    refine Or.inr ⟨config, hconfig, repetition, hrepetition, hrunRow, ?_⟩
    have hparts := hrunRow.configId ▸ partsOf_configId config
    simp [LoadedRow.toRow, StoredRow.parsed, hparts, hrunRow.repetition, hrunRow.latency, hrunRow.compliance,
      hrunRow.zeros.1]

end Experiments
end HybridStream
