import HybridStream.Py.Percentile

/-!
# `Experiments.Collector` — the metrics of an experiment run

`metrics/collector.py`: samples are recorded into six accumulators, and each snapshot sums up and empties them. A
snapshot that raises on the way leaves the accumulators it has not come to as they are.

Latencies and objectives are kept by operator type, events and pauses as sums and lists for the whole system. A
history is a list of calls and snapshots; `history` runs it and collects the snapshots, which is what the background
loop of the collector does with the times at which it wakes up.
-/

namespace HybridStream
namespace Experiments

open Lib Py

variable {F : Type}

/-- `MetricSnapshot`: the six metrics of a window, and what it is a window of. -/
structure MetricSnapshot (F : Type) where
  timestamp          : F
  configId           : String
  repetition         : Int
  m1P95LatencyMs     : Dict String F
  m2SloCompliance    : Dict String F
  m3ThroughputEps    : F
  m4MigrationPauseMs : F
  m5AodeOverheadMs   : F
  m6EdgeUtilization  : F

/-- `MetricsCollector`: what has been recorded since the last snapshot. -/
structure MetricsCollector (F : Type) where
  configId            : String
  repetition          : Int
  startTime           : F
  latencySamples      : Dict String (List F)
  sloCounters         : Dict String (Int × Int)
  ingestCount         : Int
  ingestWindowStart   : F
  migrationTimes      : List F
  aodeOverheadSamples : List F
  edgeUtilizations    : List F

/-- A call of one of the `record_` methods. -/
inductive Call (F : Type) where
  | latency (operatorType : String) (latencyMs : F) (sloMs : Option F)
  | ingest (nEvents : Int)
  | migration (pauseDurationMs : F)
  | aodeOverhead (durationMs : F)
  | edgeUtilization (cpuFrac memFrac : F)

/-- What happens to a collector: a call, or a snapshot at some time. -/
inductive Event (F : Type) where
  | record (call : Call F)
  | snapshot (now : F)

namespace MetricsCollector

/-- `__init__`: nothing recorded; both clocks are read once. -/
def new (configId : String) (repetition : Int) (startTime ingestWindowStart : F) : MetricsCollector F :=
  { configId            := configId
    repetition          := repetition
    startTime           := startTime
    latencySamples      := ∅
    sloCounters         := ∅
    ingestCount         := 0
    ingestWindowStart   := ingestWindowStart
    migrationTimes      := []
    aodeOverheadSamples := []
    edgeUtilizations    := [] }

variable [PyRuntime F]

/-- `record_latency`: a sample of the operator type, and with an objective another one that is met or not. -/
def recordLatency (c : MetricsCollector F) (operatorType : String) (latencyMs : F) (sloMs : Option F) :
    MetricsCollector F :=
  let samples := c.latencySamples.getD operatorType [] ++ [latencyMs]
  let c := { c with latencySamples := c.latencySamples.set operatorType samples }
  match sloMs with
  | none     => c
  | some slo =>
      let (compliant, total) := c.sloCounters.getD operatorType (0, 0)
      let counted := (compliant + (if PyRuntime.le latencyMs slo then 1 else 0), total + 1)
      { c with sloCounters := c.sloCounters.set operatorType counted }

/-- `record_ingest`: so many events more in this window. -/
def recordIngest (c : MetricsCollector F) (nEvents : Int) : MetricsCollector F :=
  { c with ingestCount := c.ingestCount + nEvents }

/-- `record_migration`: a pause of this window. -/
def recordMigration (c : MetricsCollector F) (pauseDurationMs : F) : MetricsCollector F :=
  { c with migrationTimes := c.migrationTimes ++ [pauseDurationMs] }

/-- `record_aode_overhead`: a decision of the controller in this window. -/
def recordAodeOverhead (c : MetricsCollector F) (durationMs : F) : MetricsCollector F :=
  { c with aodeOverheadSamples := c.aodeOverheadSamples ++ [durationMs] }

/-- `record_edge_utilization`: the greater of the two shares. -/
def recordEdgeUtilization (c : MetricsCollector F) (cpuFrac memFrac : F) : MetricsCollector F :=
  { c with edgeUtilizations := c.edgeUtilizations ++ [pyMax cpuFrac memFrac] }

def record (c : MetricsCollector F) : Call F → MetricsCollector F
  | .latency operatorType latencyMs sloMs => c.recordLatency operatorType latencyMs sloMs
  | .ingest nEvents                       => c.recordIngest nEvents
  | .migration pauseDurationMs            => c.recordMigration pauseDurationMs
  | .aodeOverhead durationMs              => c.recordAodeOverhead durationMs
  | .edgeUtilization cpuFrac memFrac      => c.recordEdgeUtilization cpuFrac memFrac

/-- M1: the 95th percentile of the last thousand latencies of each type. -/
def p95LatencyMs (c : MetricsCollector F) : Except PyError (Dict String F) := do
  let m1 ← (c.latencySamples.entries.filter (fun e => !e.2.isEmpty)).mapM fun e => do
    .ok (e.1, (← p95Of (lastItems 1000 e.2)))
  .ok (Dict.ofList m1)

/-- `compliant / total if total > 0 else 1.0` -/
def shareOf (counts : Int × Int) : Except PyError F := if 0 < counts.2 then intDiv counts.1 counts.2 else .ok 1.0

/-- M2: the fraction of each type that keeps its objective. -/
def sloCompliance (c : MetricsCollector F) : Except PyError (Dict String F) := do
  let m2 ← c.sloCounters.entries.mapM fun e => do .ok (e.1, (← shareOf e.2))
  .ok (Dict.ofList m2)

/-- `max(xs) if xs else 0.0`: the greatest, and zero of none. -/
def maxOrZero : List F → F
  | []      => 0.0
  | x :: xs => pyMaxOf x xs

/-- `statistics.mean(xs) if xs else 0.0`: the mean, and zero of none. -/
def meanOrZero (xs : List F) : F := if xs.isEmpty then 0.0 else PyRuntime.mean xs

/-- `_build_snapshot`: one metric after the other is computed and its samples are forgotten; what raises leaves the
    later ones. -/
def buildSnapshot (now : F) : Proc PyError (MetricsCollector F) (MetricSnapshot F) := do
  let c ← get
  let elapsed := now - c.startTime
  let m1 ← Proc.lift c.p95LatencyMs
  modify fun c => { c with latencySamples := ∅ }
  let m2 ← Proc.lift c.sloCompliance
  modify fun c => { c with sloCounters := ∅ }
  let windowS := now - c.ingestWindowStart
  let m3 ← Proc.lift (do floatDiv (← floatOfInt c.ingestCount) (pyMax windowS 1.0))
  modify fun c => { c with ingestCount := 0, ingestWindowStart := now }
  let m4 := maxOrZero c.migrationTimes
  modify fun c => { c with migrationTimes := [] }
  let m5 := meanOrZero c.aodeOverheadSamples
  modify fun c => { c with aodeOverheadSamples := [] }
  let m6 := meanOrZero c.edgeUtilizations
  modify fun c => { c with edgeUtilizations := [] }
  return { timestamp          := elapsed
           configId           := c.configId
           repetition         := c.repetition
           m1P95LatencyMs     := m1
           m2SloCompliance    := m2
           m3ThroughputEps    := m3
           m4MigrationPauseMs := m4
           m5AodeOverheadMs   := m5
           m6EdgeUtilization  := m6 }

/-- The snapshots of a history, and the collector after it. -/
def history : MetricsCollector F → List (Event F) → List (Except PyError (MetricSnapshot F)) × MetricsCollector F
  | c, []                      => ([], c)
  | c, .record call :: events  => history (c.record call) events
  | c, .snapshot now :: events =>
      let built := (buildSnapshot now).exec c
      let rest := history built.2 events
      (built.1 :: rest.1, rest.2)

/-- `start`: time counts from now on. -/
def start (c : MetricsCollector F) (now : F) : MetricsCollector F :=
  { c with startTime := now, ingestWindowStart := now }

/-- What `_collection_loop` has appended after a history; a snapshot that raises is logged and left out. -/
def collectionLoop (c : MetricsCollector F) (events : List (Event F)) : List (MetricSnapshot F) :=
  (c.history events).1.filterMap Except.toOption

/-- `get_snapshots`; the whole seconds of the warmup are given as a float. -/
def getSnapshots (c : MetricsCollector F) (warmupS : F) (snapshots : List (MetricSnapshot F))
    (warmupOnly postWarmupOnly : Bool) : List (MetricSnapshot F) :=
  let warmupEnd := c.startTime + warmupS
  if warmupOnly then snapshots.filter (fun s => PyRuntime.lt (c.startTime + s.timestamp) warmupEnd)
  else if postWarmupOnly then snapshots.filter (fun s => PyRuntime.le warmupS s.timestamp)
  else snapshots

end MetricsCollector

end Experiments
end HybridStream
