import HybridStream.Hea.Operator
import HybridStream.Py.Collections

/-!
# `Workloads.W3` — the financial pipeline: risk, anomalies, statistics, compliance

`workloads/w3`, laid out as `Workloads.W1`.

Four operators over one stream of market data: exposures against limits, deviations from a smoothed mean, running
statistics of an instrument, and a numbered audit trail. Each of them keeps a counter that its exported state carries,
beside what it puts out for a record.
-/

namespace HybridStream
namespace Workloads

open Lib Py Hea

variable {F : Type} [PyRuntime F]

/-! ## `RiskCheck`

The limit is that of the category, with a default for an unknown one. The counters are written before the ratio is
computed. -/

/-- Exposure against the limit of a risk category. -/
structure RiskCheck (F : Type) where
  operatorId   : String
  riskCategory : Value F
  limit        : F
  breachCount  : Int
  totalChecked : Int

namespace RiskCheck

/-- `CATEGORIES`: the limit of each risk category. -/
def categories : Dict String F := Dict.ofList
  [ ("credit",       5000000.0),
    ("market",       10000000.0),
    ("liquidity",    2000000.0),
    ("operational",  1000000.0),
    ("counterparty", 3000000.0),
    ("settlement",   500000.0),
    ("model",        1500000.0),
    ("reputational", 250000.0) ]

/-- `__init__`: the limit is that of the category, and a million for a category that is not listed. -/
def new (operatorId riskCategory : String) : RiskCheck F where
  operatorId   := operatorId
  riskCategory := .str riskCategory
  limit        := categories.getD riskCategory 1000000.0
  breachCount  := 0
  totalChecked := 0

/-- `process`: the exposure, at least zero, is compared with the limit and put out with it; it is counted as checked
    first, and then as a breach if it is above. -/
def process (_ : Clock F) (record : Record F) : Proc PyError (RiskCheck F) (List (Record F)) := do
  let value ← Proc.lift (record.getD "exposure" (.float 0.0)).toFloat
  let exposure := pyMax 0.0 value
  modify fun s => { s with totalChecked := s.totalChecked + 1 }
  modify fun s => { s with
    breachCount := if PyRuntime.lt s.limit exposure then s.breachCount + 1 else s.breachCount }
  let s ← get
  let ratio ← Proc.lift (if PyRuntime.lt 0.0 s.limit then floatDiv exposure s.limit else .ok 0.0)
  return [record.update
    [ ("risk_category",  s.riskCategory),
      ("limit",          .float s.limit),
      ("exposure",       .float exposure),
      ("risk_exceeded",  .bool (PyRuntime.lt s.limit exposure)),
      ("exposure_ratio", .float ratio),
      ("breach_count",   .int s.breachCount) ]]

/-- `get_state`: the limit and both counters, beside the category. -/
def getState (s : RiskCheck F) : Record F := Dict.ofList
  [ ("risk_category", s.riskCategory),
    ("limit",         .float s.limit),
    ("breach_count",  .int s.breachCount),
    ("total_checked", .int s.totalChecked) ]

/-- `restore_state`: the category as it comes, the limit and the counters converted. -/
def restoreState (_ : Clock F) (state : Record F) : Proc PyError (RiskCheck F) PUnit := do
  modify fun s => { s with riskCategory := state.getD "risk_category" s.riskCategory }
  let limit ← Proc.lift (state.getD "limit" (.float 1000000.0)).toFloat
  modify fun s => { s with limit := limit }
  let breachCount ← Proc.lift (state.getD "breach_count" (.int 0)).toInt
  modify fun s => { s with breachCount := breachCount }
  let totalChecked ← Proc.lift (state.getD "total_checked" (.int 0)).toInt
  modify fun s => { s with totalChecked := totalChecked }

/-- The class, as the engine sees it. -/
def operator : BaseOperator F (RiskCheck F) where
  operatorType := "RiskCheck"
  operatorId   := operatorId
  process      := process
  getState     := getState
  restoreState := restoreState

end RiskCheck

/-! ## `AnomalyDetector`

A value is compared with the mean before it, in deviations of a variance that it has already entered. -/

/-- Deviations beyond `zThreshold` standard deviations of an exponentially weighted mean. -/
structure AnomalyDetector (F : Type) where
  operatorId    : String
  metricClass   : Value F
  alpha         : F
  zThreshold    : F
  ewmaMean      : F
  ewmaM2        : F
  anomalyCount  : Int
  recentZscores : List F

namespace AnomalyDetector

/-- `__init__`: the smoothed mean starts at zero and the smoothed square at one; no score has been kept. -/
def new (operatorId metricClass : String) (alpha zThreshold : F) : AnomalyDetector F where
  operatorId    := operatorId
  metricClass   := .str metricClass
  alpha         := alpha
  zThreshold    := zThreshold
  ewmaMean      := 0.0
  ewmaM2        := 1.0
  anomalyCount  := 0
  recentZscores := []

/-- `process`: the value enters the mean and its deviation from the mean before enters the variance, by which that
    deviation is then measured. A score above the threshold is an anomaly. -/
def process (_ : Clock F) (record : Record F) : Proc PyError (AnomalyDetector F) (List (Record F)) := do
  let value ← Proc.lift (record.getD "value" (.float 0.0)).toFloat
  let s ← get
  let prevMean := s.ewmaMean
  modify fun s => { s with ewmaMean := (1.0 - s.alpha) * s.ewmaMean + s.alpha * value }
  let delta := value - prevMean
  let square ← Proc.lift (pySquare delta)
  modify fun s => { s with ewmaM2 := (1.0 - s.alpha) * s.ewmaM2 + s.alpha * square }
  let s ← get
  let std ← Proc.lift (pySqrt (pyMax s.ewmaM2 1e-12))
  let z ← Proc.lift (if PyRuntime.lt 0.0 std then floatDiv (pyAbs (value - prevMean)) std else .ok 0.0)
  let isAnomaly := PyRuntime.lt s.zThreshold z
  modify fun s => { s with
    recentZscores := dequeAppend 100 s.recentZscores z
    anomalyCount  := if isAnomaly then s.anomalyCount + 1 else s.anomalyCount }
  let s ← get
  return [record.update
    [ ("metric_class",  s.metricClass),
      ("is_anomaly",    .bool isAnomaly),
      ("z_score",       .float (PyRuntime.round z 4)),
      ("ewma_mean",     .float (PyRuntime.round s.ewmaMean 6)),
      ("ewma_std",      .float (PyRuntime.round std 6)),
      ("anomaly_count", .int s.anomalyCount) ]]

/-- `get_state`: all attributes but the id. -/
def getState (s : AnomalyDetector F) : Record F := Dict.ofList
  [ ("metric_class",   s.metricClass),
    ("alpha",          .float s.alpha),
    ("z_threshold",    .float s.zThreshold),
    ("ewma_mean",      .float s.ewmaMean),
    ("ewma_m2",        .float s.ewmaM2),
    ("anomaly_count",  .int s.anomalyCount),
    ("recent_zscores", .ofFloats s.recentZscores) ]

/-- `restore_state`: one attribute after the other, the scores cut to the last ones at the end. -/
def restoreState (_ : Clock F) (state : Record F) : Proc PyError (AnomalyDetector F) PUnit := do
  modify fun s => { s with metricClass := state.getD "metric_class" s.metricClass }
  let alpha ← Proc.lift (state.getD "alpha" (.float 0.2)).toFloat
  modify fun s => { s with alpha := alpha }
  let zThreshold ← Proc.lift (state.getD "z_threshold" (.float 3.0)).toFloat
  modify fun s => { s with zThreshold := zThreshold }
  let ewmaMean ← Proc.lift (state.getD "ewma_mean" (.float 0.0)).toFloat
  modify fun s => { s with ewmaMean := ewmaMean }
  let ewmaM2 ← Proc.lift (state.getD "ewma_m2" (.float 1.0)).toFloat
  modify fun s => { s with ewmaM2 := ewmaM2 }
  let anomalyCount ← Proc.lift (state.getD "anomaly_count" (.int 0)).toInt
  modify fun s => { s with anomalyCount := anomalyCount }
  let zscores ← Proc.lift (state.getD "recent_zscores" (.list [])).floatsOf
  let recentZscores ← Proc.lift (dequeOf 100 zscores)
  modify fun s => { s with recentZscores := recentZscores }

/-- The class, as the engine sees it. -/
def operator : BaseOperator F (AnomalyDetector F) where
  operatorType := "AnomalyDetector"
  operatorId   := operatorId
  process      := process
  getState     := getState
  restoreState := restoreState

end AnomalyDetector

/-! ## `StatAggregator`

Mean and squared deviations in one pass, the extrema beside them. -/

/-- Welford's running statistics, emitted every 500 records. -/
structure StatAggregator (F : Type) where
  operatorId      : String
  instrumentClass : Value F
  count           : Int
  mean            : F
  m2              : F
  min             : F
  max             : F

namespace StatAggregator

/-- `__init__`: no value so far, with the infinities for extrema that any value replaces. -/
def new (operatorId instrumentClass : String) : StatAggregator F where
  operatorId      := operatorId
  instrumentClass := .str instrumentClass
  count           := 0
  mean            := 0.0
  m2              := 0.0
  min             := PyRuntime.inf
  max             := PyRuntime.negInf

/-- `process`: Welford's update of count, mean and squared deviations, then the extrema; every five hundredth call puts
    the statistics out. -/
def process (_ : Clock F) (record : Record F) : Proc PyError (StatAggregator F) (List (Record F)) := do
  let value ← Proc.lift (record.getD "value" (.float 0.0)).toFloat
  modify fun s => { s with count := s.count + 1 }
  let s ← get
  let delta := value - s.mean
  let step ← Proc.lift (floatDivInt delta s.count)
  modify fun s => { s with mean := s.mean + step }
  modify fun s => { s with m2 := s.m2 + delta * (value - s.mean) }
  modify fun s => { s with min := pyMin s.min value, max := pyMax s.max value }
  let s ← get
  if s.count % 500 = 0 then
    let variance ← Proc.lift (if s.count > 1 then floatDivInt s.m2 (s.count - 1) else .ok 0.0)
    let std ← Proc.lift (pySqrt variance)
    return [Dict.ofList
      [ ("instrument_class", s.instrumentClass),
        ("count",            .int s.count),
        ("mean",             .float (PyRuntime.round s.mean 6)),
        ("std",              .float (PyRuntime.round std 6)),
        ("variance",         .float (PyRuntime.round variance 8)),
        ("min",              .float s.min),
        ("max",              .float s.max) ]]
  else
    return []

/-- `get_state`: an extremum that is still infinite is exported as `None`. -/
def getState (s : StatAggregator F) : Record F := Dict.ofList
  [ ("instrument_class", s.instrumentClass),
    ("count",            .int s.count),
    ("mean",             .float s.mean),
    ("m2",               .float s.m2),
    ("min",              if PyRuntime.eq s.min PyRuntime.inf then .none else .float s.min),
    ("max",              if PyRuntime.eq s.max PyRuntime.negInf then .none else .float s.max) ]

/-- An extremum out of a state. -/
def extremumOf (dflt : F) : Value F → Except PyError F
  | .none => .ok dflt
  | v     => v.toFloat

/-- `restore_state`: the extrema are exported as `None` where they are infinite, and become infinite again. -/
def restoreState (_ : Clock F) (state : Record F) : Proc PyError (StatAggregator F) PUnit := do
  modify fun s => { s with instrumentClass := state.getD "instrument_class" s.instrumentClass }
  let count ← Proc.lift (state.getD "count" (.int 0)).toInt
  modify fun s => { s with count := count }
  let mean ← Proc.lift (state.getD "mean" (.float 0.0)).toFloat
  modify fun s => { s with mean := mean }
  let m2 ← Proc.lift (state.getD "m2" (.float 0.0)).toFloat
  modify fun s => { s with m2 := m2 }
  let min ← Proc.lift (extremumOf PyRuntime.inf (state.getD "min" .none))
  modify fun s => { s with min := min }
  let max ← Proc.lift (extremumOf PyRuntime.negInf (state.getD "max" .none))
  modify fun s => { s with max := max }

/-- The class, as the engine sees it. -/
def operator : BaseOperator F (StatAggregator F) where
  operatorType := "StatAggregator"
  operatorId   := operatorId
  process      := process
  getState     := getState
  restoreState := restoreState

end StatAggregator

/-! ## `ComplianceLogger`

Each event gets the next number and is counted under its type. -/

/-- A numbered audit trail. The two timestamps are handed through as they are. -/
structure ComplianceLogger (F : Type) where
  operatorId   : String
  domain       : Value F
  logSeq       : Int
  eventCounts  : Dict String Int
  firstEventTs : Value F
  lastEventTs  : Value F

namespace ComplianceLogger

/-- `__init__`: an empty trail, with no event so far. -/
def new (operatorId complianceDomain : String) : ComplianceLogger F where
  operatorId   := operatorId
  domain       := .str complianceDomain
  logSeq       := 0
  eventCounts  := ∅
  firstEventTs := .none
  lastEventTs  := .none

/-- `dict(self._event_counts)`: the copy that is put out and exported, with the event types for its keys. -/
def countsValue (s : ComplianceLogger F) : Value F :=
  .dict (s.eventCounts.entries.map (fun e => (.str e.1, .int e.2)))

/-- `if self._first_event_ts is None`: the time of the first event stays, once there is one. -/
def firstOr (first : Value F) (ts : F) : Value F :=
  match first with
  | .none => .float ts
  | v     => v

/-- `process`: the record gets the next number of the trail and is counted under its event type; the time is read before
    either, so a record without a readable time is not counted. -/
def process (clock : Clock F) (record : Record F) : Proc PyError (ComplianceLogger F) (List (Record F)) := do
  let eventType := (record.getD "event_type" (.str "unknown")).toStr
  let ts ← Proc.lift (record.getD "timestamp" (.float (clock.time 0))).toFloat
  modify fun s => { s with
    logSeq      := s.logSeq + 1
    eventCounts := s.eventCounts.set eventType (s.eventCounts.getD eventType 0 + 1) }
  modify fun s => { s with firstEventTs := firstOr s.firstEventTs ts, lastEventTs := .float ts }
  let s ← get
  return [record.update
    [ ("compliance_domain", s.domain),
      ("log_sequence",      .int s.logSeq),
      ("compliance_logged", .bool true),
      ("event_type_counts", s.countsValue),
      ("logged_at",         .float (clock.time 1)) ]]

/-- `get_state`: the last number, the counts by event type and the two times. -/
def getState (s : ComplianceLogger F) : Record F := Dict.ofList
  [ ("domain",         s.domain),
    ("log_seq",        .int s.logSeq),
    ("event_counts",   s.countsValue),
    ("first_event_ts", s.firstEventTs),
    ("last_event_ts",  s.lastEventTs) ]

/-- The counts a state holds, event type by event type. -/
def countsOf (raw : Value F) : Except PyError (Dict String Int) := do
  let kvs ← raw.items
  let es ← kvs.mapM fun e => do .ok ((← e.1.textOf), (← e.2.toInt))
  .ok (Dict.ofList es)

/-- `restore_state`: the number and the counts are converted, the domain and the two times taken as they come. -/
def restoreState (_ : Clock F) (state : Record F) : Proc PyError (ComplianceLogger F) PUnit := do
  modify fun s => { s with domain := state.getD "domain" s.domain }
  let logSeq ← Proc.lift (state.getD "log_seq" (.int 0)).toInt
  modify fun s => { s with logSeq := logSeq }
  let eventCounts ← Proc.lift (countsOf (state.getD "event_counts" (.dict [])))
  modify fun s => { s with eventCounts := eventCounts }
  modify fun s => { s with
    firstEventTs := state.getD "first_event_ts" .none
    lastEventTs  := state.getD "last_event_ts" .none }

/-- The class, as the engine sees it. -/
def operator : BaseOperator F (ComplianceLogger F) where
  operatorType := "ComplianceLogger"
  operatorId   := operatorId
  process      := process
  getState     := getState
  restoreState := restoreState

end ComplianceLogger

end Workloads
end HybridStream
