import HybridStream.Hea.Operator
import HybridStream.Py.Collections

/-!
# `Workloads.W1` — the traffic pipeline: normalizer, window, join, classifier

`workloads/w1`. One section per operator class: its attributes, its constructor and the methods of the
operator interface.

`process` is written in the order of the source: what is read and converted first may raise before anything is
written, and what is written before a later raise stays. `get_state` and `restore_state` are given with the defaults
of the source for entries that a state does not have; a restored collection of another shape raises at once.
`operator` packs the methods into the class that the engine and the results are about.
-/

namespace HybridStream
namespace Workloads

open Lib Py Hea

variable {F : Type} [PyRuntime F]

/-! ## `NormalizerOperator`

Mean and variance are updated before the value is normalized, by a divisor that is at least a small positive
number. -/

/-- A per-zone z-score normalizer with Welford's running mean and variance. -/
structure NormalizerOperator (F : Type) where
  operatorId : String
  zoneId     : String
  alpha      : F
  mean       : F
  variance   : F
  count      : Int

namespace NormalizerOperator

/-- `__init__`: no value has been counted yet, and the variance starts at one, so that the first value can be
    divided. -/
def new (operatorId zoneId : String) (alpha : F) : NormalizerOperator F where
  operatorId := operatorId
  zoneId     := zoneId
  alpha      := alpha
  mean       := 0.0
  variance   := 1.0
  count      := 0

/-- `process`: the mean and the variance take the value in, and the value is put out normalized by them. The count is
    the first thing that is written, and what raises after that leaves it written. -/
def process (_ : Clock F) (record : Record F) : Proc PyError (NormalizerOperator F) (List (Record F)) := do
  let value ← Proc.lift (record.getD "sensor_value" (.float 0.0)).toFloat
  modify fun s => { s with count := s.count + 1 }
  let s ← get
  let delta := value - s.mean
  let step ← Proc.lift (floatDivInt delta s.count)
  modify fun s => { s with mean := s.mean + step }
  let s ← get
  let delta2 := value - s.mean
  let weight ← Proc.lift (floatOfInt (s.count - 1))
  let variance ← Proc.lift (floatDivInt (weight * s.variance + delta * delta2) s.count)
  modify fun s => { s with variance := variance }
  let s ← get
  let std ← Proc.lift (pySqrt (pyMax s.variance 1e-9))
  let normalized ← Proc.lift (floatDiv (value - s.mean) std)
  return [record.update
    [ ("zone_id",          .str s.zoneId),
      ("normalized_value", .float normalized),
      ("sensor_mean",      .float s.mean),
      ("sensor_std",       .float std) ]]

/-- `get_state`: all attributes but the id, which the engine keeps. -/
def getState (s : NormalizerOperator F) : Record F := Dict.ofList
  [ ("zone_id",  .str s.zoneId),
    ("mean",     .float s.mean),
    ("variance", .float s.variance),
    ("count",    .int s.count),
    ("alpha",    .float s.alpha) ]

/-- `restore_state`: each attribute in turn, converted, with the default of `__init__` where the state has none; what
    raises leaves those before it restored. -/
def restoreState (_ : Clock F) (state : Record F) : Proc PyError (NormalizerOperator F) PUnit := do
  let mean ← Proc.lift (state.getD "mean" (.float 0.0)).toFloat
  modify fun s => { s with mean := mean }
  let variance ← Proc.lift (state.getD "variance" (.float 1.0)).toFloat
  modify fun s => { s with variance := variance }
  let count ← Proc.lift (state.getD "count" (.int 0)).toInt
  modify fun s => { s with count := count }
  let alpha ← Proc.lift (state.getD "alpha" (.float 0.01)).toFloat
  modify fun s => { s with alpha := alpha }

/-- The class, as the engine sees it. -/
def operator : BaseOperator F (NormalizerOperator F) where
  operatorType := "NormalizerOperator"
  operatorId   := operatorId
  process      := process
  getState     := getState
  restoreState := restoreState

end NormalizerOperator

/-! ## `FeatureAggWindow`

The last values of the zone; with every hundredth one their statistics are put out, for which the window has to be
described. -/

/-- Statistics over the last `windowSize` values, emitted every `emitEvery` records. -/
structure FeatureAggWindow (F : Type) where
  operatorId     : String
  zoneId         : String
  windowSize     : Int
  window         : List F
  emitEvery      : Int
  countSinceEmit : Int

namespace FeatureAggWindow

/-- `__init__`: an empty window, and a hundred values to the first aggregate. A negative size is the `ValueError` of
    `deque`. -/
def new (operatorId zoneId : String) (windowSize : Int) : Except PyError (FeatureAggWindow F) := do
  let window ← dequeOf windowSize []
  .ok { operatorId     := operatorId
        zoneId         := zoneId
        windowSize     := windowSize
        window         := window
        emitEvery      := 100
        countSinceEmit := 0 }

/-- `statistics.stdev(window_list) if len(window_list) > 1 else 0.0` -/
def deviationOf (window : List F) : Except PyError F := if window.length > 1 then PyRuntime.stdev window else .ok 0.0

/-- The record emitted for a window. Its deviation is the only entry that can raise once there is a percentile. -/
def aggregate (s : FeatureAggWindow F) (record : Record F) : Except PyError (Record F) :=
  match s.window with
  | [] => .error ⟨.valueError, "mean requires at least one data point"⟩
  | x :: xs => do
      let window := x :: xs
      let p95 ← p95Of window
      let stdev ← deviationOf window
      .ok (Dict.ofList
        [ ("zone_id",      .str s.zoneId),
          ("agg_sum",      .float (sumFloats window)),
          ("agg_mean",     .float (PyRuntime.mean window)),
          ("agg_min",      .float (pyMinOf x xs)),
          ("agg_max",      .float (pyMaxOf x xs)),
          ("agg_p95",      .float p95),
          ("agg_stdev",    .float stdev),
          ("window_count", .int window.length),
          ("source_ts",    record.getD "timestamp" (.int 0)) ])

/-- `process`: the value enters the window, and every hundredth call puts out what the window has come to. -/
def process (_ : Clock F) (record : Record F) : Proc PyError (FeatureAggWindow F) (List (Record F)) := do
  let value ← Proc.lift (record.getD "normalized_value" (.float 0.0)).toFloat
  modify fun s => { s with window := dequeAppend s.windowSize s.window value }
  modify fun s => { s with countSinceEmit := s.countSinceEmit + 1 }
  let s ← get
  if s.countSinceEmit < s.emitEvery then
    return []
  else
    modify fun s => { s with countSinceEmit := 0 }
    let out ← Proc.lift (s.aggregate record)
    return [out]

/-- `get_state`: the window and its parameters. How many values there have been since the last aggregate is not part of
    it. -/
def getState (s : FeatureAggWindow F) : Record F := Dict.ofList
  [ ("zone_id",     .str s.zoneId),
    ("window",      .ofFloats s.window),
    ("window_size", .int s.windowSize),
    ("emit_every",  .int s.emitEvery) ]

/-- `restore_state`: the size comes first, as the window is cut to it; the count since the last aggregate begins
    anew. -/
def restoreState (_ : Clock F) (state : Record F) : Proc PyError (FeatureAggWindow F) PUnit := do
  let windowSize ← Proc.lift (state.getD "window_size" (.int 1000)).toInt
  modify fun s => { s with windowSize := windowSize }
  let items ← Proc.lift (state.getD "window" (.list [])).floatsOf
  let window ← Proc.lift (dequeOf windowSize items)
  modify fun s => { s with window := window }
  let emitEvery ← Proc.lift (state.getD "emit_every" (.int 100)).toInt
  modify fun s => { s with emitEvery := emitEvery }
  modify fun s => { s with countSinceEmit := 0 }

/-- The class, as the engine sees it. -/
def operator : BaseOperator F (FeatureAggWindow F) where
  operatorType := "FeatureAggWindow"
  operatorId   := operatorId
  process      := process
  getState     := getState
  restoreState := restoreState

end FeatureAggWindow

/-! ## `MultiStreamJoin`

The latest record of each zone, joined where all zones are there, or where the timeout has elapsed and a record comes
in. -/

/-- Joins the latest record of each zone. -/
structure MultiStreamJoin (F : Type) [PyRuntime F] where
  operatorId    : String
  nZones        : Int
  windowTimeout : F
  currentWindow : Dict (Value F) (Record F)
  windowStart   : F

namespace MultiStreamJoin

/-- `__init__`: an empty window that opens now. The timeout is kept in seconds. -/
def new (clock : Clock F) (operatorId : String) (nZones : Int) (windowTimeoutMs : F) :
    Except PyError (MultiStreamJoin F) := do
  let windowTimeout ← floatDiv windowTimeoutMs 1000.0
  .ok { operatorId    := operatorId
        nZones        := nZones
        windowTimeout := windowTimeout
        currentWindow := ∅
        windowStart   := clock.monotonic }

/-- `_emit_join`: three statistics of the record of each zone, under names that begin with the zone, and the time. -/
def emitJoin (clock : Clock F) (s : MultiStreamJoin F) : Record F :=
  s.currentWindow.entries.foldl
    (fun merged e => merged.update
      [ (s!"{e.1.toStr}_mean", e.2.getD "agg_mean" (.float 0.0)),
        (s!"{e.1.toStr}_max",  e.2.getD "agg_max" (.float 0.0)),
        (s!"{e.1.toStr}_p95",  e.2.getD "agg_p95" (.float 0.0)) ])
    (Dict.ofList
      [ ("join_timestamp", .float (clock.time 0)),
        ("zones_present",  .list s.currentWindow.keys) ])

/-- `process`: the record is the zone's in the current window; the window is joined and emptied as soon as it has all
    zones, or has been open for longer than the timeout. -/
def process (clock : Clock F) (record : Record F) : Proc PyError (MultiStreamJoin F) (List (Record F)) := do
  let zoneId ← Proc.lift (record.getD "zone_id" (.str "unknown")).asKey
  modify fun s => { s with currentWindow := s.currentWindow.set zoneId record }
  let s ← get
  let now := clock.monotonic
  let timeoutExceeded := PyRuntime.lt s.windowTimeout (now - s.windowStart)
  let allPresent : Bool := s.nZones ≤ s.currentWindow.size
  if allPresent || timeoutExceeded then
    let output := s.emitJoin clock
    modify fun s => { s with currentWindow := ∅, windowStart := now }
    return [output]
  else
    return []

/-- `get_state`: the window and its parameters, but not the time at which it was opened, which means nothing to another
    process. -/
def getState (s : MultiStreamJoin F) : Record F := Dict.ofList
  [ ("n_zones",        .int s.nZones),
    ("window_timeout", .float s.windowTimeout),
    ("current_window", .dict (s.currentWindow.entries.map (fun e => (e.1, e.2.toValue)))) ]

/-- The window a state holds: a record for each key. -/
def windowOf (v : Value F) : Except PyError (Dict (Value F) (Record F)) := do
  let kvs ← v.items
  let es ← kvs.mapM fun e => do .ok (e.1, (← e.2.recordOf))
  .ok (Dict.ofList es)

/-- `restore_state`: as exported, in a window that opens now. -/
def restoreState (clock : Clock F) (state : Record F) : Proc PyError (MultiStreamJoin F) PUnit := do
  let nZones ← Proc.lift (state.getD "n_zones" (.int 5)).toInt
  modify fun s => { s with nZones := nZones }
  let windowTimeout ← Proc.lift (state.getD "window_timeout" (.float 0.1)).toFloat
  modify fun s => { s with windowTimeout := windowTimeout }
  let currentWindow ← Proc.lift (windowOf (state.getD "current_window" (.dict [])))
  modify fun s => { s with currentWindow := currentWindow, windowStart := clock.monotonic }

/-- The class, as the engine sees it. -/
def operator : BaseOperator F (MultiStreamJoin F) where
  operatorType := "MultiStreamJoin"
  operatorId   := operatorId
  process      := process
  getState     := getState
  restoreState := restoreState

end MultiStreamJoin

/-! ## `BinaryClassifier`

No state: the score of a record and the label it gets. -/

/-- Thresholds the mean of the zones' maxima. -/
structure BinaryClassifier (F : Type) where
  operatorId : String
  threshold  : F
  tp         : Int
  fp         : Int
  tn         : Int
  fn         : Int

namespace BinaryClassifier

/-- `__init__`: the four counters are zero, and only `restore_state` writes them. -/
def new (operatorId : String) (threshold : F) : BinaryClassifier F := ⟨operatorId, threshold, 0, 0, 0, 0⟩

/-- `process`: the mean of the maxima of all zones is the score, and the threshold makes a label of it. The attributes
    are only read. -/
def process (_ : Clock F) (record : Record F) : Proc PyError (BinaryClassifier F) (List (Record F)) := do
  let zoneMaxes := (record.entries.filter (fun e => e.1.endsWith "_max")).map Prod.snd
  let score ← Proc.lift
    (if zoneMaxes.isEmpty then .ok 0.0 else Value.meanOf zoneMaxes zoneMaxes.length)
  let s ← get
  let label : Int := if PyRuntime.le s.threshold score then 1 else 0
  let confidence : F := if label = 1 then score else 1.0 - score
  return [record.update
    [ ("label",      .int label),
      ("score",      .float (PyRuntime.round score 4)),
      ("confidence", .float (PyRuntime.round confidence 4)),
      ("threshold",  .float s.threshold) ]]

/-- `get_state`: the threshold, and the counters for a confusion matrix that nobody fills. -/
def getState (s : BinaryClassifier F) : Record F := Dict.ofList
  [ ("threshold", .float s.threshold),
    ("tp", .int s.tp), ("fp", .int s.fp), ("tn", .int s.tn), ("fn", .int s.fn) ]

/-- `restore_state`: the threshold and the four counters, converted one after the other. -/
def restoreState (_ : Clock F) (state : Record F) : Proc PyError (BinaryClassifier F) PUnit := do
  let threshold ← Proc.lift (state.getD "threshold" (.float 0.6)).toFloat
  modify fun s => { s with threshold := threshold }
  let tp ← Proc.lift (state.getD "tp" (.int 0)).toInt
  modify fun s => { s with tp := tp }
  let fp ← Proc.lift (state.getD "fp" (.int 0)).toInt
  modify fun s => { s with fp := fp }
  let tn ← Proc.lift (state.getD "tn" (.int 0)).toInt
  modify fun s => { s with tn := tn }
  let fn ← Proc.lift (state.getD "fn" (.int 0)).toInt
  modify fun s => { s with fn := fn }

/-- The class, as the engine sees it. -/
def operator : BaseOperator F (BinaryClassifier F) where
  operatorType := "BinaryClassifier"
  operatorId   := operatorId
  process      := process
  getState     := getState
  restoreState := restoreState

end BinaryClassifier

end Workloads
end HybridStream
