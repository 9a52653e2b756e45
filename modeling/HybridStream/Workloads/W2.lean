import HybridStream.Hea.Operator
import HybridStream.Py.Collections

/-!
# `Workloads.W2` — the sensor pipeline: detector, zone aggregator, pattern detector

`workloads/w2`, laid out as `Workloads.W1`.

The detector averages occupancy and speed of a sensor and notes detections, the zone aggregator counts them by sensor
and puts totals out at intervals, and the pattern detector looks for congestion across zones. All three depend on
time: the detector by the timestamps of its records, the zone aggregator by the clock of its process.
-/

namespace HybridStream
namespace Workloads

open Lib Py Hea

variable {F : Type} [PyRuntime F]

/-! ## `VehicleDetector`

`process` reads three numbers before it writes anything, so a record that is not read leaves the detector as it is.
Reading, the attributes afterwards and the report are definitions of their own. -/

/-- Detection per sensor from exponentially weighted occupancy and speed. `lastDetectionTs` is handed through
    as it is. -/
structure VehicleDetector (F : Type) where
  operatorId      : String
  sensorId        : String
  alpha           : F
  ewmaOcc         : F
  ewmaSpeed       : F
  detectionCount  : Int
  lastDetectionTs : Value F
  detectionTimes  : List F

namespace VehicleDetector

/-- `__init__`: both averages start at zero, with no detection so far. -/
def new (operatorId sensorId : String) (alpha : F) : VehicleDetector F where
  operatorId      := operatorId
  sensorId        := sensorId
  alpha           := alpha
  ewmaOcc         := 0.0
  ewmaSpeed       := 0.0
  detectionCount  := 0
  lastDetectionTs := .none
  detectionTimes  := []

/-- The attributes after a sample was averaged in. -/
def average (s : VehicleDetector F) (occupancy speed : F) : VehicleDetector F :=
  { s with
    ewmaOcc   := (1.0 - s.alpha) * s.ewmaOcc + s.alpha * occupancy
    ewmaSpeed := (1.0 - s.alpha) * s.ewmaSpeed + s.alpha * speed }

/-- `detected`: the averages are above the thresholds for occupancy and for speed. -/
def detected (s : VehicleDetector F) : Bool := PyRuntime.lt 0.15 s.ewmaOcc && PyRuntime.lt 2.0 s.ewmaSpeed

/-- The attributes after a detection: counted, and its time among the last hundred. -/
def noteDetection (s : VehicleDetector F) (ts : F) : VehicleDetector F :=
  { s with
    detectionCount  := s.detectionCount + 1
    lastDetectionTs := .float ts
    detectionTimes  := dequeAppend 100 s.detectionTimes ts }

/-- `intervals`: the differences of successive times, of which there is one less than times. -/
def intervals : List F → List F
  | x :: y :: rest => (y - x) :: intervals (y :: rest)
  | _              => []

theorem length_intervals (times : List F) : (intervals times).length = times.length - 1 := by
  induction times with
  | nil => rfl
  | cons x xs ih =>
      cases xs with
      | nil => rfl
      | cons y ys =>
          rw [intervals, List.length_cons, ih]
          simp

/-- `headway_s`, rounded as it is emitted. -/
def headway (times : List F) : Except PyError (Value F) :=
  if times.length ≥ 2 then do
    let mean ← floatDivInt (sumFloats (intervals times)) (intervals times).length
    .ok (if PyRuntime.eq mean 0.0 then .none else .float (PyRuntime.round mean 3))
  else .ok .none

/-- What `process` reads of a record, before it writes anything. -/
structure Sample (F : Type) where
  occupancy : F
  speed     : F
  ts        : F

/-- Its three `float(record.get(...))`, of which each may raise, before anything is written. -/
def sampleOf (clock : Clock F) (record : Record F) : Except PyError (Sample F) := do
  let occupancy ← (record.getD "occupancy" (.float 0.0)).toFloat
  let speed ← (record.getD "speed_kmh" (.float 0.0)).toFloat
  let ts ← (record.getD "timestamp" (.float (clock.time 0))).toFloat
  .ok ⟨occupancy, speed, ts⟩

/-- The attributes after a sample: it is averaged in, and a detection is noted. -/
def next (s : VehicleDetector F) (sample : Sample F) : VehicleDetector F :=
  if (s.average sample.occupancy sample.speed).detected then
    (s.average sample.occupancy sample.speed).noteDetection sample.ts
  else s.average sample.occupancy sample.speed

/-- What is put out, made of the attributes that are left behind. -/
def report (s : VehicleDetector F) (headway : Value F) (ts : F) : Record F := Dict.ofList
  [ ("sensor_id",        .str s.sensorId),
    ("vehicle_detected", .bool s.detected),
    ("ewma_occupancy",   .float (PyRuntime.round s.ewmaOcc 4)),
    ("ewma_speed_kmh",   .float (PyRuntime.round s.ewmaSpeed 4)),
    ("detection_count",  .int s.detectionCount),
    ("mean_headway_s",   headway),
    ("timestamp",        .float ts) ]

/-- `process`: what the record says enters the averages, they decide whether a vehicle is detected, and the report has
    the averages, the decision and the mean headway of the detections kept. -/
def process (clock : Clock F) (record : Record F) : Proc PyError (VehicleDetector F) (List (Record F)) := do
  let sample ← Proc.lift (sampleOf clock record)
  modify fun s => s.next sample
  let s ← get
  let headway ← Proc.lift (headway s.detectionTimes)
  return [s.report headway sample.ts]

/-- A detection leaves the averages as they are. -/
theorem next_eq (s : VehicleDetector F) (sample : Sample F) : s.next sample =
    { s.average sample.occupancy sample.speed with
      detectionCount  := (s.next sample).detectionCount
      lastDetectionTs := (s.next sample).lastDetectionTs
      detectionTimes  := (s.next sample).detectionTimes } := by
  unfold next
  split
  · rfl
  · rfl

theorem detected_next (s : VehicleDetector F) (sample : Sample F) :
    (s.next sample).detected = (s.average sample.occupancy sample.speed).detected := by
  rw [next_eq]
  rfl

/-- What a detection is noted in. -/
theorem next_of_detected {s : VehicleDetector F} {sample : Sample F} (h : (s.next sample).detected = true) :
    (s.next sample).detectionCount = s.detectionCount + 1 ∧
      (s.next sample).detectionTimes = dequeAppend 100 s.detectionTimes sample.ts := by
  rw [detected_next] at h
  unfold next
  rw [if_pos h]
  exact ⟨rfl, rfl⟩

theorem next_of_not_detected {s : VehicleDetector F} {sample : Sample F} (h : (s.next sample).detected = false) :
    s.next sample = s.average sample.occupancy sample.speed := by
  rw [detected_next] at h
  unfold next
  rw [h]
  rfl

theorem sampleOf_eq_ok {clock : Clock F} {record : Record F} {sample : Sample F} :
    sampleOf clock record = .ok sample ↔
      (record.getD "occupancy" (.float 0.0)).toFloat = .ok sample.occupancy ∧
      (record.getD "speed_kmh" (.float 0.0)).toFloat = .ok sample.speed ∧
      (record.getD "timestamp" (.float (clock.time 0))).toFloat = .ok sample.ts := by
  constructor
  · intro h
    obtain ⟨occupancy, hoccupancy, h⟩ := bind_eq_ok.mp h
    obtain ⟨speed, hspeed, h⟩ := bind_eq_ok.mp h
    obtain ⟨ts, hts, h⟩ := bind_eq_ok.mp h
    cases h
    exact ⟨hoccupancy, hspeed, hts⟩
  · rintro ⟨hoccupancy, hspeed, hts⟩
    exact bind_eq_ok.mpr ⟨_, hoccupancy, bind_eq_ok.mpr ⟨_, hspeed, bind_eq_ok.mpr ⟨_, hts, rfl⟩⟩⟩

/-- **A record that is read** moves the attributes on, whether or not the headway can be computed. -/
theorem exec_process (s : VehicleDetector F) {clock : Clock F} {record : Record F} {sample : Sample F}
    (h : sampleOf clock record = .ok sample) : (process clock record).exec s =
      ((headway (s.next sample).detectionTimes).map (fun headway => [(s.next sample).report headway sample.ts]),
        s.next sample) := by
  unfold process
  rw [h]
  simp only [Proc.exec_bind, Proc.exec_lift, Proc.exec_get, Proc.exec_modify, Proc.exec_pure]
  generalize headway (F := F) _ = headway
  cases headway with
  | ok value => rfl
  | error e => rfl

/-- Any other record is rejected, and changes nothing. -/
theorem exec_process_error (s : VehicleDetector F) {clock : Clock F} {record : Record F} {e : PyError}
    (h : sampleOf clock record = .error e) : (process clock record).exec s = (.error e, s) := by
  unfold process
  rw [h]
  rfl

/-- `get_state`: all attributes but the id. -/
def getState (s : VehicleDetector F) : Record F := Dict.ofList
  [ ("sensor_id",         .str s.sensorId),
    ("alpha",             .float s.alpha),
    ("ewma_occ",          .float s.ewmaOcc),
    ("ewma_speed",        .float s.ewmaSpeed),
    ("detection_count",   .int s.detectionCount),
    ("last_detection_ts", s.lastDetectionTs),
    ("detection_times",   .ofFloats s.detectionTimes) ]

/-- `restore_state`: one attribute after the other; the times are cut to the last hundred, whatever the state brings. -/
def restoreState (_ : Clock F) (state : Record F) : Proc PyError (VehicleDetector F) PUnit := do
  let alpha ← Proc.lift (state.getD "alpha" (.float 0.2)).toFloat
  modify fun s => { s with alpha := alpha }
  let ewmaOcc ← Proc.lift (state.getD "ewma_occ" (.float 0.0)).toFloat
  modify fun s => { s with ewmaOcc := ewmaOcc }
  let ewmaSpeed ← Proc.lift (state.getD "ewma_speed" (.float 0.0)).toFloat
  modify fun s => { s with ewmaSpeed := ewmaSpeed }
  let detectionCount ← Proc.lift (state.getD "detection_count" (.int 0)).toInt
  modify fun s => { s with detectionCount := detectionCount }
  modify fun s => { s with lastDetectionTs := state.getD "last_detection_ts" .none }
  let times ← Proc.lift (state.getD "detection_times" (.list [])).floatsOf
  let detectionTimes ← Proc.lift (dequeOf 100 times)
  modify fun s => { s with detectionTimes := detectionTimes }

/-- The class, as the engine sees it. -/
def operator : BaseOperator F (VehicleDetector F) where
  operatorType := "VehicleDetector"
  operatorId   := operatorId
  process      := process
  getState     := getState
  restoreState := restoreState

end VehicleDetector

/-! ## `ZoneAggregator`

Detections are counted under the id of their sensor, whatever it is; the totals are put out when the interval has
elapsed. -/

/-- Detection counts of a zone's sensors, emitted every `emitInterval` seconds. -/
structure ZoneAggregator (F : Type) [PyRuntime F] where
  operatorId   : String
  zoneId       : Value F
  nSensors     : Int
  sensorCounts : Dict (Value F) Int
  zoneTotal    : Int
  lastEmitTs   : F
  emitInterval : F

namespace ZoneAggregator

/-- `__init__`: nothing counted yet, and five seconds to the first total. -/
def new (clock : Clock F) (operatorId zoneId : String) (nSensors : Int) : ZoneAggregator F where
  operatorId   := operatorId
  zoneId       := .str zoneId
  nSensors     := nSensors
  sensorCounts := ∅
  zoneTotal    := 0
  lastEmitTs   := clock.monotonic
  emitInterval := 5.0

/-- `process`: a detection is counted for its sensor and for the zone, and the totals are put out if the interval has
    passed since they last were. -/
def process (clock : Clock F) (record : Record F) : Proc PyError (ZoneAggregator F) (List (Record F)) := do
  let sensorId := record.getD "sensor_id" (.str "unknown")
  let detected := (record.getD "vehicle_detected" (.bool false)).truthy
  if detected then
    let key ← Proc.lift sensorId.asKey
    modify fun s => { s with
      sensorCounts := s.sensorCounts.set key (s.sensorCounts.getD key 0 + 1)
      zoneTotal    := s.zoneTotal + 1 }
  let now := clock.monotonic
  let s ← get
  if PyRuntime.le s.emitInterval (now - s.lastEmitTs) then
    modify fun s => { s with lastEmitTs := now }
    let density ← Proc.lift (intDiv s.sensorCounts.size (max s.nSensors 1))
    return [Dict.ofList
      [ ("zone_id",          s.zoneId),
        ("total_detections", .int s.zoneTotal),
        ("active_sensors",   .int s.sensorCounts.size),
        ("density",          .float density),
        ("timestamp",        .float (clock.time 0)) ]]
  else
    return []

/-- `get_state`: the counts and the parameters, but not the time of the last totals, which means nothing to another
    process. -/
def getState (s : ZoneAggregator F) : Record F := Dict.ofList
  [ ("zone_id",       s.zoneId),
    ("n_sensors",     .int s.nSensors),
    ("sensor_counts", .dict (s.sensorCounts.entries.map (fun e => (e.1, .int e.2)))),
    ("zone_total",    .int s.zoneTotal),
    ("emit_interval", .float s.emitInterval) ]

/-- `{str(k): int(v) for k, v in raw.items()}` -/
def countsOf (raw : Value F) : Except PyError (Dict (Value F) Int) := do
  let kvs ← raw.items
  let es ← kvs.mapM fun e => do .ok (.str e.1.toStr, (← e.2.toInt))
  .ok (Dict.ofList es)

/-- `restore_state`: as exported, with the interval beginning now; the zone is kept as it comes, without a
    conversion. -/
def restoreState (clock : Clock F) (state : Record F) : Proc PyError (ZoneAggregator F) PUnit := do
  modify fun s => { s with zoneId := state.getD "zone_id" s.zoneId }
  let nSensors ← Proc.lift (state.getD "n_sensors" (.int 25)).toInt
  modify fun s => { s with nSensors := nSensors }
  let sensorCounts ← Proc.lift (countsOf (state.getD "sensor_counts" (.dict [])))
  modify fun s => { s with sensorCounts := sensorCounts }
  let zoneTotal ← Proc.lift (state.getD "zone_total" (.int 0)).toInt
  modify fun s => { s with zoneTotal := zoneTotal }
  let emitInterval ← Proc.lift (state.getD "emit_interval" (.float 5.0)).toFloat
  modify fun s => { s with emitInterval := emitInterval, lastEmitTs := clock.monotonic }

/-- The class, as the engine sees it. -/
def operator : BaseOperator F (ZoneAggregator F) where
  operatorType := "ZoneAggregator"
  operatorId   := operatorId
  process      := process
  getState     := getState
  restoreState := restoreState

end ZoneAggregator

/-! ## `PatternDetector`

The last densities of each zone, and an incident where three zones are above the threshold. -/

/-- Congestion waves across zones, from the last densities of each. -/
structure PatternDetector (F : Type) [PyRuntime F] where
  operatorId          : String
  congestionThreshold : F
  zoneHistory         : Dict (Value F) (List F)
  incidentCount       : Int

namespace PatternDetector

/-- `__init__`: no zone has been seen, and there has been no incident. -/
def new (operatorId : String) (congestionThreshold : F) : PatternDetector F where
  operatorId          := operatorId
  congestionThreshold := congestionThreshold
  zoneHistory         := ∅
  incidentCount       := 0

/-- `congested_zones`: those whose last density is above the threshold, in the order in which they were first seen. -/
def congestedZones (s : PatternDetector F) : List (Value F) :=
  (s.zoneHistory.entries.filter (fun e => e.2.getLast?.any (PyRuntime.lt s.congestionThreshold))).map Prod.fst

/-- `process`: the density enters the history of its zone, and if three zones or more are then congested that is an
    incident. -/
def process (_ : Clock F) (record : Record F) : Proc PyError (PatternDetector F) (List (Record F)) := do
  let zoneId := record.getD "zone_id" (.str "unknown")
  let density ← Proc.lift (record.getD "density" (.float 0.0)).toFloat
  let key ← Proc.lift zoneId.asKey
  modify fun s => { s with
    zoneHistory := s.zoneHistory.set key (dequeAppend 20 (s.zoneHistory.getD key []) density) }
  let s ← get
  let congested := s.congestedZones
  if congested.length ≥ 3 then
    modify fun s => { s with incidentCount := s.incidentCount + 1 }
    return [Dict.ofList
      [ ("pattern_type",    .str "congestion_wave"),
        ("congested_zones", .list congested),
        ("incident_count",  .int (s.incidentCount + 1)),
        ("severity",        .int congested.length),
        ("timestamp",       record.getD "timestamp" (.int 0)) ]]
  else
    return []

/-- `get_state`: the threshold, the histories as lists, and the number of incidents. -/
def getState (s : PatternDetector F) : Record F := Dict.ofList
  [ ("congestion_threshold", .float s.congestionThreshold),
    ("zone_history",         .dict (s.zoneHistory.entries.map (fun e => (e.1, .ofFloats e.2)))),
    ("incident_count",       .int s.incidentCount) ]

/-- `{k: deque(v, maxlen=20) for k, v in raw.items()}` -/
def historyOf (raw : Value F) : Except PyError (Dict (Value F) (List F)) := do
  let kvs ← raw.items
  let es ← kvs.mapM fun e => do .ok (e.1, (← dequeOf 20 (← e.2.floatsOf)))
  .ok (Dict.ofList es)

/-- `restore_state`: the histories come last, and are cut to twenty densities each. -/
def restoreState (_ : Clock F) (state : Record F) : Proc PyError (PatternDetector F) PUnit := do
  let threshold ← Proc.lift (state.getD "congestion_threshold" (.float 0.7)).toFloat
  modify fun s => { s with congestionThreshold := threshold }
  let incidentCount ← Proc.lift (state.getD "incident_count" (.int 0)).toInt
  modify fun s => { s with incidentCount := incidentCount }
  let zoneHistory ← Proc.lift (historyOf (state.getD "zone_history" (.dict [])))
  modify fun s => { s with zoneHistory := zoneHistory }

/-- The class, as the engine sees it. -/
def operator : BaseOperator F (PatternDetector F) where
  operatorType := "PatternDetector"
  operatorId   := operatorId
  process      := process
  getState     := getState
  restoreState := restoreState

end PatternDetector

end Workloads
end HybridStream
