import HybridStream.Hea.Correctness.InlineRun
import HybridStream.Lib.Noninterference
import HybridStream.Py.Exact
import HybridStream.Workloads.Pipelines
import HybridStream.Workloads.W2

/-!
# `Workloads.Correctness.SensorIsolation` — when a detector sees only its sensor

The five hundred detectors of the sensor pipeline are bound to one topic, and `VehicleDetector.process` does not look
at `sensor_id`: each detector averages the records of all sensors. It goes unnoticed only where a foreign record leaves
the detector as it finds it (`LeavesAsIs`); `sees_only_its_sensor` says that this is exactly when a detector is isolated
from the other sensors, and that two streams are then indistinguishable to it.
-/

namespace HybridStream
namespace Workloads

open Lib Lib.Noninterference Py Hea

namespace SensorIsolation

open VehicleDetector (process new operator)

variable {F : Type} [PyRuntime F]

/-! ## The detectors of the pipeline on one engine

The detectors of the second workload, all registered on the topic of the sensors, and what it would mean for one of
them to see its own sensor only. -/

/-- `operator_id` of the `i`-th detector. -/
def detectorId (i : Nat) : String := "detector-" ++ zeroPadded 4 i

/-- `sensor_id` of the `i`-th detector. -/
def sensorId (i : Nat) : String := "sensor_" ++ zeroPadded 4 i

/-- The detectors `build_w2_pipeline` creates, with their input and output topics. -/
def detectors (F : Type) [PyRuntime F] : List (VehicleDetector F × List String × List String) :=
  buildW2Pipeline.filterMap fun p => match p.op with
    | .vehicleDetector operatorId sensorId => some (new operatorId sensorId 0.2, p.inputTopics, p.outputTopics)
    | _                                    => none

/-- The operator objects: detectors process inline. -/
def sensorHeap (i : Nat) : OperatorObject F (VehicleDetector F) where
  cls      := operator
  cpuBound := false
  state    := (((detectors F)[i]?).map Prod.fst).getD (new "" "" 0.2)

/-- The engine on which the detectors are registered. -/
def sensorEngine (F : Type) [PyRuntime F] : Engine F (VehicleDetector F) :=
  (detectors F).zipIdx.foldl (fun e p => e.registerOperator p.2 p.1.2.1 p.1.2.2) (Engine.started sensorHeap)

/-- The record carries this sensor id. -/
def carries (sensorId : String) (record : Record F) : Bool :=
  match record.get "sensor_id" with
  | some (.str t) => t == sensorId
  | _             => false

/-- The `i`-th detector after the records `ds`. -/
def detectorAfter (accepts : Nat → Bool) (i : Nat) (ds : List (Delivery F)) : VehicleDetector F :=
  (((sensorEngine F).consumeAll accepts ds).heap i).state

/-- What the `i`-th detector puts out for the records of its own sensor. -/
def reports (accepts : Nat → Bool) (i : Nat) (ds : List (Delivery F)) : List (List (Record F)) :=
  observed (fun e d => (e.consume accepts d).1) (fun e d => emitted (Engine.runOperatorSync (e.heap i) d))
    (fun d => carries (sensorId i) d.record) (sensorEngine F) ds

/-- Records from the topic of the sensors. -/
def FromSensors (ds : List (Delivery F)) : Prop := ∀ d ∈ ds, d.origin.topic = "w2-sensors"

/-- The detector cannot tell two streams apart in which its own sensor sends the same. -/
def SeesOnlyItsSensor (accepts : Nat → Bool) (i : Nat) (ds ds' : List (Delivery F)) : Prop :=
  ds.filter (fun d => carries (sensorId i) d.record) = ds'.filter (fun d => carries (sensorId i) d.record) →
    detectorAfter accepts i ds = detectorAfter accepts i ds' ∧ reports accepts i ds = reports accepts i ds'

/-! ## A foreign record

A detector takes every record of the topic. One of another sensor goes unnoticed if it cannot be read or moves neither
average, with the occupancy below the threshold. -/

/-- The record cannot be read, or it averages to what the detector has, which is no detection. -/
def LeavesAsIs (s : VehicleDetector F) (d : Delivery F) : Prop :=
  ∀ occupancy speed ts, (d.record.getD "occupancy" (.float 0.0)).toFloat = .ok occupancy →
    (d.record.getD "speed_kmh" (.float 0.0)).toFloat = .ok speed →
    (d.record.getD "timestamp" (.float (d.clock.time 0))).toFloat = .ok ts →
    s.average occupancy speed = s ∧ s.detected = false

/-- The attributes of a detector after a record. -/
def step (s : VehicleDetector F) (d : Delivery F) : VehicleDetector F := ((process d.clock d.record).exec s).2

/-- What it puts out for the record. -/
def out (s : VehicleDetector F) (d : Delivery F) : List (Record F) := emitted ((process d.clock d.record).exec s).1

/-- Every record of the stream is the sensor's, or leaves the detector as it finds it. -/
def Unnoticed (i : Nat) (ds : List (Delivery F)) : Prop :=
  AtEachStep step (fun s d => carries (sensorId i) d.record = true ∨ LeavesAsIs s d)
    (new (detectorId i) (sensorId i) 0.2) ds

/-- The attributes after a record that can be read. -/
theorem step_of_reads (s : VehicleDetector F) {d : Delivery F} {sample : VehicleDetector.Sample F}
    (h : VehicleDetector.sampleOf d.clock d.record = .ok sample) : step s d = s.next sample := by
  unfold step
  rw [VehicleDetector.exec_process s h]

/-- **A record does not move a detector** exactly if it cannot be read or changes neither average, below the
    thresholds. -/
theorem step_eq_self_iff (s : VehicleDetector F) (d : Delivery F) : step s d = s ↔ LeavesAsIs s d := by
  constructor
  · intro h occupancy speed ts hoccupancy hspeed hts
    have hread : VehicleDetector.sampleOf d.clock d.record = .ok ⟨occupancy, speed, ts⟩ :=
      VehicleDetector.sampleOf_eq_ok.mpr ⟨hoccupancy, hspeed, hts⟩
    rw [step_of_reads s hread] at h
    cases hdetected : (s.next ⟨occupancy, speed, ts⟩).detected with
    | true =>
        obtain ⟨hcount, -⟩ := VehicleDetector.next_of_detected hdetected
        rw [h] at hcount
        omega
    | false =>
        have hsame := VehicleDetector.next_of_not_detected hdetected
        rw [h] at hsame hdetected
        exact ⟨hsame.symm, hdetected⟩
  · intro h
    cases hread : VehicleDetector.sampleOf d.clock d.record with
    | error e =>
        unfold step
        rw [VehicleDetector.exec_process_error s hread]
    | ok sample =>
        obtain ⟨hoccupancy, hspeed, hts⟩ := VehicleDetector.sampleOf_eq_ok.mp hread
        obtain ⟨hsame, hdetected⟩ := h _ _ _ hoccupancy hspeed hts
        rw [step_of_reads s hread, VehicleDetector.next, hsame, hdetected]
        rfl

/-! ## The engine

From the engine to the class: each detector is bound to the topic once, so the object in the engine runs over all
records of it. -/

theorem detectorId_injective : Function.Injective detectorId := by
  intro i j h
  have hchars := congrArg String.toList h
  unfold detectorId at hchars
  rw [String.toList_append, String.toList_append, List.append_cancel_left_eq] at hchars
  exact zeroPadded_injective 4 (String.toList_inj.mp hchars)

theorem detectors_eq : detectors F = (List.range nSensors).map fun i =>
    (new (detectorId i) (sensorId i) 0.2, ["w2-sensors"], ["w2-detections-" ++ w2Zone (i / (nSensors / nZones))]) := by
  unfold detectors buildW2Pipeline
  dsimp only
  rw [List.filterMap_append, List.filterMap_append, List.filterMap_map, List.filterMap_map]
  simp [detectorId, sensorId]

/-- The engine with the first `n` detectors. -/
def registered (F : Type) [PyRuntime F] (n : Nat) : Engine F (VehicleDetector F) :=
  (List.range n).foldl (fun e i =>
    e.registerOperator i ["w2-sensors"] ["w2-detections-" ++ w2Zone (i / (nSensors / nZones))])
    (Engine.started sensorHeap)

theorem sensorEngine_eq : sensorEngine F = registered F nSensors := by
  have hzip : ∀ {α : Type} (f : Nat → α) (n : Nat),
      ((List.range n).map f).zipIdx = (List.range n).map (fun i => (f i, i)) := by
    intro α f n
    apply List.ext_getElem
    · simp
    · simp
  unfold sensorEngine registered
  rw [detectors_eq, hzip, List.foldl_map]

theorem sensorHeap_eq {i : Nat} (h : i < nSensors) :
    (sensorHeap i : OperatorObject F (VehicleDetector F)) = ⟨operator, false, new (detectorId i) (sensorId i) 0.2⟩ := by
  unfold sensorHeap
  rw [detectors_eq, List.getElem?_map, List.getElem?_range h]
  rfl

/-- What the registrations have made of the engine. -/
structure Holds (n : Nat) (e : Engine F (VehicleDetector F)) : Prop where
  heap      : e.heap = sensorHeap
  operators : ∀ i < n, e.operators.get (detectorId i) = some i
  bindings  : e.bindings "w2-sensors" = (List.range n).map detectorId

theorem registered_succ (n : Nat) : registered F (n + 1) = (registered F n).registerOperator n ["w2-sensors"]
    ["w2-detections-" ++ w2Zone (n / (nSensors / nZones))] := by
  unfold registered
  rw [List.range_succ, List.foldl_append]
  rfl

theorem holds_registered {n : Nat} (h : n ≤ nSensors) : Holds n (registered F n) := by
  induction n with
  | zero => exact ⟨rfl, fun i hi => absurd hi (Nat.not_lt_zero i), rfl⟩
  | succ n ih =>
      obtain ⟨hheap, hops, hbind⟩ := ih (Nat.le_of_succ_le h)
      have hid : (registered F n).operatorIdOf n = detectorId n := by
        unfold Engine.operatorIdOf
        rw [hheap, sensorHeap_eq h]
        rfl
      rw [registered_succ]
      refine ⟨?_, fun i hi => ?_, ?_⟩
      · rw [Engine.heap_registerOperator]
        exact hheap
      · rw [Engine.operators_registerOperator, hid, Dict.get_set]
        split
        · rename_i heq
          rw [detectorId_injective heq]
        · rename_i hne
          have hlt : i ≠ n := fun heq => hne (congrArg detectorId heq)
          exact hops i (by omega)
      · rw [Engine.bindings_registerOperator, hid, hbind, List.range_succ, List.map_append]
        rfl

/-- Each detector is bound to the topic once, under its own id. -/
theorem inlineOn {i : Nat} (h : i < nSensors) :
    (sensorEngine F).InlineOn "w2-sensors" (detectorId i) i := by
  obtain ⟨hheap, hops, hbind⟩ := holds_registered (F := F) (Nat.le_refl nSensors)
  rw [sensorEngine_eq]
  refine ⟨hops i h, ?_, ?_, ?_⟩
  · rw [hheap]
    rfl
  · rw [hbind]
    apply List.count_eq_one_of_mem
    · exact List.nodup_range.map detectorId_injective
    · exact List.mem_map_of_mem (List.mem_range.mpr h)
  · intro oid hmem hget
    rw [hbind] at hmem
    obtain ⟨j, hj, rfl⟩ := List.mem_map.mp hmem
    rw [hops j (List.mem_range.mp hj)] at hget
    rw [Option.some.inj hget]

theorem heap_sensorEngine {i : Nat} (h : i < nSensors) :
    (sensorEngine F).heap i = ⟨operator, false, new (detectorId i) (sensorId i) 0.2⟩ := by
  rw [sensorEngine_eq, (holds_registered (Nat.le_refl nSensors)).heap, sensorHeap_eq h]

/-- **A detector runs over all records of the topic**, whichever sensor they come from. -/
theorem detectorAfter_eq (accepts : Nat → Bool) {i : Nat} (h : i < nSensors) {ds : List (Delivery F)}
    (hds : FromSensors ds) :
    detectorAfter accepts i ds = ds.foldl step (new (detectorId i) (sensorId i) 0.2) := by
  unfold detectorAfter
  rw [Engine.heap_consumeAll (inlineOn h) hds, Engine.foldl_afterRecord, heap_sensorEngine h]
  rfl

/-- What it puts out in the engine is what its class puts out over the same records. -/
theorem observed_eq {accepts : Nat → Bool} {own : Delivery F → Bool} {e : Engine F (VehicleDetector F)}
    {oid : String} {i : Nat} {s : VehicleDetector F} (h : e.InlineOn "w2-sensors" oid i)
    (hobj : e.heap i = ⟨operator, false, s⟩) {ds : List (Delivery F)} (hds : FromSensors ds) :
    observed (fun e d => (e.consume accepts d).1) (fun e d => emitted (Engine.runOperatorSync (e.heap i) d)) own e ds =
      observed step out own s ds := by
  induction ds generalizing e s with
  | nil => rfl
  | cons d ds ih =>
      have hnext : (e.consume accepts d).1.heap i = ⟨operator, false, step s d⟩ := by
        rw [Engine.heap_consume h (hds d List.mem_cons_self), hobj]
        rfl
      have hrest := ih (h.consume d) hnext fun d' hd' => hds d' (List.mem_cons_of_mem d hd')
      have hout : emitted (Engine.runOperatorSync (e.heap i) d) = out s d := by
        rw [hobj]
        rfl
      by_cases hown : own d = true
      · rw [observed_cons_own hown, observed_cons_own hown, hrest, hout]
      · rw [observed_cons_other hown, observed_cons_other hown, hrest]

theorem reports_eq (accepts : Nat → Bool) {i : Nat} (h : i < nSensors) {ds : List (Delivery F)}
    (hds : FromSensors ds) :
    reports accepts i ds = observed step out (fun d => carries (sensorId i) d.record)
      (new (detectorId i) (sensorId i) 0.2) ds := observed_eq (inlineOn h) (heap_sensorEngine h) hds

/-! ## The result

Two streams that agree on the records of the sensor are told apart exactly if one of them has a foreign record that is
noticed. -/

/-- The streams without a noticed foreign record, in the terms of the unwinding. -/
theorem unnoticed_iff (i : Nat) (ds : List (Delivery F)) : Unnoticed i ds ↔
    AtEachStep step (Unmoved step fun d => carries (sensorId i) d.record) (new (detectorId i) (sensorId i) 0.2) ds :=
  atEachStep_congr (I := fun _ => True) (fun _ _ _ => trivial)
    (fun s d _ _ => or_congr Iff.rfl (step_eq_self_iff s d).symm) trivial

/-- **A detector sees only its sensor exactly where every foreign record leaves it as it finds it.** Two such streams
    are indistinguishable to it; and after every prefix of a stream it is as if only its own sensor had sent, if and
    only if no foreign record of the stream is noticed. Through the engine a detector is its own `process` along the
    records of its topic, so both parts are noninterference for one operator (`noninterference`, `isolated_iff`). -/
theorem sees_only_its_sensor (accepts : Nat → Bool) {i : Nat} (h : i < nSensors) :
    (∀ ds ds' : List (Delivery F), FromSensors ds → FromSensors ds' → Unnoticed i ds → Unnoticed i ds' →
      SeesOnlyItsSensor accepts i ds ds') ∧
    ∀ ds : List (Delivery F), FromSensors ds →
      ((∀ p, p <+: ds → SeesOnlyItsSensor accepts i p (p.filter fun d => carries (sensorId i) d.record)) ↔
        Unnoticed i ds) := by
  constructor
  · intro ds ds' hds hds' hquiet hquiet' hown
    rw [detectorAfter_eq accepts h hds, detectorAfter_eq accepts h hds', reports_eq accepts h hds,
      reports_eq accepts h hds']
    exact noninterference ((unnoticed_iff i ds).mp hquiet) ((unnoticed_iff i ds').mp hquiet') hown
  · intro ds hds
    rw [unnoticed_iff, ← isolated_iff out]
    apply forall₂_congr
    intro p hp
    have hfrom : FromSensors p := fun d hd => hds d (hp.subset hd)
    have hfilter : FromSensors (p.filter fun d => carries (sensorId i) d.record) :=
      fun d hd => hfrom d (List.mem_of_mem_filter hd)
    unfold SeesOnlyItsSensor
    rw [detectorAfter_eq accepts h hfrom, detectorAfter_eq accepts h hfilter, reports_eq accepts h hfrom,
      reports_eq accepts h hfilter, List.filter_filter]
    simp only [Bool.and_self, forall_const]

/-! ## Two sensors

An idle sensor in front of a new detector, which goes unnoticed, and a car under it, which does not. -/

/-- A car under a sensor. -/
def passing (sensorId : String) (offset : Nat) : Delivery ℚ where
  origin := ⟨"w2-sensors", 0, offset⟩
  clock  := ⟨0, fun _ => 0⟩
  record := Dict.ofList [("sensor_id", .str sensorId), ("occupancy", .int 1), ("speed_kmh", .int 100),
    ("timestamp", .int offset)]

/-- A sensor with nothing on the road. -/
def idle (sensorId : String) (offset : Nat) : Delivery ℚ where
  origin := ⟨"w2-sensors", 0, offset⟩
  clock  := ⟨0, fun _ => 0⟩
  record := Dict.ofList [("sensor_id", .str sensorId), ("occupancy", .int 0), ("speed_kmh", .int 0),
    ("timestamp", .int offset)]

theorem fromSensors_two (d d' : Delivery ℚ) (h : d.origin.topic = "w2-sensors") (h' : d'.origin.topic = "w2-sensors") :
    FromSensors [d, d'] := by
  simp [FromSensors, h, h']

/-- An idle sensor in front goes unnoticed by a new detector. -/
theorem sees_only_its_sensor_idle : SeesOnlyItsSensor (fun _ => true) 0
    [idle "sensor_0001" 0, passing "sensor_0000" 1] [passing "sensor_0000" 1] := by
  have hmany : FromSensors [idle "sensor_0001" 0, passing "sensor_0000" 1] := fromSensors_two _ _ rfl rfl
  have hone : FromSensors [passing "sensor_0000" 1] := fun d hd => by rw [List.mem_singleton.mp hd]; rfl
  have hown : carries (sensorId 0) (passing "sensor_0000" 1).record = true := by decide
  refine (sees_only_its_sensor (fun _ => true) (by decide)).1 _ _ hmany hone ⟨Or.inr ?_, Or.inl hown, trivial⟩
    ⟨Or.inl hown, trivial⟩
  intro occupancy speed ts hoccupancy hspeed hts
  cases hoccupancy
  cases hspeed
  constructor
  · norm_num [VehicleDetector.average, new]
  · decide +kernel

/-- **A car under another sensor** is counted by the detector of the first. -/
theorem sensors_interfere : ¬ SeesOnlyItsSensor (fun _ => true) 0
    [passing "sensor_0001" 0, passing "sensor_0000" 1] [passing "sensor_0000" 1] := by
  intro h
  have hone : FromSensors [passing "sensor_0000" 1] := fun d hd => by rw [List.mem_singleton.mp hd]; rfl
  obtain ⟨hstate, -⟩ := h rfl
  rw [detectorAfter_eq _ (by decide) (fromSensors_two _ _ rfl rfl), detectorAfter_eq _ (by decide) hone] at hstate
  have hcount := congrArg VehicleDetector.detectionCount hstate
  revert hcount
  decide +kernel

end SensorIsolation

end Workloads
end HybridStream
