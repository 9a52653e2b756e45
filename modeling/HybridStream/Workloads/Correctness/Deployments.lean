import HybridStream.Connector.Correctness.Outputs
import HybridStream.Hea.Correctness.CatchUp
import HybridStream.Py.Exact
import HybridStream.Workloads.Correctness.Reached
import HybridStream.Workloads.Deployment
import Mathlib.Data.List.Pairwise

/-!
# `Workloads.Correctness.Deployments` — the workloads on any placement

Up to the operators that look at the clock (the join of W1, the zone aggregators of W2, the compliance loggers of W3)
the pipelines are regular, and their operators steady. On clean input, and while no send to these topics is refused,
each topic carries what its operator makes of the records in the order in which its consumer has got them
(`topic_contents`); and where the topics that are read have one partition each, the topics carry the same wherever the
operators run (`topics_placement_independent`). In W2 this takes the detectors of a zone on one node, because they
share the topic of the zone.

That the consumers catch up with what they have been sent (`can_catch_up`) needs none of these conditions.
-/

namespace HybridStream
namespace Workloads

open Lib Py Hea Dataflow

variable {F : Type} [PyRuntime F]

/-! ## The operators are steady

Each class on the records that the sensors send: what it puts out does not depend on the clock, and can be packed and
read back. One lemma for each class that has it; the join, the zone aggregator and the compliance logger read the
clock, so nothing is claimed of their topics and of those behind them. -/

/-- An operator that puts out portable records, if anything, and has no use for the clock on expected records. -/
theorem steady_of {σ : Type} {C : BaseOperator F σ} {clock₀ : Clock F} {expected : Record F → Prop} {inv : σ → Prop}
    (htimeless : ∀ clock record, expected record → C.process clock record = C.process clock₀ record)
    (hkeeps : ∀ record, (C.process clock₀ record).Keeps inv)
    (hportable : ∀ record s outs t, record.Portable → inv s → (C.process clock₀ record).exec s = (.ok outs, t) →
      ∀ out ∈ outs, out.Portable) : Steady C clock₀ expected inv where
  timeless clock record s hexpected := by rw [htimeless clock record hexpected]
  keeps record s hs                := hkeeps record s hs
  portable := by
    intro record s hrecord hs out hout
    cases hexec : (C.process clock₀ record).exec s with
    | mk result t =>
        cases result with
        | ok outs => exact hportable record s outs t hrecord hs hexec out (by simpa [hexec, emitted] using hout)
        | error e => simp [hexec, emitted] at hout

variable {clock : Clock F} {expected : Record F → Prop}

/-- One record, with entries of its own. -/
theorem portable_singleton {record : Record F} (h : record.Portable) : ∀ out ∈ [record], out.Portable := by
  intro out hout
  rw [List.mem_singleton.mp hout]
  exact h

theorem NormalizerOperator.steady :
    Steady (NormalizerOperator.operator (F := F)) clock expected (fun _ => True) := by
  apply steady_of
  · exact fun _ _ _ => rfl
  · exact fun _ _ _ => trivial
  · intro record s outs t hrecord _ h
    obtain ⟨value, -, rfl⟩ := process_eq_ok clock h
    exact portable_singleton (hrecord.update (by simp))

theorem FeatureAggWindow.aggregate_portable {s : FeatureAggWindow F} {record out : Record F} (hrecord : record.Portable)
    (h : s.aggregate record = .ok out) : out.Portable := by
  unfold aggregate at h
  split at h
  · cases h
  · obtain ⟨p95, -, h⟩ := bind_eq_ok.mp h
    obtain ⟨stdev, -, h⟩ := bind_eq_ok.mp h
    cases h
    exact Record.portable_ofList (by simp [hrecord.getD])

theorem FeatureAggWindow.steady :
    Steady (FeatureAggWindow.operator (F := F)) clock expected (fun _ => True) := by
  apply steady_of
  · exact fun _ _ _ => rfl
  · exact fun _ _ _ => trivial
  · intro record s outs t hrecord _ h
    change (process clock record).exec s = _ at h
    unfold process at h
    simp only [Proc.exec_lift_bind_eq_ok, Proc.exec_modify_bind, Proc.exec_get_bind] at h
    obtain ⟨value, -, h⟩ := h
    split at h
    · cases h
      simp
    · simp only [Proc.exec_lift_bind_eq_ok, Proc.exec_modify_bind] at h
      obtain ⟨out, hout, h⟩ := h
      cases h
      exact portable_singleton (aggregate_portable hrecord hout)

theorem VehicleDetector.portable_headway {times : List F} {v : Value F} (h : headway times = .ok v) : v.Portable := by
  unfold headway at h
  split at h
  · obtain ⟨mean, -, h⟩ := bind_eq_ok.mp h
    cases h
    split <;> simp
  · cases h
    simp

/-- The detector falls back on the clock where the record has no timestamp. -/
theorem VehicleDetector.steady (hexpected : ∀ record : Record F, expected record → (record.get "timestamp").isSome) :
    Steady (VehicleDetector.operator (F := F)) clock expected (fun _ => True) := by
  apply steady_of
  · intro clock' record h
    obtain ⟨ts, hts⟩ := Option.isSome_iff_exists.mp (hexpected record h)
    have hread : ∀ dflt, record.getD "timestamp" dflt = ts := by
      intro dflt
      simp [Dict.getD, hts]
    show process clock' record = process clock record
    unfold process sampleOf
    simp only [hread]
  · exact fun _ _ _ => trivial
  · intro record s outs t _ _ h
    change (process clock record).exec s = _ at h
    unfold process at h
    simp only [Proc.exec_lift_bind_eq_ok, Proc.exec_modify_bind, Proc.exec_get_bind] at h
    obtain ⟨sample, -, headway, hheadway, h⟩ := h
    cases h
    exact portable_singleton (Record.portable_ofList (by simp [portable_headway hheadway]))

theorem RiskCheck.steady (category : String) :
    Steady (RiskCheck.operator (F := F)) clock expected (Reached category) := by
  apply steady_of
  · exact fun _ _ _ => rfl
  · exact process_keeps category clock
  · intro record s outs t hrecord hs h
    obtain ⟨value, -, rfl⟩ := process_eq_ok clock h
    exact portable_singleton (hrecord.update (by simp [hs.riskCategory]))

theorem AnomalyDetector.steady (metricClass : String) (alpha zThreshold : F) :
    Steady (AnomalyDetector.operator (F := F)) clock expected (Reached metricClass alpha zThreshold) := by
  apply steady_of
  · exact fun _ _ _ => rfl
  · exact process_keeps metricClass alpha zThreshold clock
  · intro record s outs t hrecord hs h
    obtain ⟨value, square, -, -, rfl⟩ := process_eq_ok clock h
    exact portable_singleton (hrecord.update (by simp [hs.metricClass]))

theorem StatAggregator.steady (instrumentClass : String) :
    Steady (StatAggregator.operator (F := F)) clock expected (Reached instrumentClass) := by
  apply steady_of
  · exact fun _ _ _ => rfl
  · exact process_keeps instrumentClass clock
  · intro record s outs t _ hs h
    change (process clock record).exec s = _ at h
    unfold process at h
    simp only [Proc.exec_lift_bind_eq_ok, Proc.exec_modify_bind, Proc.exec_get_bind] at h
    obtain ⟨value, -, step, -, h⟩ := h
    split at h
    · simp only [Proc.exec_lift_bind_eq_ok] at h
      obtain ⟨variance, -, std, -, h⟩ := h
      cases h
      exact portable_singleton (Record.portable_ofList (by simp [hs.instrumentClass]))
    · cases h
      simp

namespace Construction

/-- The classes whose operators are steady. -/
def steady : Construction → Bool
  | normalizerOperator _ _ => true
  | featureAggWindow _ _   => true
  | vehicleDetector _ _    => true
  | riskCheck _ _          => true
  | anomalyDetector _ _    => true
  | statAggregator _ _     => true
  | _                      => false

/-- What the attributes keep: the labels that are put out. -/
def Kept : (c : Construction) → c.Attributes F → Prop
  | riskCheck _ category, s     => RiskCheck.Reached category s
  | anomalyDetector _ metric, s => AnomalyDetector.Reached metric 0.2 3.0 s
  | statAggregator _ instr, s   => StatAggregator.Reached instr s
  | normalizerOperator _ _, _ | featureAggWindow _ _, _ | multiStreamJoin _ _, _ | binaryClassifier _, _
    | vehicleDetector _ _, _ | zoneAggregator _ _, _ | patternDetector _, _ | complianceLogger _ _, _ => True

theorem kept_constructed {c : Construction} {s : c.Attributes F} (h : c.constructed clock = .ok s) : c.Kept s := by
  cases c with
  | riskCheck oid category =>
      cases h
      exact RiskCheck.run_reached oid category []
  | anomalyDetector oid metric =>
      cases h
      exact AnomalyDetector.run_reached oid metric 0.2 3.0 []
  | statAggregator oid instr =>
      cases h
      exact StatAggregator.run_reached oid instr []
  | normalizerOperator | featureAggWindow | multiStreamJoin | binaryClassifier | vehicleDetector | zoneAggregator
    | patternDetector | complianceLogger => trivial

theorem steady_cls {c : Construction} (hc : c.steady = true)
    (hexpected : c.operatorType = "VehicleDetector" → ∀ record : Record F, expected record →
      (record.get "timestamp").isSome) :
    Steady (c.cls (F := F)) clock expected c.Kept := by
  cases c with
  | normalizerOperator oid zone => exact NormalizerOperator.steady
  | featureAggWindow oid zone => exact FeatureAggWindow.steady
  | vehicleDetector oid sensor => exact VehicleDetector.steady (hexpected rfl)
  | riskCheck oid category => exact RiskCheck.steady category
  | anomalyDetector oid metric => exact AnomalyDetector.steady metric 0.2 3.0
  | statAggregator oid instr => exact StatAggregator.steady instr
  | multiStreamJoin | binaryClassifier | zoneAggregator | patternDetector | complianceLogger => cases hc

end Construction

/-! ## The pipelines are regular

What the library asks of a network, read off the registrations of the three builders: who writes and who reads each
topic. -/

namespace Workload

/-- The topics up to the operators that look at the clock. -/
def settledTopics : Workload → List String
  | w1 => zones.flatMap (fun zone => ["w1-raw-" ++ zone, "w1-norm-" ++ zone, "w1-agg-" ++ zone])
  | w2 => "w2-sensors" :: (List.range nZones).map (fun i => "w2-detections-" ++ w2Zone i)
  | w3 => "w3-trades" :: (riskCategories.map (fun category => "w3-risk-" ++ category) ++
      metricClasses.map (fun mc => "w3-anomaly-" ++ mc) ++ instruments.map (fun instr => "w3-stats-" ++ instr))

def Settled (w : Workload) : Set String := { t | t ∈ w.settledTopics }

/-- The sensors stamp what they send. -/
def Expected (topic : String) (record : Record F) : Prop :=
  topic = "w2-sensors" → (record.get "timestamp").isSome

/-- The detector of a sensor, with its topics. -/
def detector (i : Nat) : Registered Construction :=
  ⟨.vehicleDetector ("detector-" ++ zeroPadded 4 i) ("sensor_" ++ zeroPadded 4 i), ["w2-sensors"],
    ["w2-detections-" ++ w2Zone (i / (nSensors / nZones))]⟩

/-- In W2 the detectors of a zone are on one node. -/
def ZonesTogether (w : Workload) (node : Construction → String) : Prop :=
  w = w2 → ∀ i < nSensors, ∀ j < nSensors, i / (nSensors / nZones) = j / (nSensors / nZones) →
    node (detector i).op = node (detector j).op

/-- The writers of the detection topics. -/
theorem writer_w2 {t : String} (ht : t ∈ Settled w2) {e : Registered Construction} (he : e ∈ w2.registered)
    (hwrites : t ∈ e.outputTopics) : ∃ i < nSensors, e = detector i := by
  have hsettled : t = "w2-sensors" ∨ ∃ i < nZones, "w2-detections-" ++ w2Zone i = t := by
    simpa [Settled, settledTopics] using ht
  obtain ⟨p, hp, rfl⟩ := List.mem_map.mp he
  change p ∈ buildW2Pipeline at hp
  unfold buildW2Pipeline at hp
  simp only [List.mem_append, List.mem_map, List.mem_range, List.mem_singleton] at hp
  rcases hp with (⟨i, hi, rfl⟩ | ⟨i, -, rfl⟩) | rfl
  · exact ⟨i, hi, rfl⟩
  · -- the topics of the zones are none of these
    exfalso
    rw [List.mem_singleton.mp hwrites] at hsettled
    rcases hsettled with h | ⟨j, -, h⟩ <;> simpa using congrArg String.toList h
  · exfalso
    rw [List.mem_singleton.mp hwrites] at hsettled
    rcases hsettled with h | ⟨j, -, h⟩ <;> simpa using congrArg String.toList h

theorem distinct_w2 : (w2.registered.map Registered.op).Nodup := by
  have hdetectors : ((List.range nSensors).map (fun i => (detector i).op)).Nodup := by
    refine List.nodup_range.map fun i j h => zeroPadded_injective 4 ?_
    simpa [detector] using h
  have hzones : ((List.range nZones).map
      (fun i => Construction.zoneAggregator ("zone-agg-" ++ w2Zone i) (w2Zone i))).Nodup := by
    refine List.nodup_range.map fun i j h => Nat.succ_injective (zeroPadded_injective 2 ?_)
    simpa [w2Zone] using h
  have hops : w2.registered.map Registered.op = (List.range nSensors).map (fun i => (detector i).op) ++
      (List.range nZones).map (fun i => Construction.zoneAggregator ("zone-agg-" ++ w2Zone i) (w2Zone i)) ++
      [.patternDetector "pattern-detector"] := by
    simp [registered, pipeline, buildW2Pipeline, detector, Function.comp_def]
  rw [hops]
  refine List.nodup_append.mpr ⟨List.nodup_append.mpr ⟨hdetectors, hzones, ?_⟩, List.nodup_singleton _, ?_⟩
  · simp [detector]
  · rintro _ hop _ hpattern rfl
    rw [List.mem_singleton.mp hpattern] at hop
    simp [detector] at hop

omit [PyRuntime F] in
/-- **The pipelines are regular** up to the operators that look at the clock. -/
theorem regular (w : Workload) : Regular w.registered w.Settled (Expected (F := F)) := by
  cases w with
  | w1 =>
      refine ⟨by decide +kernel, ?_, ?_⟩
      · have hinner : ∀ t ∈ w1.settledTopics, ∀ e ∈ w1.registered, t ∈ e.outputTopics →
            ∃ t' ∈ w1.settledTopics, e.inputTopics = [t'] ∧
              ∀ e' ∈ w1.registered, t ∈ e'.outputTopics → e'.inputTopics = [t'] := by decide +kernel
        exact hinner
      · have hfree : ∀ e ∈ w1.registered, "w2-sensors" ∉ e.outputTopics := by decide +kernel
        rintro t - e he hwrites record rfl
        exact absurd hwrites (hfree e he)
  | w2 =>
      refine ⟨distinct_w2, ?_, ?_⟩
      · intro t ht e he hwrites
        obtain ⟨i, -, rfl⟩ := writer_w2 ht he hwrites
        refine ⟨"w2-sensors", List.mem_cons_self, rfl, fun e' he' hwrites' => ?_⟩
        obtain ⟨j, -, rfl⟩ := writer_w2 ht he' hwrites'
        rfl
      · rintro t ht e he hwrites record rfl
        obtain ⟨i, -, rfl⟩ := writer_w2 ht he hwrites
        exfalso
        simpa using congrArg String.toList (List.mem_singleton.mp hwrites)
  | w3 =>
      have hinput : ∀ e ∈ w3.registered, e.inputTopics = ["w3-trades"] := by decide +kernel
      refine ⟨by decide +kernel, ?_, ?_⟩
      · intro t _ e he _
        exact ⟨"w3-trades", List.mem_cons_self, hinput e he, fun e' he' _ => hinput e' he'⟩
      · have hfree : ∀ e ∈ w3.registered, "w2-sensors" ∉ e.outputTopics := by decide +kernel
        rintro t - e he hwrites record rfl
        exact absurd hwrites (hfree e he)

/-- In W1 and W3 a topic has one writer. -/
theorem sole_writer {w : Workload} (hw : w ≠ w2) {t : String} {e e' : Registered Construction}
    (he : e ∈ w.registered) (he' : e' ∈ w.registered) (hwrites : t ∈ e.outputTopics)
    (hwrites' : t ∈ e'.outputTopics) : e' = e := by
  have hdistinct : (w.registered.flatMap Registered.outputTopics).Nodup := by
    cases w with
    | w1 => decide +kernel
    | w2 => exact absurd rfl hw
    | w3 => decide +kernel
  by_contra hne
  have hsymm : Std.Symm (Function.onFun List.Disjoint (Registered.outputTopics (ω := Construction))) :=
    ⟨fun _ _ h _ hmem hmem' => h hmem' hmem⟩
  exact (List.nodup_flatMap.mp hdistinct).2.forall he' he hne hwrites' hwrites

theorem colocates {w : Workload} {node : Construction → String} (h : w.ZonesTogether node) :
    Colocates w.registered w.Settled node := by
  intro t ht e he e' he' hwrites hwrites'
  by_cases hw : w = w2
  · subst hw
    obtain ⟨i, hi, rfl⟩ := writer_w2 ht he hwrites
    obtain ⟨j, hj, rfl⟩ := writer_w2 ht he' hwrites'
    apply h rfl i hi j hj
    -- the topic names the zone
    have htopic := (List.mem_singleton.mp hwrites).symm.trans (List.mem_singleton.mp hwrites')
    apply Nat.succ_injective
    apply zeroPadded_injective 2
    simpa [w2Zone] using htopic
  · rw [sole_writer hw he he' hwrites hwrites']

theorem allSteady (w : Workload) (clock : Clock F) :
    AllSteady Construction.cls w.registered w.Settled Expected Construction.Kept clock := by
  intro t ht e he hwrites t' hinput
  by_cases hw : w = w2
  · subst hw
    obtain ⟨i, -, rfl⟩ := writer_w2 ht he hwrites
    cases hinput
    exact Construction.steady_cls rfl fun _ record hrecord => hrecord rfl
  · have hclass : ∀ e ∈ w.registered, (e.op.steady = true ∧ e.op.operatorType ≠ "VehicleDetector") ∨
        ∀ t ∈ e.outputTopics, t ∉ w.settledTopics := by
      cases w with
      | w1 => decide +kernel
      | w2 => exact absurd rfl hw
      | w3 => decide +kernel
    rcases hclass e he with ⟨hsteady, htype⟩ | hout
    · exact Construction.steady_cls hsteady fun h => absurd h htype
    · exact absurd ht (hout t hwrites)

section Deployed

variable (w : Workload) (bridge : BridgeProducer) (mp : MessagePack F) (partitions : String → Nat)
  (node : Construction → String) (l : (c : Construction) → c.Attributes F)

/-- The workload on nodes, whatever it is sent and whatever becomes of its own sends. -/
def onNodes : Lts (Dataflow.State (String × String) String Construction (Construction.Attributes F) (List UInt8))
    (Dataflow.Event (String × String) String (Clock F) (List UInt8)) :=
  (consumers w.registered partitions node).system (operators bridge mp Construction.cls w.registered) l

/-- The workload on nodes: what it can reach while what comes from outside is as expected and no send to a settled
    topic is refused. -/
def deployment : Lts (Dataflow.State (String × String) String Construction (Construction.Attributes F) (List UInt8))
    (Dataflow.Event (String × String) String (Clock F) (List UInt8)) :=
  Hea.deployment bridge mp Construction.cls w.registered partitions node l Expected Construction.Kept w.Settled

/-- The workload on nodes with nothing coming from outside. -/
def leftAlone : Lts (Dataflow.State (String × String) String Construction (Construction.Attributes F) (List UInt8))
    (Dataflow.Event (String × String) String (Clock F) (List UInt8)) :=
  undisturbed bridge mp Construction.cls w.registered partitions node l

/-- The consumers have caught up. -/
def CaughtUp
    (s : Dataflow.State (String × String) String Construction (Construction.Attributes F) (List UInt8)) : Prop :=
  (consumers w.registered partitions node).Quiescent s

end Deployed

/-- The consumers with operators are those of the registrations. -/
theorem caughtUp_of_registered {w : Workload} {partitions : String → Nat} {node : Construction → String}
    {s : Dataflow.State (String × String) String Construction (Construction.Attributes F) (List UInt8)}
    (h : ∀ e ∈ w.registered, ∀ t ∈ e.inputTopics, s.pending (node e.op, t) = [] ∧
      ∀ p < partitions t, s.position (node e.op, t) p = (s.partition t p).length) : w.CaughtUp partitions node s := by
  rintro ⟨name, t⟩ hruns
  have hbound : boundTo (onNode w.registered node name) t ≠ [] := by
    intro hnone
    have hruns : (!(boundTo (onNode w.registered node name) t).isEmpty) = true := hruns
    rw [hnone] at hruns
    cases hruns
  obtain ⟨o, ho⟩ := List.exists_mem_of_ne_nil _ hbound
  obtain ⟨e, he, rfl, ht⟩ := mem_boundTo ho
  obtain ⟨hmem, hname⟩ := List.mem_filter.mp he
  have hnode : node e.op = name := of_decide_eq_true hname
  subst hnode
  exact h e hmem t ht

variable {bridge : BridgeProducer} {mp : MessagePack F} {partitions partitions' : String → Nat}
  {l : (c : Construction) → c.Attributes F}
  {s s' : Dataflow.State (String × String) String Construction (Construction.Attributes F) (List UInt8)}

/-- **A workload computes the same on every placement and under every schedule**, up to the operators that look at the
    clock, where the topics that are read on the way have one partition. What a topic carries is then a function of what
    the topics upstream carry, and so, stage by stage, of what was fed (`placement_independent`). -/
theorem topics_placement_independent (w : Workload) {node node' : Construction → String}
    (hl : ∀ c : Construction, c.constructed clock = .ok (l c))
    (hone : OnePartition w.registered partitions w.Settled) (hone' : OnePartition w.registered partitions' w.Settled)
    (hnode : w.ZonesTogether node) (hnode' : w.ZonesTogether node')
    (hs : (w.deployment bridge mp partitions node l).Reachable s) (hcaught : w.CaughtUp partitions node s)
    (hs' : (w.deployment bridge mp partitions' node' l).Reachable s') (hcaught' : w.CaughtUp partitions' node' s')
    (hfed : ∀ t ∈ w.settledTopics, (∀ e ∈ w.registered, t ∉ e.outputTopics) → s.written t = s'.written t) :
    ∀ t ∈ w.settledTopics, s.written t = s'.written t :=
  placement_independent (regular w) (allSteady w clock) (fun c => Construction.kept_constructed (hl c)) hone hone'
    (colocates hnode) (colocates hnode') hs hcaught hs' hcaught' hfed

/-- The attributes after construction, over the rationals. -/
def exactAttributes : (c : Construction) → c.Attributes ℚ
  | .normalizerOperator oid zone => .new oid zone 0.01
  | .featureAggWindow oid zone   => ⟨oid, zone, 1000, [], 100, 0⟩
  | .multiStreamJoin oid n       => ⟨oid, n, 100.0 / 1000.0, ∅, 0⟩
  | .binaryClassifier oid        => .new oid 0.6
  | .vehicleDetector oid sensor  => .new oid sensor 0.2
  | .zoneAggregator oid zone     => .new ⟨0, fun _ => 0⟩ oid zone 25
  | .patternDetector oid         => .new oid 0.7
  | .riskCheck oid category      => .new oid category
  | .anomalyDetector oid metric  => .new oid metric 0.2 3.0
  | .statAggregator oid instr    => .new oid instr
  | .complianceLogger oid domain => .new oid domain

theorem exactAttributes_constructed (c : Construction) :
    c.constructed ⟨0, fun _ => 0⟩ = .ok (exactAttributes c) := by
  cases c with
  | featureAggWindow oid zone => rfl
  | multiStreamJoin oid n =>
      have hdiv : floatDiv (100.0 : ℚ) 1000.0 = .ok (100.0 / 1000.0) := by
        unfold floatDiv
        rw [if_neg (by rw [Exact.eq_iff]; norm_num)]
      show MultiStreamJoin.new _ oid n 100.0 = _
      unfold MultiStreamJoin.new
      rw [hdiv]
      rfl
  | normalizerOperator | binaryClassifier | vehicleDetector | zoneAggregator | patternDetector | riskCheck
    | anomalyDetector | statAggregator | complianceLogger => rfl

/-- Empty records come in for the first zone, one for each of the partitions given, and are processed on a node, in the
    order given second. -/
def firstRecords (name : String) (fed got : List Nat) :
    List (Dataflow.Event (String × String) String (Clock ℚ) (List UInt8)) :=
  fed.map (fun p => .feed "w1-raw-zone_1" p [0x80]) ++
    got.flatMap (fun p => [.take (name, "w1-raw-zone_1") p, .work (name, "w1-raw-zone_1") ⟨0, fun _ => 0⟩])

def afterFirst (partitions : String → Nat) (node : Construction → String) (name : String) (fed got : List Nat) :
    Option (Dataflow.State (String × String) String Construction (Construction.Attributes ℚ) (List UInt8)) :=
  Lts.exec ((consumers w1.registered partitions node).step
    (operators ⟨true⟩ Exact.messagePack Construction.cls w1.registered))
    (firstRecords name fed got) (Network.initial exactAttributes)

theorem reachable_afterFirst {node : Construction → String} {name : String} {fed got : List Nat}
    {s : Dataflow.State (String × String) String Construction (Construction.Attributes ℚ) (List UInt8)}
    (h : afterFirst partitions node name fed got = some s) :
    (w1.deployment ⟨true⟩ Exact.messagePack partitions node exactAttributes).Reachable s := by
  have hinit : ((consumers w1.registered partitions node).system
      (operators ⟨true⟩ Exact.messagePack Construction.cls w1.registered) exactAttributes).init
        (Network.initial exactAttributes) := rfl
  apply Lts.restrict_reachable_of_labels hinit _ h
  intro a ha s
  rcases List.mem_append.mp ha with hfed | hgot
  · obtain ⟨p, -, rfl⟩ := List.mem_map.mp hfed
    exact fun _ => ⟨∅, ⟨rfl, Record.portable_empty⟩, fun h => absurd h (by decide)⟩
  · obtain ⟨p, -, ha⟩ := List.mem_flatMap.mp hgot
    simp only [List.mem_cons, List.not_mem_nil, or_false] at ha
    rcases ha with rfl | rfl <;> trivial

/-- Everything on one node, and each operator on a node of its own. -/
theorem topics_placement_independent_first :
    ∃ s ∈ afterFirst (fun _ => 1) (fun _ => "edge") "edge" [0] [0],
      ∃ s' ∈ afterFirst (fun _ => 1) Construction.operatorId "normalizer-zone_1" [0] [0],
        s.written "w1-raw-zone_1" = [[0x80]] ∧ ∀ t ∈ w1.settledTopics, s.written t = s'.written t := by
  have hs : (afterFirst (fun _ => 1) (fun _ => "edge") "edge" [0] [0]).isSome = true := by decide +kernel
  have hs' : (afterFirst (fun _ => 1) Construction.operatorId "normalizer-zone_1" [0] [0]).isSome = true := by
    decide +kernel
  have hcaught : ∀ s ∈ afterFirst (fun _ => 1) (fun _ => "edge") "edge" [0] [0], ∀ e ∈ w1.registered,
      ∀ t ∈ e.inputTopics, s.pending ("edge", t) = [] ∧
        ∀ p < 1, s.position ("edge", t) p = (s.partition t p).length := by decide +kernel
  have hcaught' : ∀ s ∈ afterFirst (fun _ => 1) Construction.operatorId "normalizer-zone_1" [0] [0],
      ∀ e ∈ w1.registered, ∀ t ∈ e.inputTopics, s.pending (e.op.operatorId, t) = [] ∧
        ∀ p < 1, s.position (e.op.operatorId, t) p = (s.partition t p).length := by decide +kernel
  have hfed : ∀ s ∈ afterFirst (fun _ => 1) (fun _ => "edge") "edge" [0] [0],
      ∀ s' ∈ afterFirst (fun _ => 1) Construction.operatorId "normalizer-zone_1" [0] [0],
        s.written "w1-raw-zone_1" = [[0x80]] ∧ ∀ t ∈ w1.settledTopics, (∀ e ∈ w1.registered, t ∉ e.outputTopics) →
          s.written t = s'.written t := by
    decide +kernel
  obtain ⟨s, hs⟩ := Option.isSome_iff_exists.mp hs
  obtain ⟨s', hs'⟩ := Option.isSome_iff_exists.mp hs'
  refine ⟨s, hs, s', hs', (hfed s hs s' hs').1, ?_⟩
  exact topics_placement_independent w1 exactAttributes_constructed (fun _ _ _ _ _ _ _ => rfl)
    (fun _ _ _ _ _ _ _ => rfl) (fun h => nomatch h) (fun h => nomatch h) (reachable_afterFirst hs)
    (caughtUp_of_registered (hcaught s hs)) (reachable_afterFirst hs') (caughtUp_of_registered (hcaught' s' hs'))
    (hfed s hs s' hs').2

/-- **What a topic of W1 or W3 carries**, on any placement: of what its operator, run on its own, makes of the records
    of the topic it reads, in the order in which its consumer has got them, a part at any time, and all of it once the
    consumers have caught up. The order keeps that of each partition; with one partition it is that of the topic. -/
theorem topic_contents {w : Workload} (hw : w ≠ w2) {node : Construction → String}
    (hl : ∀ c : Construction, c.constructed clock = .ok (l c))
    (hs : (w.deployment bridge mp partitions node l).Reachable s) {e : Registered Construction}
    (he : e ∈ w.registered) {t : String} (ht : t ∈ w.settledTopics) (hwrites : t ∈ e.outputTopics) :
    ∃ t' ∈ w.settledTopics, e.inputTopics = [t'] ∧
      let got := s.handled (node e.op, t')
      let made := valuesAt t (served bridge mp e.op.cls e.outputTopics clock (l e.op) got)
      (s.written t <+: made ∧ ∀ p, valuesAt p (s.taken (node e.op, t')) <+: s.partition t' p) ∧
        (w.CaughtUp partitions node s →
          s.written t = made ∧ ∀ p, valuesAt p (s.taken (node e.op, t')) = s.partition t' p) ∧
        (partitions t' = 1 → got <+: s.written t' ∧ (w.CaughtUp partitions node s → got = s.written t')) := by
  obtain ⟨t', ht', hinput, -⟩ := (regular (F := F) w).inner t ht e he hwrites
  refine ⟨t', ht', hinput, ?_⟩
  exact topic_of_single (regular w) (allSteady w clock) (fun c => Construction.kept_constructed (hl c))
    (colocates fun h => absurd h hw) hs ht he hwrites hinput
    fun e' he' hwrites' => congrArg Registered.op (sole_writer hw he he' hwrites hwrites')

/-- Two partitions, the second consumed first. -/
theorem topic_contents_first :
    ∃ s ∈ afterFirst (fun _ => 2) Construction.operatorId "normalizer-zone_1" [0, 1] [1, 0],
      ∃ t' ∈ w1.settledTopics, ["w1-raw-zone_1"] = [t'] ∧ s.written "w1-norm-zone_1" <+: valuesAt "w1-norm-zone_1"
        (served ⟨true⟩ Exact.messagePack NormalizerOperator.operator ["w1-norm-zone_1"] ⟨0, fun _ => 0⟩
          (.new "normalizer-zone_1" "zone_1" 0.01) (s.handled ("normalizer-zone_1", t'))) := by
  have hs : (afterFirst (fun _ => 2) Construction.operatorId "normalizer-zone_1" [0, 1] [1, 0]).isSome = true := by
    decide +kernel
  obtain ⟨s, hs⟩ := Option.isSome_iff_exists.mp hs
  obtain ⟨t', ht', hinput, ⟨hpart, -⟩, -⟩ := topic_contents (w := w1) (t := "w1-norm-zone_1")
    (e := ⟨.normalizerOperator "normalizer-zone_1" "zone_1", ["w1-raw-zone_1"], ["w1-norm-zone_1"]⟩)
    (by decide) exactAttributes_constructed (reachable_afterFirst hs) List.mem_cons_self (by decide)
    List.mem_cons_self
  exact ⟨s, hs, t', ht', hinput, hpart⟩

/-! ## Every workload catches up

The stages of the three pipelines, by which each is acyclic. -/

/-- The stage of an operator in its pipeline. -/
def stage : Construction → Nat
  | .normalizerOperator _ _ => 0
  | .featureAggWindow _ _   => 1
  | .multiStreamJoin _ _    => 2
  | .binaryClassifier _     => 3
  | .vehicleDetector _ _    => 0
  | .zoneAggregator _ _     => 1
  | .patternDetector _      => 2
  | .riskCheck _ _ | .anomalyDetector _ _ | .statAggregator _ _ | .complianceLogger _ _ => 0

/-- Where the operators of W2 write, and their stages. -/
theorem writes_w2 {e : Registered Construction} (he : e ∈ w2.registered) {t : String} (ht : t ∈ e.outputTopics) :
    (∃ x, t = "w2-detections-" ++ x) ∧ stage e.op = 0 ∨ (∃ x, t = "w2-zone-" ++ x) ∧ stage e.op = 1 ∨
      t = "w2-incidents" ∧ stage e.op = 2 := by
  obtain ⟨p, hp, rfl⟩ := List.mem_map.mp he
  change p ∈ buildW2Pipeline at hp
  unfold buildW2Pipeline at hp
  simp only [List.mem_append, List.mem_map, List.mem_range, List.mem_singleton] at hp
  rcases hp with (⟨i, hi, rfl⟩ | ⟨i, -, rfl⟩) | rfl
  · exact Or.inl ⟨⟨_, List.mem_singleton.mp ht⟩, rfl⟩
  · exact Or.inr (Or.inl ⟨⟨_, List.mem_singleton.mp ht⟩, rfl⟩)
  · exact Or.inr (Or.inr ⟨List.mem_singleton.mp ht, rfl⟩)

/-- What they read. -/
theorem reads_w2 {e : Registered Construction} (he : e ∈ w2.registered) {t : String} (ht : t ∈ e.inputTopics) :
    t = "w2-sensors" ∨ (∃ x, t = "w2-detections-" ++ x) ∧ stage e.op = 1 ∨
      (∃ x, t = "w2-zone-" ++ x) ∧ stage e.op = 2 := by
  obtain ⟨p, hp, rfl⟩ := List.mem_map.mp he
  change p ∈ buildW2Pipeline at hp
  unfold buildW2Pipeline at hp
  simp only [List.mem_append, List.mem_map, List.mem_range, List.mem_singleton] at hp
  rcases hp with (⟨i, hi, rfl⟩ | ⟨i, -, rfl⟩) | rfl
  · exact Or.inl (List.mem_singleton.mp ht)
  · exact Or.inr (Or.inl ⟨⟨_, List.mem_singleton.mp ht⟩, rfl⟩)
  · obtain ⟨i, -, rfl⟩ := List.mem_map.mp ht
    exact Or.inr (Or.inr ⟨⟨_, rfl⟩, rfl⟩)

theorem staged_w2 : Staged w2.registered stage := by
  constructor
  · intro e he e' he' t ht ht'
    rcases writes_w2 he ht with ⟨⟨x, rfl⟩, hstage⟩ | ⟨⟨x, rfl⟩, hstage⟩ | ⟨rfl, hstage⟩ <;>
      rcases writes_w2 he' ht' with ⟨⟨y, heq⟩, hstage'⟩ | ⟨⟨y, heq⟩, hstage'⟩ | ⟨heq, hstage'⟩
    -- the same kind of topic, or names that differ after `w2-`
    all_goals first
      | exact hstage.trans hstage'.symm
      | simpa using congrArg String.toList heq
  · intro e he e' he' t ht ht'
    rcases writes_w2 he ht with ⟨⟨x, rfl⟩, hstage⟩ | ⟨⟨x, rfl⟩, hstage⟩ | ⟨rfl, hstage⟩ <;>
      rcases reads_w2 he' ht' with heq | ⟨⟨y, heq⟩, hstage'⟩ | ⟨⟨y, heq⟩, hstage'⟩
    all_goals first
      | omega
      | simpa using congrArg String.toList heq

theorem staged (w : Workload) : Staged w.registered stage := by
  cases w with
  | w1 =>
      have htogether : ∀ e ∈ w1.registered, ∀ e' ∈ w1.registered, ∀ t ∈ e.outputTopics, t ∈ e'.outputTopics →
          stage e.op = stage e'.op := by decide +kernel
      have honward : ∀ e ∈ w1.registered, ∀ e' ∈ w1.registered, ∀ t ∈ e.outputTopics, t ∈ e'.inputTopics →
          stage e.op < stage e'.op := by decide +kernel
      exact ⟨htogether, honward⟩
  | w2 => exact staged_w2
  | w3 =>
      have hsame : ∀ e ∈ w3.registered, stage e.op = 0 := by decide +kernel
      have hinput : ∀ e ∈ w3.registered, e.inputTopics = ["w3-trades"] ∧ "w3-trades" ∉ e.outputTopics := by
        decide +kernel
      refine ⟨fun e he e' he' _ _ _ => (hsame e he).trans (hsame e' he').symm, ?_⟩
      intro e he e' he' t ht ht'
      rw [(hinput e' he').1, List.mem_singleton] at ht'
      exact absurd (ht' ▸ ht) (hinput e he).2

/-- **A workload catches up**: from every state it reaches, wherever its operators run, whatever it has been sent and
    whatever has become of its sends, it comes to rest without anything more from outside, with every consumer at the
    end of all partitions of its topic. No schedule and no broker can prevent it. What is left in front of the consumers
    gets smaller with every step, stage by stage: a record that is taken makes only records further downstream. -/
theorem can_catch_up (w : Workload) {node : Construction → String}
    (hs : (w.onNodes bridge mp partitions node l).Reachable s) (clock : Clock F) :
    let M := w.leftAlone bridge mp partitions node l
    M.Terminates s ∧ (∃ events s', M.Run s events s' ∧ w.CaughtUp partitions node s') ∧
      ∀ events s', M.Run s events s' → (M.Stuck s' → w.CaughtUp partitions node s') ∧
        (∀ t, s.log t <+: s'.log t) ∧ ∀ t, (∀ e ∈ w.registered, t ∉ e.outputTopics) → s'.log t = s.log t := by
  obtain ⟨hterminates, hruns⟩ := catches_up (regular (F := F) w).distinct (staged w) clock hs
  obtain ⟨events, s', hrun, hstuck⟩ := hterminates.exists_stuck
  exact ⟨hterminates, ⟨events, s', hrun, (hruns events s' hrun).1 hstuck⟩, hruns⟩

/-- A stamped record: `{"timestamp": 0}`. -/
def stamped : List UInt8 := [0x81, 0xa9] ++ MessagePack.utf8 "timestamp" ++ [0x00]

theorem can_catch_up_first :
    ∃ events, ∃ s s' : Dataflow.State (String × String) String Construction (Construction.Attributes ℚ) (List UInt8),
      (w2.leftAlone ⟨true⟩ Exact.messagePack (fun _ => 4) Construction.operatorId exactAttributes).Run s events s' ∧
        w2.CaughtUp (fun _ => 4) Construction.operatorId s' ∧ s.log "w2-sensors" = [(3, stamped)] ∧
        s'.log "w2-sensors" = [(3, stamped)] := by
  have hexternal : ∀ e ∈ w2.registered, "w2-sensors" ∉ e.outputTopics := by
    intro e he hmem
    rcases writes_w2 he hmem with ⟨⟨x, heq⟩, -⟩ | ⟨⟨x, heq⟩, -⟩ | ⟨heq, -⟩ <;> simpa using congrArg String.toList heq
  have hinit : (w2.onNodes ⟨true⟩ Exact.messagePack (fun _ => 4) Construction.operatorId exactAttributes).Reachable
      (Network.initial exactAttributes) := Lts.Reachable.of_init rfl
  have hfed := hinit.tail (Network.feed_of_external (p := 3) _
    (external_of_unwritten (fun _ => 4) Construction.operatorId hexternal) (by decide) stamped)
  obtain ⟨-, ⟨events, s', hrun, hcaught⟩, hruns⟩ := can_catch_up w2 hfed ⟨0, fun _ => 0⟩
  have hlog : ((Network.initial exactAttributes :
      Dataflow.State (String × String) String Construction (Construction.Attributes ℚ) (List UInt8)).write
        "w2-sensors" 3 stamped).log "w2-sensors" = [(3, stamped)] := by
    rw [State.log_write]
    rfl
  exact ⟨events, _, s', hrun, hcaught, hlog, ((hruns events s' hrun).2.2 _ hexternal).trans hlog⟩

end Workload

end Workloads
end HybridStream
