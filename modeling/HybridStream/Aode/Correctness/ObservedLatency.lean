import HybridStream.Aode.Telemetry
import HybridStream.Py.Exact
import HybridStream.Workloads.Pipelines
import HybridStream.Workloads.W3

/-!
# `Aode.Correctness.ObservedLatency` — observed latency does not reach the score

The path of a latency: an engine records it under the id the operator is registered with, the HEA reports a
percentile under that id, and the collector keeps the report. The score looks it up under the operator *type*.
No pipeline gives an instance the name of a type as its id (`operatorId_not_type`), so the lookup finds nothing
and the score works with its default of one millisecond (`observedLatency_default`).
-/

namespace HybridStream
namespace Aode

open Lib Py Hea Workloads

variable {F σ : Type} [PyRuntime F]

/-! ## The HEAs

Engines that have registered instances of the pipelines and gone through any history. Latencies are recorded under
instance ids, none of which is the name of a type. -/

/-- An HEA: an engine that has registered instances of the pipelines and gone through `events`, and the
    latencies it has recorded meanwhile. -/
structure HeaNode (F σ : Type) where
  nodeId     : String
  heap       : Nat → OperatorObject F σ
  accepts    : Nat → Bool
  events     : List (Engine.Event F)
  instances  : List PipelineEntry
  piped      : ∀ p ∈ instances, p ∈ pipelines
  registered : ∀ oid op inputTopics outputTopics, .register oid op inputTopics outputTopics ∈ events →
                 ∃ p ∈ instances, p.op.operatorId = oid ∧ p.op.operatorType = (heap op).cls.operatorType ∧
                   p.inputTopics = inputTopics ∧ p.outputTopics = outputTopics
  gauges     : HEAMetrics F
  fresh      : gauges.latencySamples = ∅
  latencies  : List (String × F)
  recorded   : latencies.map Prod.fst = Engine.recordsOfRun accepts events (Engine.started heap)

namespace HeaNode

/-- The metrics the HEA reports from. -/
def metrics (n : HeaNode F σ) : HEAMetrics F := n.gauges.recordAll n.latencies

omit [PyRuntime F] in
/-- Latencies are recorded for instances of the pipelines. -/
theorem recorded_instance (n : HeaNode F σ) {oid : String} (h : oid ∈ n.latencies.map Prod.fst) :
    ∃ p ∈ n.instances, p.op.operatorId = oid := by
  rw [n.recorded] at h
  have hwithin : ∀ event ∈ n.events,
      Engine.registersWithin (n.instances.map (fun p => p.op.operatorId)) event := by
    intro event hevent
    cases event with
    | register oid op inputTopics outputTopics =>
        obtain ⟨p, hp, hoid, -⟩ := n.registered oid op inputTopics outputTopics hevent
        exact List.mem_map.mpr ⟨p, hp, hoid⟩
    | deregister | consume | work => trivial
  have hin := (Engine.within_started _ n.heap).recordsOfRun hwithin h
  exact List.mem_map.mp hin

/-- What the HEA reports is never under the name of an operator type. -/
theorem reported_not_type (n : HeaNode F σ) {p95 : Dict String F} (h : n.metrics.getOperatorP95 = .ok p95)
    {oid : String} {x : F} (hget : p95.get oid = some x) : oid ∉ operatorTypes := by
  have hkey := HEAMetrics.mem_keys_of_p95 h hget
  rcases HEAMetrics.mem_keys_recordAll hkey with hgauge | hrecorded
  · -- nothing was recorded before the events
    rw [n.fresh] at hgauge
    cases hgauge
  · -- latencies are recorded under the ids of instances
    obtain ⟨p, hp, rfl⟩ := n.recorded_instance hrecorded
    exact operatorId_not_type p (n.piped p hp)

/-- The percentiles the HEA reports for its instances of a type. -/
def reports (single : F → F) (n : HeaNode F σ) (operatorType : String) : List F :=
  match n.metrics.getOperatorP95 with
  | .ok p95  => (n.instances.filter (fun p => p.op.operatorType = operatorType)).filterMap
                  (fun p => (p95.get p.op.operatorId).map single)
  | .error _ => []

end HeaNode

/-! ## A telemetry collection

The answers that a collection gets, and what the collector has on record afterwards for the HEAs that it reached. -/

/-- An HEA that answered, and when. -/
structure Reached (F σ : Type) where
  node                : HeaNode F σ
  timestampMs         : Int
  collectionLatencyMs : F

/-- What a collection meets: the HEAs that are reached, each as it is when it answers. -/
structure Collection (F σ : Type) where
  clients : HeaClients
  reached : String → Option (Reached F σ)
  single  : F → F

namespace Collection

/-- How the call of an HEA ends. -/
def answer (c : Collection F σ) (heaId : String) : TelemetryCollector.Answer F :=
  match c.reached heaId with
  | some r => ⟨r.node.metrics.getTelemetry c.single r.node.nodeId r.timestampMs, r.collectionLatencyMs⟩
  | none   => ⟨.error ⟨.other, "unreachable"⟩, 0.0⟩

/-- The collector afterwards. -/
def collect (c : Collection F σ) (t : TelemetryCollector F) : TelemetryCollector F :=
  t.collectAll (Main.getStub c.clients) c.answer

/-- The HEAs of the collector that have a stub and are reached. -/
def reachable (c : Collection F σ) (t : TelemetryCollector F) : List (HeaNode F σ) :=
  t.lastTelemetry.keys.filterMap fun heaId =>
    match Main.getStub c.clients heaId, c.reached heaId with
    | some _, some r => some r.node
    | _, _           => none

/-- The percentiles reported for the instances of a type, over all reachable HEAs. -/
def reports (c : Collection F σ) (t : TelemetryCollector F) (operatorType : String) : List F :=
  (c.reachable t).flatMap fun n => n.reports c.single operatorType

/-- Some instance of the type, on a reachable HEA, has a sample. -/
def Sampled (c : Collection F σ) (t : TelemetryCollector F) (operatorType : String) : Prop :=
  ∃ n ∈ c.reachable t, ∃ p ∈ n.instances, p.op.operatorType = operatorType ∧
    p.op.operatorId ∈ n.latencies.map Prod.fst

end Collection

/-- `x` is the greatest of `xs`. -/
def Greatest (xs : List F) (x : F) : Prop := x ∈ xs ∧ ∀ y ∈ xs, PyRuntime.le y x = true

/-! ## What the score looks up

The scoring asks for the latency of an operator type. No report is under such a name, so what it works with is the
default. -/

/-- A report is never under the name of an operator type. -/
theorem operatorP95Ms_collected {c : Collection F σ} {heaId operatorType : String}
    (htype : operatorType ∈ operatorTypes) (stub : Option HEAClient) :
    (TelemetryCollector.collectOne stub (c.answer heaId)).operatorP95Ms.get operatorType = none := by
  unfold TelemetryCollector.collectOne
  split
  · rename_i client response hresponse
    unfold Collection.answer at hresponse
    split at hresponse
    · rename_i r hr
      -- the response copies the percentiles of the HEA's metrics
      obtain ⟨p95, hp95, hresponse⟩ := bind_eq_ok.mp hresponse
      cases hresponse
      show (Dict.mapValues c.single p95).get operatorType = none
      rw [Dict.get_mapValues]
      cases hget : p95.get operatorType with
      | none => rfl
      | some x => exact absurd htype (r.node.reported_not_type hp95 hget)
    · cases hresponse
  · rfl

/-- The collector has no latency under the name of a type. -/
theorem getOperatorLatency_collect (c : Collection F σ) (t : TelemetryCollector F) {operatorType : String}
    (htype : operatorType ∈ operatorTypes) : (c.collect t).getOperatorLatency operatorType = none := by
  have hnone : (c.collect t).lastTelemetry.values.filterMap
      (fun tel => if tel.reachable then tel.operatorP95Ms.get operatorType else none) = [] := by
    rw [List.filterMap_eq_nil_iff]
    intro tel htel
    obtain ⟨⟨heaId, tel⟩, hentry, rfl⟩ := List.mem_map.mp htel
    -- each entry of the collector is what its HEA was collected to
    obtain ⟨-, rfl⟩ := TelemetryCollector.get_collectAll (Dict.get_eq_some_iff.mpr hentry)
    split
    · exact operatorP95Ms_collected htype _
    · rfl
  unfold TelemetryCollector.getOperatorLatency
  rw [hnone]

/-- **The score of an operator type is computed with the default latency**, whatever was recorded. -/
theorem observedLatency_default (c : Collection F σ) (t : TelemetryCollector F) {s : ScoringAlgorithm F}
    (hs : s.telemetry = c.collect t) {operatorType : String} (htype : operatorType ∈ operatorTypes) :
    s.observedLatencyMs operatorType = 1.0 := by
  unfold ScoringAlgorithm.observedLatencyMs
  rw [hs, getOperatorLatency_collect c t htype]

/-- **When the score works with the observed latency**: exactly when the greatest percentile reported for the type is
    the default of one millisecond. Reports are under operator ids and the look-up is under the type, which no operator
    has for its id, so the score always works with the default. -/
theorem observed_latency_reaches_iff {c : Collection F σ} {t : TelemetryCollector F} {s : ScoringAlgorithm F}
    (hs : s.telemetry = c.collect t) {operatorType : String} (hsampled : c.Sampled t operatorType) :
    Greatest (c.reports t operatorType) (s.observedLatencyMs operatorType) ↔
      Greatest (c.reports t operatorType) 1.0 := by
  obtain ⟨n, -, p, -, rfl, -⟩ := hsampled
  rw [observedLatency_default c t hs (operatorType_mem p.op)]

/-! ### A slow risk check

An HEA that has measured 250 ms for an instance of the type, and a score that has not heard of it. -/

/-- The entry of the credit risk check. -/
def creditRisk : PipelineEntry := ⟨.riskCheck "risk-credit" "credit", ["w3-trades"], ["w3-risk-credit"]⟩

/-- An HEA on which the credit risk check took 250 ms for a trade. -/
def slowNode : HeaNode ℚ (RiskCheck ℚ) where
  nodeId     := "hea-node-1"
  heap _     := ⟨RiskCheck.operator, false, RiskCheck.new "risk-credit" "credit"⟩
  accepts _  := true
  events     := [ .register "risk-credit" 0 ["w3-trades"] ["w3-risk-credit"],
                  .consume ⟨⟨"w3-trades", 0, 0⟩, ⟨0, fun _ => 0⟩, ∅⟩ ]
  instances  := [creditRisk]
  piped      := by decide +kernel
  registered := by
    intro oid op inputTopics outputTopics h
    rcases List.mem_cons.mp h with hregister | hrest
    · cases hregister
      exact ⟨creditRisk, List.mem_singleton_self _, rfl, rfl, rfl, rfl⟩
    · cases List.mem_singleton.mp hrest
  gauges     := ⟨0, 0, 0, ∅⟩
  fresh      := rfl
  latencies  := [("risk-credit", 250)]
  recorded   := by decide +kernel

/-- A collection that reaches this HEA, at the default endpoints. -/
def slowCollection : Collection ℚ (RiskCheck ℚ) where
  clients := Main.heaClients Main.defaultEndpoints
  reached heaId := if heaId = "hea-node-1" then some ⟨slowNode, 0, 1⟩ else none
  single := id

/-- The scoring after it, with the balanced weights. -/
def slowScoring : ScoringAlgorithm ℚ where
  config    := .default
  telemetry := slowCollection.collect (TelemetryCollector.new Main.defaultEndpoints)
  weights   := ⟨"balanced", 3 / 10, 3 / 10, 2 / 10, 2 / 10⟩

theorem reports_slow :
    slowCollection.reports (TelemetryCollector.new Main.defaultEndpoints) "RiskCheck" = [250] := by
  decide +kernel

theorem sampled_slow : slowCollection.Sampled (TelemetryCollector.new Main.defaultEndpoints) "RiskCheck" := by
  have hreachable : slowCollection.reachable (TelemetryCollector.new Main.defaultEndpoints) = [slowNode] := rfl
  refine ⟨slowNode, ?_, creditRisk, List.mem_singleton_self _, rfl, List.mem_singleton_self _⟩
  rw [hreachable]
  exact List.mem_singleton_self _

theorem not_greatest_slow : ¬ Greatest ([250] : List ℚ) 1.0 := by
  rintro ⟨hmem, -⟩
  exact absurd (List.mem_singleton.mp hmem) (by norm_num)

/-- The condition fails for it. -/
theorem observed_latency_reaches_iff_slow :
    ¬ Greatest (slowCollection.reports (TelemetryCollector.new Main.defaultEndpoints) "RiskCheck")
      (slowScoring.observedLatencyMs "RiskCheck") := by
  intro h
  have hdefault := (observed_latency_reaches_iff (s := slowScoring) rfl sampled_slow).mp h
  rw [reports_slow] at hdefault
  exact not_greatest_slow hdefault

/-- A latency of 250 ms is reported, and the score works with 1 ms. -/
theorem latency_not_observed :
    slowCollection.Sampled (TelemetryCollector.new Main.defaultEndpoints) "RiskCheck" ∧
    slowCollection.reports (TelemetryCollector.new Main.defaultEndpoints) "RiskCheck" = [250] ∧
    slowScoring.observedLatencyMs "RiskCheck" = 1.0 ∧
    ¬ Greatest (slowCollection.reports (TelemetryCollector.new Main.defaultEndpoints) "RiskCheck")
      (slowScoring.observedLatencyMs "RiskCheck") := by
  have hdefault := observedLatency_default slowCollection (TelemetryCollector.new Main.defaultEndpoints)
    (s := slowScoring) rfl (operatorType_mem creditRisk.op)
  refine ⟨sampled_slow, reports_slow, hdefault, ?_⟩
  rw [reports_slow, show slowScoring.observedLatencyMs "RiskCheck" = 1.0 from hdefault]
  exact not_greatest_slow

end Aode
end HybridStream
