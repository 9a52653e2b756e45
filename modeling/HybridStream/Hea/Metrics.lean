import HybridStream.Hea.Engine
import HybridStream.Py.Collections

/-!
# `Hea.Metrics` — latency samples and the telemetry an HEA reports

`hea/metrics.py` and `GetTelemetry` of `hea/grpc/server.py`, with the calls of `record_latency` in
`hea/execution/engine.py`. The last thousand latencies of each operator id are kept, and their 95th percentile
is reported under that id. The engine records a latency where the outputs of an operator have been emitted
(`recordsOf`), under the id the operator is registered with.

The percentile is computed when telemetry is asked for. What the engine records over a history of events is a list of
ids, and all of them are ids that were registered (`Within.recordsOfRun`).
-/

namespace HybridStream
namespace Hea

open Lib Py

variable {F σ : Type}

/-! ## `HEAMetrics`

The latencies of each operator, the last thousand of them, and the percentile of those that telemetry reports. -/

/-- `HEAMetrics`, the values telemetry reports, with the last latencies of each operator. -/
structure HEAMetrics (F : Type) where
  cpuUtilization    : F
  memoryUtilization : F
  ingestRateEps     : F
  latencySamples    : Dict String (List F)

/-- `TelemetryResponse`: what the controller gets of an HEA. -/
structure TelemetryResponse (F : Type) where
  heaId             : String
  cpuUtilization    : F
  memoryUtilization : F
  ingestRateEps     : F
  operatorP95Ms     : Dict String F
  timestampMs       : Int
  reachable         : Bool

namespace HEAMetrics

/-- `record_latency`: the sample is the last of the last thousand of its operator. -/
def recordLatency (m : HEAMetrics F) (operatorId : String) (latencyMs : F) : HEAMetrics F :=
  { m with
    latencySamples := m.latencySamples.set operatorId
      (dequeAppend 1000 (m.latencySamples.getD operatorId []) latencyMs) }

/-- A sequence of calls of `record_latency`. -/
def recordAll (m : HEAMetrics F) (records : List (String × F)) : HEAMetrics F :=
  records.foldl (fun m r => m.recordLatency r.1 r.2) m

variable [PyRuntime F]

/-- The 95th percentile of a non-empty list of samples. -/
def p95 (samples : List F) : Except PyError F := p95Of samples

/-- `get_operator_p95`: for each operator that has a sample, in the order in which they first had one. -/
def getOperatorP95 (m : HEAMetrics F) : Except PyError (Dict String F) := do
  let result ← (m.latencySamples.entries.filter (fun e => !e.2.isEmpty)).mapM fun e => do
    let x ← p95 e.2
    .ok (e.1, x)
  .ok (Dict.ofList result)

/-- `GetTelemetry`; `single` is the rounding of a double to the `float` of the message. -/
def getTelemetry (single : F → F) (nodeId : String) (nowMs : Int) (m : HEAMetrics F) :
    Except PyError (TelemetryResponse F) := do
  let p95 ← m.getOperatorP95
  .ok { heaId             := nodeId
        cpuUtilization    := single m.cpuUtilization
        memoryUtilization := single m.memoryUtilization
        ingestRateEps     := single m.ingestRateEps
        operatorP95Ms     := Dict.mapValues single p95
        timestampMs       := nowMs
        reachable         := true }

/-! ### Ids that are reported were recorded

A percentile is of an operator that has samples, and samples come from `record_latency` only. -/

omit [PyRuntime F] in
theorem mem_keys_recordAll {m : HEAMetrics F} {records : List (String × F)} {oid : String}
    (h : oid ∈ (m.recordAll records).latencySamples.keys) :
    oid ∈ m.latencySamples.keys ∨ oid ∈ records.map Prod.fst := by
  induction records generalizing m with
  | nil => exact Or.inl h
  | cons r records ih =>
      rcases ih h with hkey | hrest
      · obtain ⟨samples, hget⟩ := Dict.mem_keys_iff.mp hkey
        by_cases hoid : oid = r.1
        · exact Or.inr (hoid ▸ List.mem_cons_self)
        · have hold : m.latencySamples.get oid = some samples := by
            rw [← Dict.get_set_ne m.latencySamples hoid]
            exact hget
          exact Or.inl (Dict.mem_keys_iff.mpr ⟨samples, hold⟩)
      · exact Or.inr (List.mem_cons_of_mem _ hrest)

/-- A percentile belongs to an operator with samples. -/
theorem mem_keys_of_p95 {m : HEAMetrics F} {p95 : Dict String F} (h : m.getOperatorP95 = .ok p95)
    {oid : String} {x : F} (hget : p95.get oid = some x) : oid ∈ m.latencySamples.keys := by
  obtain ⟨result, hresult, h⟩ := bind_eq_ok.mp h
  cases h
  have hin : oid ∈ result.map Prod.fst := by
    by_contra hout
    have hnone : (Dict.ofList result).get oid = (∅ : Dict String F).get oid := Dict.get_update_of_not_mem hout
    rw [hnone] at hget
    cases hget
  have hkeys : result.map Prod.fst = (m.latencySamples.entries.filter (fun e => !e.2.isEmpty)).map Prod.fst := by
    apply map_of_mapM hresult
    intro e r hr
    obtain ⟨_, -, hpair⟩ := bind_eq_ok.mp hr
    cases hpair
    rfl
  rw [hkeys] at hin
  exact (List.filter_sublist.map Prod.fst).subset hin

end HEAMetrics

/-! ## What the engine records

The engine records a latency under the id that it dispatched to, for calls whose outputs got out, in `_dispatch` for
inline operators and in the worker loop for the others. -/

namespace Engine

/-- The id a concluded call is recorded under: once its outputs are emitted, and not where it raised. -/
def recordsOfResult (accepts : Nat → Bool) (e : Engine F σ) (oid : String) :
    Except PyError (List (Record F)) → List String
  | .ok records => if (e.emit accepts oid records).2 then [oid] else []
  | .error _    => []

/-- `record_latency` in `_dispatch`: only for what is processed inline, and not where that raises. -/
def recordsOfDispatch (accepts : Nat → Bool) (e : Engine F σ) (oid : String) (d : Delivery F) : List String :=
  match e.operators.get oid with
  | none    => []
  | some op =>
      if (e.heap op).cpuBound then []
      else e.recordsOfResult accepts oid (((e.heap op).cls.process d.clock d.record).exec (e.heap op).state).1

/-- The dispatches of one record, to each operator in turn. -/
def recordsOfAll (accepts : Nat → Bool) (d : Delivery F) : List String → Engine F σ → List String
  | [], _          => []
  | oid :: oids, e => e.recordsOfDispatch accepts oid d ++ recordsOfAll accepts d oids (e.dispatch accepts oid d).1

/-- The ids under which an event records latencies: in `_dispatch`, and in `_cpu_worker_loop`. -/
def recordsOf (accepts : Nat → Bool) (e : Engine F σ) : Event F → List String
  | .consume d      => recordsOfAll accepts d (e.bindings d.origin.topic) e
  | .work w .finish =>
      match e.workers[w]? with
      | some ⟨oid, .executing _ _ result⟩ => e.recordsOfResult accepts oid result
      | _                                 => []
  | _ => []

/-- The ids a history of events records latencies under, in order. -/
def recordsOfRun (accepts : Nat → Bool) : List (Event F) → Engine F σ → List String
  | [], _      => []
  | ev :: evs, e =>
      e.recordsOf accepts ev ++
        match e.step accepts ev with
        | some e' => recordsOfRun accepts evs e'
        | none    => []

/-! ### They are registered

So the ids that telemetry reports are ids of operators that were registered: instance ids, and not the operator types
that placement speaks of. -/

section Registered

variable {accepts : Nat → Bool} {e e' : Engine F σ} {ids : List String} {oid : String}

/-- The operators and the workers have ids of the list. -/
structure Within (ids : List String) (e : Engine F σ) : Prop where
  operators : ∀ {oid op}, e.operators.get oid = some op → oid ∈ ids
  workers   : ∀ worker ∈ e.workers, worker.operatorId ∈ ids

/-- The event registers ids of the list only. -/
def registersWithin (ids : List String) : Event F → Prop
  | .register oid _ _ _ => oid ∈ ids
  | _                   => True

theorem mem_recordsOfResult {result : Except PyError (List (Record F))} {oid' : String}
    (h : oid' ∈ e.recordsOfResult accepts oid result) : oid' = oid := by
  unfold recordsOfResult at h
  split at h
  · split at h
    · exact List.mem_singleton.mp h
    · cases h
  · cases h

theorem workers_conclude (worked : String) (origin : Origin) (result : Except PyError (List (Record F))) :
    (e.conclude accepts oid worked origin result).workers = e.workers := by
  obtain ⟨sends, done, -, heq⟩ := conclude_eq accepts e oid worked origin result
  rw [heq]

theorem workers_dispatchAll (d : Delivery F) (oids : List String) (e : Engine F σ) :
    (dispatchAll accepts d oids e).1.workers = e.workers := by
  induction oids generalizing e with
  | nil => rfl
  | cons oid oids ih =>
      have hfirst : (e.dispatch accepts oid d).1.workers = e.workers := by
        unfold dispatch
        split
        · rfl
        · split
          · split <;> rfl
          · exact workers_conclude oid d.origin _
      exact (ih _).trans hfirst

theorem mem_workers_registerOperator {op : Nat} {inputTopics outputTopics : List String} {worker : Worker F}
    (h : worker ∈ (e.registerOperator op inputTopics outputTopics).workers) :
    worker ∈ e.workers ∨ worker.operatorId = e.operatorIdOf op := by
  let e₁ : Engine F σ :=
    { e with
      operators    := e.operators.set (e.operatorIdOf op) op
      outputRoutes := e.outputRoutes.set (e.operatorIdOf op) outputTopics }
  obtain ⟨bound, consumers, hfold⟩ := foldl_bindTopic (e.operatorIdOf op) inputTopics e₁
  unfold registerOperator at h
  dsimp only at h
  rw [hfold] at h
  split at h
  · rcases List.mem_append.mp h with hold | hnew
    · exact Or.inl hold
    · rw [List.mem_singleton.mp hnew]
      exact Or.inr rfl
  · exact Or.inl h

theorem Within.recordsOfAll (h : e.Within ids) {d : Delivery F} {oids : List String}
    (hoid : oid ∈ recordsOfAll accepts d oids e) : oid ∈ ids := by
  induction oids generalizing e with
  | nil => cases hoid
  | cons first rest ih =>
      rcases List.mem_append.mp hoid with hfirst | hrest
      · unfold recordsOfDispatch at hfirst
        split at hfirst
        · cases hfirst
        · rename_i op hop
          split at hfirst
          · cases hfirst
          · rw [mem_recordsOfResult hfirst]
            exact h.operators hop
      · have hsame : SameRegistry e (e.dispatch accepts first d).1 := SameRegistry.dispatch d
        have hworkers : (e.dispatch accepts first d).1.workers = e.workers := workers_dispatchAll d [first] e
        refine ih ⟨fun hop => ?_, ?_⟩ hrest
        · rw [hsame.operators] at hop
          exact h.operators hop
        · rw [hworkers]
          exact h.workers

/-- What an event records is recorded under a registered id. -/
theorem Within.recordsOf (h : e.Within ids) {event : Event F} (hoid : oid ∈ e.recordsOf accepts event) :
    oid ∈ ids := by
  cases event with
  | register | deregister => cases hoid
  | consume d => exact h.recordsOfAll hoid
  | work w event =>
      cases event with
      | start | take | fail => cases hoid
      | finish =>
          unfold Engine.recordsOf at hoid
          dsimp only at hoid
          split at hoid
          · rename_i oid' q item result hworker
            rw [mem_recordsOfResult hoid]
            exact h.workers _ (List.mem_of_getElem? hworker)
          · cases hoid

/-- Resuming a worker leaves its id. -/
theorem Within.set_worker (h : e.Within ids) {w : Nat} {state state' : WorkerState F}
    (hw : e.workers[w]? = some ⟨oid, state⟩) : ∀ worker ∈ e.workers.set w ⟨oid, state'⟩, worker.operatorId ∈ ids := by
  intro worker hmem
  rcases List.mem_or_eq_of_mem_set hmem with hold | rfl
  · exact h.workers _ hold
  · exact h.workers ⟨oid, state⟩ (List.mem_of_getElem? hw)

/-- An engine with the registry of another one, whose workers are those of registered ids too. -/
theorem Within.of_sameRegistry (h : e.Within ids) (hsame : SameRegistry e e')
    (hworkers : ∀ worker ∈ e'.workers, worker.operatorId ∈ ids) : e'.Within ids where
  operators hop := h.operators (hsame.operators ▸ hop)
  workers       := hworkers

theorem Within.registerOperator (h : e.Within ids) {op : Nat} {inputTopics outputTopics : List String}
    (hoid : e.operatorIdOf op ∈ ids) : (e.registerOperator op inputTopics outputTopics).Within ids where
  operators := by
    intro oid' op' hop
    rw [operators_registerOperator, Dict.get_set] at hop
    split at hop
    · rename_i heq
      rw [heq]
      exact hoid
    · exact h.operators hop
  workers := by
    intro worker hworker
    rcases mem_workers_registerOperator hworker with hold | hnew
    · exact h.workers worker hold
    · rw [hnew]
      exact hoid

theorem Within.deregisterOperator (h : e.Within ids) (oid : String) : (e.deregisterOperator oid).Within ids where
  operators := by
    intro oid' op' hop
    rw [operators_deregisterOperator] at hop
    split at hop
    · cases hop
    · exact h.operators hop
  workers := by
    unfold Engine.deregisterOperator
    split <;> exact h.workers

theorem Within.workerStep (h : e.Within ids) {w : Nat} {event : WorkerEvent}
    (hstep : e.workerStep accepts w event = some e') : e'.Within ids := by
  refine h.of_sameRegistry (SameRegistry.workerStep hstep) ?_
  cases event with
  | start =>
      obtain ⟨oid, state, hw, -, rfl⟩ := startWorker_eq_some hstep
      exact h.set_worker hw
  | take =>
      obtain ⟨oid, q, item, rest, hw, -, rfl⟩ := takeItem_eq_some hstep
      exact h.set_worker hw
  | finish =>
      obtain ⟨oid, q, item, result, hw, rfl⟩ := finishItem_eq_some hstep
      rw [workers_conclude]
      exact h.set_worker hw
  | fail =>
      obtain ⟨oid, q, item, result, hw, rfl⟩ := failItem_eq_some hstep
      exact h.set_worker hw

theorem Within.step (h : e.Within ids) {event : Event F} (hwithin : registersWithin ids event)
    (hstep : e.step accepts event = some e') : e'.Within ids := by
  cases event with
  | register oid op inputTopics outputTopics =>
      obtain ⟨hoid, rfl⟩ := Option.ite_none_right_eq_some.mp hstep |>.imp_right Option.some.inj
      exact h.registerOperator (hoid ▸ hwithin)
  | deregister oid =>
      obtain ⟨-, rfl⟩ := Option.ite_none_right_eq_some.mp hstep |>.imp_right Option.some.inj
      exact h.deregisterOperator oid
  | consume d =>
      cases hstep
      refine h.of_sameRegistry (SameRegistry.dispatchAll d _ e) ?_
      have hworkers : (e.consume accepts d).1.workers = e.workers := workers_dispatchAll d (e.bindings d.origin.topic) e
      rw [hworkers]
      exact h.workers
  | work w event => exact h.workerStep hstep

/-- **Latencies are recorded under registered ids**, over a whole history of events. -/
theorem Within.recordsOfRun {events : List (Event F)} (h : e.Within ids)
    (hwithin : ∀ event ∈ events, registersWithin ids event) (hoid : oid ∈ recordsOfRun accepts events e) :
    oid ∈ ids := by
  induction events generalizing e with
  | nil => cases hoid
  | cons event events ih =>
      rcases List.mem_append.mp hoid with hfirst | hrest
      · exact h.recordsOf hfirst
      · split at hrest
        · rename_i e' hstep
          have h' : e'.Within ids := h.step (hwithin event List.mem_cons_self) hstep
          exact ih h' (fun ev hev => hwithin ev (List.mem_cons_of_mem _ hev)) hrest
        · cases hrest

theorem within_started (ids : List String) (heap : Nat → OperatorObject F σ) : (started heap).Within ids :=
  ⟨fun hop => absurd hop (by simp [started]), fun _ hworker => absurd hworker (by simp [started])⟩

end Registered

end Engine

end Hea
end HybridStream
