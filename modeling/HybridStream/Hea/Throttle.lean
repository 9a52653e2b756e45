import HybridStream.Hea.Backpressure
import HybridStream.Hea.Consume

/-!
# `Hea.Throttle` — the consume loops with their backpressure checks

`_consume_loop` with `_check_backpressure` in it, one loop for each topic, interleaved with the worker tasks and with
deregistrations. What `getmany` returns is up to the broker, within `max_records` and nothing at all where the consumer
has been paused, that is where its `pause` was called last and returned. An exception, in a message or in the check,
takes a loop to the next `getmany`; what the consumer answers to `pause` and `resume` is the parameter of
`Hea.Backpressure`. Offsets are the matter of `Hea.Consume`.
-/

namespace HybridStream
namespace Hea

open Lib Py

variable {F σ : Type}

/-- `kafka_batch_size` and the water marks of `HEAConfig`, and what the consumers answer to the check's calls. -/
structure ThrottleConfig where
  batchSize : Nat
  marks     : WaterMarks
  api       : ConsumerApi

/-- The defaults of `HEAConfig`. -/
def ThrottleConfig.default (api : ConsumerApi) : ThrottleConfig := ⟨500, .default, api⟩

/-- The engine with its consume loops and the paused topics. -/
structure Throttle (F σ : Type) where
  engine : Engine F σ
  loops  : String → Loop F
  paused : Paused

/-- The steps, with what the environment answers. -/
inductive ThrottleEvent (F : Type) where
  /-- `getmany` returns. -/
  | getmany (topic : String) (batch : List Message)
  /-- The loop turns to the next message. -/
  | next (topic : String) (clock : Clock F)
  /-- The loop dispatches to the next operator. -/
  | dispatch (topic : String) (refusedAt : Option Nat)
  /-- The batch is done: `_check_backpressure`, and the commit. -/
  | check (topic : String)
  | work (w : Nat) (event : Engine.WorkerEvent) (refusedAt : Option Nat)
  /-- A `deregister_operator` that completes. -/
  | deregister (operatorId : String)

namespace Throttle

def withLoop (st : Throttle F σ) (topic : String) (loop : Loop F) : Throttle F σ :=
  { st with loops := Function.update st.loops topic loop }

section Steps

variable (config : ThrottleConfig) (deserialize : List UInt8 → Except PyError (Record F))

def step (st : Throttle F σ) : ThrottleEvent F → Option (Throttle F σ)
  | .getmany topic batch =>
      match st.loops topic with
      | .polling =>
          if topic ∈ st.engine.consumers ∧ batch.length ≤ config.batchSize ∧
              (topic ∈ st.paused.topics → batch.length = 0) then
            some (st.withLoop topic (.handling [] batch))
          else none
      | _ => none
  | .next topic clock =>
      match st.loops topic with
      | .handling [] (message :: batch) =>
          match deserialize message.value with
          | .ok record =>
              let d : Delivery F := ⟨⟨topic, message.partition, message.offset⟩, clock, record⟩
              some (st.withLoop topic (.handling ((st.engine.bindings topic).map (fun oid => (oid, d))) batch))
          -- the handler of the loop logs the exception: neither the rest of the batch nor the check is reached
          | .error _ => some (st.withLoop topic .polling)
      | _ => none
  | .dispatch topic refusedAt =>
      match st.loops topic with
      | .handling ((oid, d) :: todo) batch =>
          some { st.withLoop topic (.handling todo batch) with
            engine := (st.engine.dispatch (acceptsBut refusedAt) oid d).1 }
      | _ => none
  | .check topic =>
      match st.loops topic with
      | .handling [] [] =>
          -- where the check raises, what it has done so far stays, and the commit is skipped
          some { st.withLoop topic .polling with
            paused := ((st.engine.checkBackpressure config.api config.marks topic).exec st.paused).2 }
      | _ => none
  | .work w event refusedAt =>
      (st.engine.workerStep (acceptsBut refusedAt) w event).map (fun e => { st with engine := e })
  | .deregister oid =>
      if (st.engine.workerQueues.get oid).all st.engine.joined then
        some { st with engine := st.engine.deregisterOperator oid }
      else none

/-- All loops at their beginning, and no topic paused. -/
def start (e : Engine F σ) : Throttle F σ := ⟨e, fun _ => .polling, ⟨∅, []⟩⟩

/-- The transition system of an engine whose operators have been registered. -/
def system (e : Engine F σ) : Lts (Throttle F σ) (ThrottleEvent F) :=
  Lts.ofStep (fun st => st = start e) (step config deserialize)

end Steps

/-! ## What one step does

The steps read backwards: a fetch, the next message, a dispatch, a check with the calls of the consumer, and the steps
of the workers. -/

section Inversion

variable {config : ThrottleConfig} {deserialize : List UInt8 → Except PyError (Record F)} {st st' : Throttle F σ}
  {topic : String}

theorem getmany_eq_some {batch : List Message} (h : st.step config deserialize (.getmany topic batch) = some st') :
    st.loops topic = .polling ∧ topic ∈ st.engine.consumers ∧ batch.length ≤ config.batchSize ∧
      (topic ∈ st.paused.topics → batch = []) ∧ st' = st.withLoop topic (.handling [] batch) := by
  unfold step at h
  dsimp only at h
  split at h
  · rename_i hloop
    obtain ⟨⟨hconsumer, hsize, hpaused⟩, hsome⟩ := Option.ite_none_right_eq_some.mp h
    exact ⟨hloop, hconsumer, hsize, fun hp => List.eq_nil_of_length_eq_zero (hpaused hp),
      (Option.some.inj hsome).symm⟩
  · cases h

theorem next_eq_some {clock : Clock F} (h : st.step config deserialize (.next topic clock) = some st') :
    ∃ message batch, st.loops topic = .handling [] (message :: batch) ∧
      ((∃ record, deserialize message.value = .ok record ∧
          st' = st.withLoop topic (.handling ((st.engine.bindings topic).map
            (fun oid => (oid, ⟨⟨topic, message.partition, message.offset⟩, clock, record⟩))) batch)) ∨
        ∃ err, deserialize message.value = .error err ∧ st' = st.withLoop topic .polling) := by
  unfold step at h
  dsimp only at h
  split at h
  · rename_i message batch hloop
    refine ⟨message, batch, hloop, ?_⟩
    split at h
    · exact Or.inl ⟨_, ‹_›, (Option.some.inj h).symm⟩
    · exact Or.inr ⟨_, ‹_›, (Option.some.inj h).symm⟩
  · cases h

theorem dispatch_eq_some {refusedAt : Option Nat}
    (h : st.step config deserialize (.dispatch topic refusedAt) = some st') :
    ∃ oid d todo batch, st.loops topic = .handling ((oid, d) :: todo) batch ∧
      st' = { st.withLoop topic (.handling todo batch) with
        engine := (st.engine.dispatch (acceptsBut refusedAt) oid d).1 } := by
  unfold step at h
  dsimp only at h
  split at h
  · rename_i oid d todo batch hloop
    exact ⟨oid, d, todo, batch, hloop, (Option.some.inj h).symm⟩
  · cases h

theorem check_eq_some (h : st.step config deserialize (.check topic) = some st') :
    st.loops topic = .handling [] [] ∧
      st' = { st.withLoop topic .polling with
        paused := ((st.engine.checkBackpressure config.api config.marks topic).exec st.paused).2 } := by
  unfold step at h
  dsimp only at h
  split at h
  · rename_i hloop
    exact ⟨hloop, (Option.some.inj h).symm⟩
  · cases h

theorem work_eq_some {w : Nat} {event : Engine.WorkerEvent} {refusedAt : Option Nat}
    (h : st.step config deserialize (.work w event refusedAt) = some st') :
    ∃ e, st.engine.workerStep (acceptsBut refusedAt) w event = some e ∧ st' = { st with engine := e } := by
  obtain ⟨e, he, rfl⟩ := Option.map_eq_some_iff.mp h
  exact ⟨e, he, rfl⟩

theorem deregister_eq_some {oid : String} (h : st.step config deserialize (.deregister oid) = some st') :
    (∀ q, st.engine.workerQueues.get oid = some q → st.engine.joined q = true) ∧
      st' = { st with engine := st.engine.deregisterOperator oid } := by
  obtain ⟨hjoined, hsome⟩ := Option.ite_none_right_eq_some.mp h
  refine ⟨fun q hq => ?_, (Option.some.inj hsome).symm⟩
  rw [hq] at hjoined
  exact hjoined

end Inversion

end Throttle

end Hea
end HybridStream
