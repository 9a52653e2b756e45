import HybridStream.Hea.Engine

/-!
# `Hea.Consume` — the consume loops, the workers and the broker

`OperatorEngine._consume_loop`, one coroutine a topic, interleaved with the worker tasks. `log` is what the
broker holds; `deserialize` is `_deserialize_record`. A consumer has a *position* in each partition, which
`getmany` moves past what it returns, and `commit` makes the positions the *committed* offsets. After a crash
the engine restarts with the same registrations, empty queues and the committed offsets as positions.

`_check_backpressure` (`Hea.Backpressure`) only pauses fetching; here `getmany` may return nothing at any time.
-/

namespace HybridStream
namespace Hea

open Lib Py

variable {F σ : Type}

/-- A message of a batch. -/
structure Message where
  partition : Nat
  offset    : Nat
  value     : List UInt8

/-- The messages of a topic, by partition and offset. -/
abbrev Log := Nat → Nat → Option (List UInt8)

/-- Where a `_consume_loop` stands. -/
inductive Loop (F : Type) where
  /-- Before its next `getmany`. -/
  | polling
  /-- In the middle of a batch: what is left to dispatch of the current record, and the messages left. -/
  | handling (todo : List (String × Delivery F)) (batch : List Message)
  /-- Ended, by a cancellation or with the engine. -/
  | stopped

/-- The engine, its consume loops and its consumers' offsets, by topic and partition. -/
structure Consumption (F σ : Type) where
  engine    : Engine F σ
  loops     : String → Loop F
  position  : String → Nat → Nat
  committed : String → Nat → Nat

/-- The steps of the system, with what the environment answers. `refusedAt` is the call of `bridge.send`
    that raises. -/
inductive ConsumeEvent (F σ : Type) where
  /-- `getmany` returns what is between the positions and the given new ones. -/
  | getmany (topic : String) (upto : List (Nat × Nat))
  /-- The loop turns to the next message. -/
  | next (topic : String) (clock : Clock F)
  /-- The loop dispatches to the next operator. -/
  | dispatch (topic : String) (refusedAt : Option Nat)
  /-- The batch is done; the commit is carried out or not, raising or not. -/
  | commit (topic : String) (carriedOut : Bool)
  | stop (topic : String)
  | work (w : Nat) (event : Engine.WorkerEvent) (refusedAt : Option Nat)
  /-- The process dies and comes back, its operators with the given attributes. -/
  | crash (states : Nat → σ)

/-- A bridge of which at most one send raises. -/
def acceptsBut (refusedAt : Option Nat) (n : Nat) : Bool := refusedAt ≠ some n

namespace Consumption

/-! ## The consumer

A fetch returns, partition by partition, what is there from the position up to some bound, and moves the position past
what it returned, processed or not. -/

/-- The messages of one partition from its position up to `upto`, and the new positions. -/
def fetchPartition (log : Log) (position : Nat → Nat) (partition upto : Nat) : List Message × (Nat → Nat) :=
  ((List.range' (position partition) (upto - position partition)).filterMap
      (fun offset => (log partition offset).map (Message.mk partition offset)),
    Function.update position partition (max (position partition) upto))

/-- `getmany`: the messages returned, partition by partition, and the positions past them. -/
def fetch (log : Log) : List (Nat × Nat) → (Nat → Nat) → List Message × (Nat → Nat)
  | [], position                        => ([], position)
  | (partition, upto) :: rest, position =>
      let (messages, position₁) := fetchPartition log position partition upto
      let (batch, position₂) := fetch log rest position₁
      (messages ++ batch, position₂)

/-! ## The steps

The loops, the workers, the bridge and the process itself each take steps of their own, in any order; what the
environment answers is part of the step. -/

variable (log : String → Log) (deserialize : List UInt8 → Except PyError (Record F))

def withLoop (st : Consumption F σ) (topic : String) (loop : Loop F) : Consumption F σ :=
  { st with loops := Function.update st.loops topic loop }

/-- A restarted engine: the same registrations, new attributes, empty queues, new workers. -/
def restarted (e : Engine F σ) (states : Nat → σ) : Engine F σ :=
  { e with
    heap    := fun op => { e.heap op with state := states op }
    queues  := e.queues.map (fun _ => [])
    workers := e.workers.map (fun worker => { worker with state := .created }) }

def step (st : Consumption F σ) : ConsumeEvent F σ → Option (Consumption F σ)
  | .getmany topic upto =>
      match st.loops topic with
      | .polling =>
          if topic ∈ st.engine.consumers then
            let (batch, position) := fetch (log topic) upto (st.position topic)
            some { st.withLoop topic (.handling [] batch) with
              position := Function.update st.position topic position }
          else none
      | _ => none
  | .next topic clock =>
      match st.loops topic with
      | .handling [] (message :: batch) =>
          match deserialize message.value with
          | .ok record =>
              let d : Delivery F := ⟨⟨topic, message.partition, message.offset⟩, clock, record⟩
              some (st.withLoop topic (.handling ((st.engine.bindings topic).map (fun oid => (oid, d))) batch))
          -- the handler of the loop logs the exception, and the rest of the batch is gone
          | .error _ => some (st.withLoop topic .polling)
      | _ => none
  | .dispatch topic refusedAt =>
      match st.loops topic with
      | .handling ((oid, d) :: todo) batch =>
          some { st.withLoop topic (.handling todo batch) with
            engine := (st.engine.dispatch (acceptsBut refusedAt) oid d).1 }
      | _ => none
  | .commit topic carriedOut =>
      match st.loops topic with
      | .handling [] [] =>
          some { st.withLoop topic .polling with
            committed :=
              if carriedOut then Function.update st.committed topic (st.position topic) else st.committed }
      | _ => none
  | .stop topic => some (st.withLoop topic .stopped)
  | .work w event refusedAt =>
      (st.engine.workerStep (acceptsBut refusedAt) w event).map (fun e => { st with engine := e })
  | .crash states =>
      some ⟨restarted st.engine states, fun _ => .polling, st.committed, st.committed⟩

/-! ### What a step has done

The steps read backwards, one lemma for each kind: with all that was asked for and all that has changed. -/

section Steps

variable {log deserialize} {st st' : Consumption F σ} {topic : String}

theorem getmany_eq_some {upto : List (Nat × Nat)} (h : st.step log deserialize (.getmany topic upto) = some st') :
    st.loops topic = .polling ∧
      st' = { st.withLoop topic (.handling [] (fetch (log topic) upto (st.position topic)).1) with
        position := Function.update st.position topic (fetch (log topic) upto (st.position topic)).2 } := by
  unfold step at h
  dsimp only at h
  split at h
  · rename_i hloop
    obtain ⟨-, hsome⟩ := Option.ite_none_right_eq_some.mp h
    exact ⟨hloop, (Option.some.inj hsome).symm⟩
  · cases h

theorem next_eq_some {clock : Clock F} (h : st.step log deserialize (.next topic clock) = some st') :
    ∃ message batch, st.loops topic = .handling [] (message :: batch) ∧
      ((∃ record, deserialize message.value = .ok record ∧
          st' = st.withLoop topic (.handling ((st.engine.bindings topic).map
            (fun oid => (oid, ⟨⟨topic, message.partition, message.offset⟩, clock, record⟩))) batch)) ∨
        ∃ err, deserialize message.value = .error err ∧ st' = st.withLoop topic .polling) := by
  unfold step at h
  dsimp only at h
  split at h
  · rename_i message batch hloop
    refine ⟨message, batch, hloop, ?_⟩
    split at h
    · exact Or.inl ⟨_, ‹_›, (Option.some.inj h).symm⟩
    · exact Or.inr ⟨_, ‹_›, (Option.some.inj h).symm⟩
  · cases h

theorem dispatch_eq_some {refusedAt : Option Nat}
    (h : st.step log deserialize (.dispatch topic refusedAt) = some st') :
    ∃ oid d todo batch, st.loops topic = .handling ((oid, d) :: todo) batch ∧
      st' = { st.withLoop topic (.handling todo batch) with
        engine := (st.engine.dispatch (acceptsBut refusedAt) oid d).1 } := by
  unfold step at h
  dsimp only at h
  split at h
  · rename_i oid d todo batch hloop
    exact ⟨oid, d, todo, batch, hloop, (Option.some.inj h).symm⟩
  · cases h

theorem commit_eq_some {carriedOut : Bool} (h : st.step log deserialize (.commit topic carriedOut) = some st') :
    st.loops topic = .handling [] [] ∧
      st' = { st.withLoop topic .polling with
        committed :=
          if carriedOut then Function.update st.committed topic (st.position topic) else st.committed } := by
  unfold step at h
  dsimp only at h
  split at h
  · rename_i hloop
    exact ⟨hloop, (Option.some.inj h).symm⟩
  · cases h

end Steps

/-- A start from the given offsets, with any engine and all loops at their beginning. Registrations may have been
    completed, or have stopped on the way. -/
structure Init (start : String → Nat → Nat) (st : Consumption F σ) : Prop where
  loops     : ∀ topic, st.loops topic = .polling
  position  : st.position = start
  committed : st.committed = start

/-- The transition system. -/
def system (start : String → Nat → Nat) : Lts (Consumption F σ) (ConsumeEvent F σ) :=
  Lts.ofStep (Init start) (step log deserialize)

end Consumption

end Hea
end HybridStream
