import HybridStream.Hea.Engine
import HybridStream.Lib.Slots

/-!
# `Hea.Tasks` — registrations, calls and workers as coroutines

The same `OperatorEngine` as in `Hea.Engine`, cut where its coroutines may be suspended: a registration while it
starts its consumers, a call of `process`, each send of an `_emit`, a worker before its first step and between its
steps, a deregistration at `q.join()`. In between, every other coroutine may run. What `process` returns is the
environment's; `on_start` and `on_stop` return.

Registrations and calls are numbered in the order in which they begin. An operator in the table stands for the
registration that entered it, and a queue remembers the registration it was made for. `handed` and `sends` are the
histories of what was given to the executor and to the bridge. The engine is running.
-/

namespace HybridStream
namespace Hea

open Lib Py

variable {F : Type}

/-! ## Data

The engine as coroutines: calls, workers and deregistrations, each with the point at which it is suspended. What a
coroutine has read before it was suspended is kept with it, as the tables may change meanwhile. -/

namespace Tasks

/-- What a call of `register_operator` was given. -/
structure Registration where
  operatorId   : String
  cpuBound     : Bool
  outputTopics : List String
  deriving DecidableEq

/-- Where the work on a record stands. -/
inductive Phase (F : Type) where
  /-- In a worker queue. -/
  | queued
  /-- Its operator is CPU-bound and had no queue. -/
  | dropped
  /-- In `process`. What it returns is emitted under the given id. -/
  | processing (emitAs : String)
  /-- In `_emit`: what is still to be sent. -/
  | emitting (pending : List (String × Record F))
  | ended

/-- A call of `_dispatch` that found its operator; `outputs` is what `process` has returned. -/
structure Call (F : Type) where
  operatorId   : String
  registration : Nat
  outputs      : List (Record F)
  phase        : Phase F

/-- An `asyncio.Queue` of calls; `unfinished` counts the calls of `put` without their `task_done`. -/
structure WorkQueue where
  operatorId   : String
  registration : Nat
  items        : List Nat
  unfinished   : Nat

/-- Where a `_cpu_worker_loop` stands between two of its `await`s. -/
inductive WorkerPhase where
  /-- Not run yet. -/
  | created
  | polling (queue : Nat)
  /-- From `run_in_executor` to `task_done`. -/
  | busy (queue call : Nat)
  /-- Ended by the `KeyError` of an id without a queue. -/
  | dead
  deriving DecidableEq

/-- A `_cpu_worker_loop` task, of the operator it was started for. -/
structure Worker where
  operatorId : String
  phase      : WorkerPhase

/-- A call of `deregister_operator` that found its operator, and the queue it waits for. -/
structure Deregistration where
  operatorId   : String
  registration : Nat
  waiting      : Option Nat

end Tasks

open Tasks in
/-- `OperatorEngine` between two steps of its coroutines. -/
structure Tasks (F : Type) where
  registrations   : List Registration
  operators       : Dict String Nat
  outputRoutes    : Dict String (List String)
  workerQueues    : Dict String Nat
  queues          : List WorkQueue
  workers         : List Tasks.Worker
  calls           : List (Call F)
  deregistrations : List Deregistration
  handed          : List Nat
  sends           : List (Nat × String × Record F)

namespace Tasks

/-- A started engine: nothing registered, nothing dispatched, nothing sent. -/
def started : Tasks F := ⟨[], ∅, ∅, ∅, [], [], [], [], [], []⟩

/-- The output topics of a registration. -/
def topicsOf (st : Tasks F) (r : Nat) : List String := ((st.registrations[r]?).map (·.outputTopics)).getD []

/-- `is_cpu_bound` of the operator of a registration. -/
def cpuBoundOf (st : Tasks F) (r : Nat) : Bool := ((st.registrations[r]?).map (·.cpuBound)).getD false

/-- `q._unfinished_tasks`: items put in for which `task_done` has not been called. -/
def unfinished (st : Tasks F) (q : Nat) : Nat := ((st.queues[q]?).map (·.unfinished)).getD 0

/-! ## Registration

A registration and a deregistration up to their suspensions and from there on, as steps of their own. -/

/-- `register_operator` up to its first suspension. -/
def register (st : Tasks F) (oid : String) (cpuBound : Bool) (outputTopics : List String) : Tasks F :=
  { st with
    registrations := st.registrations ++ [⟨oid, cpuBound, outputTopics⟩]
    operators     := st.operators.set oid st.registrations.length
    outputRoutes  := st.outputRoutes.set oid outputTopics }

/-- The consumers of a registration have started, and its operator is CPU-bound: a new queue and a new worker. -/
def makeQueue (st : Tasks F) (r : Nat) : Option (Tasks F) := do
  let reg ← st.registrations[r]?
  if reg.cpuBound ∧ st.queues.all (fun queue => queue.registration ≠ r) then
    some { st with
      workerQueues := st.workerQueues.set reg.operatorId st.queues.length
      queues       := st.queues ++ [⟨reg.operatorId, r, [], 0⟩]
      workers      := st.workers ++ [⟨reg.operatorId, .created⟩] }
  else none

/-- The rest of `deregister_operator`, from the return of `q.join()` on. -/
def closeRoutes (st : Tasks F) (oid : String) : Tasks F := { st with outputRoutes := st.outputRoutes.pop oid }

/-- `deregister_operator` up to `q.join()`, or to its end where nothing has to be waited for. -/
def deregister (st : Tasks F) (oid : String) : Tasks F :=
  match st.operators.get oid with
  | none   => st
  | some r =>
      let queue := (st.workerQueues.get oid).filter (fun q => st.unfinished q ≠ 0)
      let st₁ := { st with
        operators       := st.operators.pop oid
        workerQueues    := st.workerQueues.pop oid
        deregistrations := st.deregistrations ++ [⟨oid, r, queue⟩] }
      if queue.isSome then st₁ else st₁.closeRoutes oid

/-- `q.join()` returns to a deregistration, once its queue has nothing unfinished; then the routes are removed. -/
def joined (st : Tasks F) (d : Nat) : Option (Tasks F) := do
  let dereg ← st.deregistrations[d]?
  let q ← dereg.waiting
  if st.unfinished q = 0 then
    some (closeRoutes { st with deregistrations := st.deregistrations.set d { dereg with waiting := none } }
      dereg.operatorId)
  else none

/-! ## Calls

A dispatch up to its first suspension, the return of `process`, and the sends one by one. -/

/-- `_dispatch` up to its first suspension. -/
def dispatch (st : Tasks F) (oid : String) : Tasks F :=
  match st.operators.get oid with
  | none   => st
  | some r =>
      if st.cpuBoundOf r then
        match (st.workerQueues.get oid).bind (fun q => (st.queues[q]?).map (fun queue => (q, queue))) with
        | some (q, queue) =>
            { st with
              calls  := st.calls ++ [⟨oid, r, [], .queued⟩]
              queues := st.queues.set q { queue with
                items := queue.items ++ [st.calls.length], unfinished := queue.unfinished + 1 } }
        -- the record is gone
        | none => { st with calls := st.calls ++ [⟨oid, r, [], .dropped⟩] }
      else { st with calls := st.calls ++ [⟨oid, r, [], .processing oid⟩] }

/-- Between the sends of `_emit`: with nothing left to send the call has ended. -/
def Phase.emit : List (String × Record F) → Phase F
  | []      => .ended
  | pending => .emitting pending

theorem Phase.emit_ne_emitting_nil (pending : List (String × Record F)) : Phase.emit pending ≠ .emitting [] := by
  cases pending <;> exact nofun

theorem Phase.emit_ne_processing (pending : List (String × Record F)) (emitAs : String) :
    Phase.emit pending ≠ .processing emitAs := by
  cases pending <;> exact nofun

/-- `process` has returned or raised, and `_emit` looks up the routes. -/
def processed (st : Tasks F) (c : Nat) (result : Except PyError (List (Record F))) : Option (Tasks F) := do
  let call ← st.calls[c]?
  match call.phase with
  | .processing emitAs =>
      let pending := Engine.payloads (st.outputRoutes.getD emitAs []) (emitted result)
      some { st with calls := st.calls.set c { call with outputs := emitted result, phase := .emit pending } }
  | _ => none

/-- A send of `_emit` has returned, or raised; the exception is logged where the call was made. -/
def send (st : Tasks F) (c : Nat) (accepted : Bool) : Option (Tasks F) := do
  let call ← st.calls[c]?
  match call.phase with
  | .emitting (payload :: pending) =>
      if accepted then
        some { st with
          calls := st.calls.set c { call with phase := .emit pending }
          sends := st.sends ++ [(c, payload)] }
      else some { st with calls := st.calls.set c { call with phase := .ended } }
  | _ => none

/-! ## Workers

A worker waits for an item, is at one while the pool works, and comes back. -/

/-- The first step of a worker: it looks up its queue. -/
def startWorker (st : Tasks F) (w : Nat) : Option (Tasks F) := do
  let worker ← st.workers[w]?
  match worker.phase with
  | .created =>
      let phase := match st.workerQueues.get worker.operatorId with
        | some q => .polling q
        | none   => .dead
      some { st with workers := st.workers.set w { worker with phase := phase } }
  | _ => none

/-- `q.get()`, and on to `run_in_executor`: the first item of the queue is handed to the pool. -/
def takeItem (st : Tasks F) (w : Nat) : Option (Tasks F) := do
  let worker ← st.workers[w]?
  match worker.phase with
  | .polling q =>
      let queue ← st.queues[q]?
      match queue.items with
      | c :: items => do
          let call ← st.calls[c]?
          some { st with
            queues  := st.queues.set q { queue with items := items }
            workers := st.workers.set w { worker with phase := .busy q c }
            calls   := st.calls.set c { call with phase := .processing worker.operatorId }
            handed  := st.handed ++ [c] }
      | [] => none
  | _ => none

/-- The work on the item has ended one way or the other: `q.task_done()`. -/
def taskDone (st : Tasks F) (w : Nat) : Option (Tasks F) := do
  let worker ← st.workers[w]?
  match worker.phase with
  | .busy q c =>
      let call ← st.calls[c]?
      let queue ← st.queues[q]?
      match call.phase with
      | .ended => some { st with
          queues  := st.queues.set q { queue with unfinished := queue.unfinished - 1 }
          workers := st.workers.set w { worker with phase := .polling q } }
      | _ => none
  | _ => none

/-! ## The system

Any coroutine that can go on may be the next to do so. What the environment answers is part of the step. -/

/-- A step of one of the coroutines, with what it is answered. -/
inductive Event (F : Type) where
  | register (operatorId : String) (cpuBound : Bool) (outputTopics : List String)
  | makeQueue (registration : Nat)
  | dispatch (operatorId : String)
  | processed (call : Nat) (result : Except PyError (List (Record F)))
  | send (call : Nat) (accepted : Bool)
  | startWorker (w : Nat)
  | takeItem (w : Nat)
  | taskDone (w : Nat)
  | deregister (operatorId : String)
  | joined (deregistration : Nat)

def step (st : Tasks F) : Event F → Option (Tasks F)
  | .register oid cpuBound outputTopics => some (st.register oid cpuBound outputTopics)
  | .makeQueue r                        => st.makeQueue r
  | .dispatch oid                       => some (st.dispatch oid)
  | .processed c result                 => st.processed c result
  | .send c accepted                    => st.send c accepted
  | .startWorker w                      => st.startWorker w
  | .takeItem w                         => st.takeItem w
  | .taskDone w                         => st.taskDone w
  | .deregister oid                     => some (st.deregister oid)
  | .joined d                           => st.joined d

def system : Lts (Tasks F) (Event F) := Lts.ofStep (fun st => st = started) step

/-! ## What one step does

The steps read backwards, with a frame lemma for those that leave most tables alone: the invariants of this module and
of the results are derived from these. -/

section Steps

variable {st st' : Tasks F} {oid : String} {r c w d : Nat}

theorem unfinished_of_some {q : Nat} {queue : WorkQueue} (hq : st.queues[q]? = some queue) :
    st.unfinished q = queue.unfinished := by
  unfold unfinished
  rw [hq]
  rfl

theorem makeQueue_eq_some (h : st.makeQueue r = some st') :
    ∃ oid topics, st.registrations[r]? = some ⟨oid, true, topics⟩ ∧ (∀ queue ∈ st.queues, queue.registration ≠ r) ∧
      st' = { st with
        workerQueues := st.workerQueues.set oid st.queues.length
        queues       := st.queues ++ [⟨oid, r, [], 0⟩]
        workers      := st.workers ++ [⟨oid, .created⟩] } := by
  obtain ⟨⟨oid, cpuBound, topics⟩, hreg, h⟩ := Option.bind_eq_some_iff.mp h
  obtain ⟨⟨hcpu, hnew⟩, hsome⟩ := Option.ite_none_right_eq_some.mp h
  have hcpu : cpuBound = true := hcpu
  subst hcpu
  refine ⟨oid, topics, hreg, fun queue hmem => ?_, (Option.some.inj hsome).symm⟩
  exact of_decide_eq_true (List.all_eq_true.mp hnew queue hmem)

theorem deregister_cases (st : Tasks F) (oid : String) :
    (st.operators.get oid = none ∧ st.deregister oid = st) ∨
    ∃ r, st.operators.get oid = some r ∧
      ((∃ q, st.workerQueues.get oid = some q ∧ st.unfinished q ≠ 0 ∧ st.deregister oid = { st with
          operators       := st.operators.pop oid
          workerQueues    := st.workerQueues.pop oid
          deregistrations := st.deregistrations ++ [⟨oid, r, some q⟩] }) ∨
        ((∀ q, st.workerQueues.get oid = some q → st.unfinished q = 0) ∧ st.deregister oid = { st with
          operators       := st.operators.pop oid
          workerQueues    := st.workerQueues.pop oid
          outputRoutes    := st.outputRoutes.pop oid
          deregistrations := st.deregistrations ++ [⟨oid, r, none⟩] })) := by
  unfold deregister
  cases hop : st.operators.get oid with
  | none => exact Or.inl ⟨rfl, rfl⟩
  | some r =>
      refine Or.inr ⟨r, rfl, ?_⟩
      cases hq : st.workerQueues.get oid with
      | none => exact Or.inr ⟨nofun, rfl⟩
      | some q =>
          dsimp only
          -- by whether the queue has anything unfinished, which `join` would wait for
          by_cases hzero : st.unfinished q = 0
          · have hfilter : (some q).filter (fun q => decide (st.unfinished q ≠ 0)) = none := by simp [hzero]
            refine Or.inr ⟨?_, ?_⟩
            · rintro _ ⟨⟩
              exact hzero
            · rw [hfilter]
              rfl
          · have hfilter : (some q).filter (fun q => decide (st.unfinished q ≠ 0)) = some q := by simp [hzero]
            refine Or.inl ⟨q, rfl, hzero, ?_⟩
            rw [hfilter]
            rfl

theorem joined_eq_some (h : st.joined d = some st') :
    ∃ oid r q, st.deregistrations[d]? = some ⟨oid, r, some q⟩ ∧ st.unfinished q = 0 ∧ st' = { st with
      outputRoutes    := st.outputRoutes.pop oid
      deregistrations := st.deregistrations.set d ⟨oid, r, none⟩ } := by
  obtain ⟨⟨oid, r, waiting⟩, hd, h⟩ := Option.bind_eq_some_iff.mp h
  obtain ⟨q, hq, h⟩ := Option.bind_eq_some_iff.mp h
  obtain rfl : waiting = some q := hq
  obtain ⟨hzero, hsome⟩ := Option.ite_none_right_eq_some.mp h
  exact ⟨oid, r, q, hd, hzero, (Option.some.inj hsome).symm⟩

theorem dispatch_cases (st : Tasks F) (oid : String) :
    (st.operators.get oid = none ∧ st.dispatch oid = st) ∨
    ∃ r, st.operators.get oid = some r ∧
      ((∃ q queue, st.cpuBoundOf r = true ∧ st.workerQueues.get oid = some q ∧ st.queues[q]? = some queue ∧
          st.dispatch oid = { st with
            calls  := st.calls ++ [⟨oid, r, [], .queued⟩]
            queues := st.queues.set q { queue with
              items := queue.items ++ [st.calls.length], unfinished := queue.unfinished + 1 } }) ∨
        (st.cpuBoundOf r = true ∧ (∀ q, st.workerQueues.get oid = some q → st.queues[q]? = none) ∧
          st.dispatch oid = { st with calls := st.calls ++ [⟨oid, r, [], .dropped⟩] }) ∨
        (st.cpuBoundOf r = false ∧
          st.dispatch oid = { st with calls := st.calls ++ [⟨oid, r, [], .processing oid⟩] })) := by
  unfold dispatch
  cases hop : st.operators.get oid with
  | none => exact Or.inl ⟨rfl, rfl⟩
  | some r =>
      refine Or.inr ⟨r, rfl, ?_⟩
      dsimp only
      cases hcpu : st.cpuBoundOf r with
      | false => exact Or.inr (Or.inr ⟨rfl, rfl⟩)
      | true =>
          cases hq : st.workerQueues.get oid with
          | none => exact Or.inr (Or.inl ⟨rfl, nofun, rfl⟩)
          | some q =>
              cases hqueue : st.queues[q]? with
              | none =>
                  refine Or.inr (Or.inl ⟨rfl, ?_, ?_⟩)
                  · rintro _ ⟨⟩
                    exact hqueue
                  · simp [hqueue]
              | some queue =>
                  refine Or.inl ⟨q, queue, rfl, rfl, hqueue, ?_⟩
                  simp [hqueue]

/-- A deregistration writes neither queues nor calls. -/
theorem deregister_frame (st : Tasks F) (oid : String) :
    (st.deregister oid).registrations = st.registrations ∧ (st.deregister oid).queues = st.queues ∧
      (st.deregister oid).workers = st.workers ∧ (st.deregister oid).calls = st.calls ∧
      (st.deregister oid).handed = st.handed := by
  rcases deregister_cases st oid with ⟨-, heq⟩ | ⟨r, -, ⟨q, -, -, heq⟩ | ⟨-, heq⟩⟩
  all_goals
    rw [heq]
    exact ⟨rfl, rfl, rfl, rfl, rfl⟩

@[simp] theorem registrations_deregister (st : Tasks F) (oid : String) :
    (st.deregister oid).registrations = st.registrations := (deregister_frame st oid).1

@[simp] theorem queues_deregister (st : Tasks F) (oid : String) : (st.deregister oid).queues = st.queues :=
  (deregister_frame st oid).2.1

@[simp] theorem workers_deregister (st : Tasks F) (oid : String) : (st.deregister oid).workers = st.workers :=
  (deregister_frame st oid).2.2.1

@[simp] theorem calls_deregister (st : Tasks F) (oid : String) : (st.deregister oid).calls = st.calls :=
  (deregister_frame st oid).2.2.2.1

@[simp] theorem handed_deregister (st : Tasks F) (oid : String) : (st.deregister oid).handed = st.handed :=
  (deregister_frame st oid).2.2.2.2

/-- A dispatch writes calls and queues only. -/
theorem dispatch_frame (st : Tasks F) (oid : String) :
    (st.dispatch oid).workers = st.workers ∧ (st.dispatch oid).deregistrations = st.deregistrations := by
  rcases dispatch_cases st oid with ⟨-, heq⟩ | ⟨r, -, ⟨q, queue, -, -, -, heq⟩ | ⟨-, -, heq⟩ | ⟨-, heq⟩⟩
  all_goals
    rw [heq]
    exact ⟨rfl, rfl⟩

@[simp] theorem workers_dispatch (st : Tasks F) (oid : String) : (st.dispatch oid).workers = st.workers :=
  (dispatch_frame st oid).1

@[simp] theorem deregistrations_dispatch (st : Tasks F) (oid : String) :
    (st.dispatch oid).deregistrations = st.deregistrations := (dispatch_frame st oid).2

/-- A dispatch makes a call of what is registered, or does nothing. -/
theorem calls_dispatch (st : Tasks F) (oid : String) :
    (st.dispatch oid).calls = st.calls ∨
      ∃ call, st.operators.get oid = some call.registration ∧ (st.dispatch oid).calls = st.calls ++ [call] := by
  rcases dispatch_cases st oid with ⟨-, heq⟩ | ⟨r, hr, ⟨q, queue, -, -, -, heq⟩ | ⟨-, -, heq⟩ | ⟨-, heq⟩⟩
  · rw [heq]
    exact Or.inl rfl
  all_goals
    rw [heq]
    exact Or.inr ⟨_, hr, rfl⟩

theorem processed_eq_some {result : Except PyError (List (Record F))} (h : st.processed c result = some st') :
    ∃ oid r outputs emitAs, st.calls[c]? = some ⟨oid, r, outputs, .processing emitAs⟩ ∧ st' = { st with
      calls := st.calls.set c ⟨oid, r, emitted result,
        .emit (Engine.payloads (st.outputRoutes.getD emitAs []) (emitted result))⟩ } := by
  obtain ⟨⟨oid, r, outputs, phase⟩, hc, h⟩ := Option.bind_eq_some_iff.mp h
  cases phase with
  | processing emitAs => exact ⟨oid, r, outputs, emitAs, hc, (Option.some.inj h).symm⟩
  | queued | dropped | emitting | ended => cases h

theorem send_eq_some {accepted : Bool} (h : st.send c accepted = some st') :
    ∃ oid r outputs payload pending, st.calls[c]? = some ⟨oid, r, outputs, .emitting (payload :: pending)⟩ ∧
      ((accepted = true ∧ st' = { st with
          calls := st.calls.set c ⟨oid, r, outputs, .emit pending⟩
          sends := st.sends ++ [(c, payload)] }) ∨
        (accepted = false ∧ st' = { st with calls := st.calls.set c ⟨oid, r, outputs, .ended⟩ })) := by
  obtain ⟨⟨oid, r, outputs, phase⟩, hc, h⟩ := Option.bind_eq_some_iff.mp h
  cases phase with
  | emitting pending =>
      cases pending with
      | nil => cases h
      | cons payload pending =>
          refine ⟨oid, r, outputs, payload, pending, hc, ?_⟩
          cases accepted with
          | true => exact Or.inl ⟨rfl, (Option.some.inj h).symm⟩
          | false => exact Or.inr ⟨rfl, (Option.some.inj h).symm⟩
  | queued | dropped | processing | ended => cases h

theorem startWorker_eq_some (h : st.startWorker w = some st') :
    ∃ oid, st.workers[w]? = some ⟨oid, .created⟩ ∧
      ((∃ q, st.workerQueues.get oid = some q ∧ st' = { st with workers := st.workers.set w ⟨oid, .polling q⟩ }) ∨
        (st.workerQueues.get oid = none ∧ st' = { st with workers := st.workers.set w ⟨oid, .dead⟩ })) := by
  obtain ⟨⟨oid, phase⟩, hw, h⟩ := Option.bind_eq_some_iff.mp h
  cases phase with
  | created =>
      refine ⟨oid, hw, ?_⟩
      dsimp only at h
      cases hq : st.workerQueues.get oid with
      | none =>
          rw [hq] at h
          exact Or.inr ⟨rfl, (Option.some.inj h).symm⟩
      | some q =>
          rw [hq] at h
          exact Or.inl ⟨q, rfl, (Option.some.inj h).symm⟩
  | polling | busy | dead => cases h

theorem takeItem_eq_some (h : st.takeItem w = some st') :
    ∃ oid q queue c items call, st.workers[w]? = some ⟨oid, .polling q⟩ ∧ st.queues[q]? = some queue ∧
      queue.items = c :: items ∧ st.calls[c]? = some call ∧ st' = { st with
        queues  := st.queues.set q { queue with items := items }
        workers := st.workers.set w ⟨oid, .busy q c⟩
        calls   := st.calls.set c { call with phase := .processing oid }
        handed  := st.handed ++ [c] } := by
  obtain ⟨⟨oid, phase⟩, hw, h⟩ := Option.bind_eq_some_iff.mp h
  cases phase with
  | polling q =>
      obtain ⟨queue, hq, h⟩ := Option.bind_eq_some_iff.mp h
      dsimp only at h
      cases hitems : queue.items with
      | nil =>
          rw [hitems] at h
          cases h
      | cons c items =>
          rw [hitems] at h
          obtain ⟨call, hc, h⟩ := Option.bind_eq_some_iff.mp h
          exact ⟨oid, q, queue, c, items, call, hw, hq, hitems, hc, (Option.some.inj h).symm⟩
  | created | busy | dead => cases h

theorem taskDone_eq_some (h : st.taskDone w = some st') :
    ∃ oid q c queue oid' r outputs, st.workers[w]? = some ⟨oid, .busy q c⟩ ∧ st.queues[q]? = some queue ∧
      st.calls[c]? = some ⟨oid', r, outputs, .ended⟩ ∧ st' = { st with
        queues  := st.queues.set q { queue with unfinished := queue.unfinished - 1 }
        workers := st.workers.set w ⟨oid, .polling q⟩ } := by
  obtain ⟨⟨oid, phase⟩, hw, h⟩ := Option.bind_eq_some_iff.mp h
  cases phase with
  | busy q c =>
      obtain ⟨⟨oid', r, outputs, phase⟩, hc, h⟩ := Option.bind_eq_some_iff.mp h
      obtain ⟨queue, hq, h⟩ := Option.bind_eq_some_iff.mp h
      cases phase with
      | ended => exact ⟨oid, q, c, queue, oid', r, outputs, hw, hq, hc, (Option.some.inj h).symm⟩
      | queued | dropped | processing | emitting => cases h
  | created | polling | dead => cases h

end Steps

/-! ## Who owns what

Queues and workers are made for one id, and a call has the id it was dispatched under: a worker only takes calls of
its own id. -/

/-- The queue a worker takes its items from. -/
def WorkerPhase.queue : WorkerPhase → Option Nat
  | .polling q => some q
  | .busy q _  => some q
  | _          => none

/-- The tables refer to each other by the right ids, and a queued call is in one queue, once. -/
structure Owned (st : Tasks F) : Prop where
  operator : ∀ oid r, st.operators.get oid = some r → ∃ reg, st.registrations[r]? = some reg ∧ reg.operatorId = oid
  table    : ∀ oid q, st.workerQueues.get oid = some q →
    ∃ queue, st.queues[q]? = some queue ∧ queue.operatorId = oid
  worker   : ∀ (w q : Nat) worker, st.workers[w]? = some worker → worker.phase.queue = some q →
    ∃ queue, st.queues[q]? = some queue ∧ queue.operatorId = worker.operatorId
  item     : ∀ (q : Nat) queue c, st.queues[q]? = some queue → c ∈ queue.items →
    ∃ call, st.calls[c]? = some call ∧ call.operatorId = queue.operatorId ∧ call.phase = .queued
  nodup    : ∀ (q : Nat) queue, st.queues[q]? = some queue → queue.items.Nodup
  once     : ∀ (q q' : Nat) queue queue' c, st.queues[q]? = some queue → st.queues[q']? = some queue' →
    c ∈ queue.items → c ∈ queue'.items → q = q'
  call     : ∀ (c : Nat) call, st.calls[c]? = some call →
    ∃ reg, st.registrations[call.registration]? = some reg ∧ reg.operatorId = call.operatorId
  emitAs   : ∀ (c : Nat) call emitAs, st.calls[c]? = some call → call.phase = .processing emitAs →
    emitAs = call.operatorId
  pending  : ∀ (c : Nat) call, st.calls[c]? = some call → call.phase ≠ .emitting []

namespace Owned

variable {st st' : Tasks F} {oid : String} {r c w d q : Nat}

theorem started : Owned (started : Tasks F) := by
  constructor
  · rintro oid r ⟨⟩
  · rintro oid q ⟨⟩
  · rintro w q worker ⟨⟩
  · rintro q queue c ⟨⟩
  · rintro q queue ⟨⟩
  · rintro q q' queue queue' c ⟨⟩
  · rintro c call ⟨⟩
  · rintro c call emitAs ⟨⟩
  · rintro c call ⟨⟩

/-- A registration is entered under one id. -/
theorem operator_inj (h : Owned st) {oid' : String} (hr : st.operators.get oid = some r)
    (hr' : st.operators.get oid' = some r) : oid = oid' := by
  obtain ⟨reg, hreg, hid⟩ := h.operator oid r hr
  obtain ⟨reg', hreg', hid'⟩ := h.operator oid' r hr'
  rw [hreg] at hreg'
  cases hreg'
  exact hid.symm.trans hid'

/-- A queue is in the table under one id. -/
theorem table_inj (h : Owned st) {oid' : String} (hq : st.workerQueues.get oid = some q)
    (hq' : st.workerQueues.get oid' = some q) : oid = oid' := by
  obtain ⟨queue, hqueue, hid⟩ := h.table oid q hq
  obtain ⟨queue', hqueue', hid'⟩ := h.table oid' q hq'
  rw [hqueue] at hqueue'
  cases hqueue'
  exact hid.symm.trans hid'

/-- Routes, deregistrations and histories do not enter. -/
theorem withOthers (h : Owned st) (outputRoutes : Dict String (List String)) (deregistrations : List Deregistration)
    (handed : List Nat) (sends : List (Nat × String × Record F)) : Owned { st with
      outputRoutes := outputRoutes, deregistrations := deregistrations, handed := handed, sends := sends } :=
  ⟨h.operator, h.table, h.worker, h.item, h.nodup, h.once, h.call, h.emitAs, h.pending⟩

/-- A call that is in no queue is replaced. -/
theorem setCall (h : Owned st) {call call' : Call F} (hc : st.calls[c]? = some call)
    (hfree : ∀ (q : Nat) queue, st.queues[q]? = some queue → c ∉ queue.items)
    (hoid : call'.operatorId = call.operatorId) (hr : call'.registration = call.registration)
    (hemit : ∀ emitAs, call'.phase = .processing emitAs → emitAs = call'.operatorId)
    (hpending : call'.phase ≠ .emitting []) : Owned { st with calls := st.calls.set c call' } where
  operator := h.operator
  table := h.table
  worker := h.worker
  item q queue c' hq hmem := by
    obtain ⟨call₁, hc', hcall₁⟩ := h.item q queue c' hq hmem
    have hne : c' ≠ c := by
      rintro rfl
      exact hfree q queue hq hmem
    exact ⟨call₁, (getElem?_set_eq_some hc).mpr (Or.inr ⟨hne, hc'⟩), hcall₁⟩
  nodup := h.nodup
  once := h.once
  call c' call₁ hc' := by
    rcases (getElem?_set_eq_some hc).mp hc' with ⟨-, rfl⟩ | ⟨-, hc'⟩
    · rw [hoid, hr]
      exact h.call c call hc
    · exact h.call c' call₁ hc'
  emitAs c' call₁ emitAs hc' hphase := by
    rcases (getElem?_set_eq_some hc).mp hc' with ⟨-, rfl⟩ | ⟨-, hc'⟩
    · exact hemit emitAs hphase
    · exact h.emitAs c' call₁ emitAs hc' hphase
  pending c' call₁ hc' := by
    rcases (getElem?_set_eq_some hc).mp hc' with ⟨-, rfl⟩ | ⟨-, hc'⟩
    · exact hpending
    · exact h.pending c' call₁ hc'

theorem setWorker (h : Owned st) {worker worker' : Worker} (hw : st.workers[w]? = some worker)
    (hqueue : ∀ q, worker'.phase.queue = some q →
      ∃ queue, st.queues[q]? = some queue ∧ queue.operatorId = worker'.operatorId) :
    Owned { st with workers := st.workers.set w worker' } where
  operator := h.operator
  table := h.table
  worker w' q worker₁ hw' hq := by
    rcases (getElem?_set_eq_some hw).mp hw' with ⟨-, rfl⟩ | ⟨-, hw'⟩
    · exact hqueue q hq
    · exact h.worker w' q worker₁ hw' hq
  item := h.item
  nodup := h.nodup
  once := h.once
  call := h.call
  emitAs := h.emitAs
  pending := h.pending

/-- A queue gives up items, and each of those left is still the operator's. -/
theorem setQueue (h : Owned st) {queue queue' : WorkQueue} (hq : st.queues[q]? = some queue)
    (hoid : queue'.operatorId = queue.operatorId) (hitems : queue'.items.Sublist queue.items) :
    Owned { st with queues := st.queues.set q queue' } := by
  have hentry : ∀ {q' : Nat} {queue₁}, (st.queues.set q queue')[q']? = some queue₁ →
      ∃ queue₀, st.queues[q']? = some queue₀ ∧ queue₁.operatorId = queue₀.operatorId ∧
        queue₁.items.Sublist queue₀.items := by
    intro q' queue₁ hq'
    rcases (getElem?_set_eq_some hq).mp hq' with ⟨rfl, rfl⟩ | ⟨-, hq'⟩
    · exact ⟨queue, hq, hoid, hitems⟩
    · exact ⟨queue₁, hq', rfl, .refl _⟩
  constructor
  · exact h.operator
  · exact fun oid q' hq' => exists_getElem?_set hq hoid.trans (h.table oid q' hq')
  · exact fun w q' worker hw hq' => exists_getElem?_set hq hoid.trans (h.worker w q' worker hw hq')
  · intro q' queue₁ c hq' hmem
    obtain ⟨queue₀, hqueue₀, hid, hsub⟩ := hentry hq'
    rw [hid]
    exact h.item q' queue₀ c hqueue₀ (hsub.subset hmem)
  · intro q' queue₁ hq'
    obtain ⟨queue₀, hqueue₀, -, hsub⟩ := hentry hq'
    exact (h.nodup q' queue₀ hqueue₀).sublist hsub
  · intro q₁ q₂ queue₁ queue₂ c hq₁ hq₂ hmem₁ hmem₂
    obtain ⟨queue₁', hqueue₁, -, hsub₁⟩ := hentry hq₁
    obtain ⟨queue₂', hqueue₂, -, hsub₂⟩ := hentry hq₂
    exact h.once q₁ q₂ queue₁' queue₂' c hqueue₁ hqueue₂ (hsub₁.subset hmem₁) (hsub₂.subset hmem₂)
  · exact h.call
  · exact h.emitAs
  · exact h.pending

/-- A call that is not queued is in no queue. -/
theorem free_of_phase (h : Owned st) {call : Call F} (hc : st.calls[c]? = some call) (hphase : call.phase ≠ .queued) :
    ∀ (q : Nat) queue, st.queues[q]? = some queue → c ∉ queue.items := by
  intro q queue hq hmem
  obtain ⟨call', hc', -, hqueued⟩ := h.item q queue c hq hmem
  rw [hc] at hc'
  cases hc'
  exact hphase hqueued

theorem register (h : Owned st) (oid : String) (cpuBound : Bool) (outputTopics : List String) :
    Owned (st.register oid cpuBound outputTopics) := by
  refine ⟨?_, h.table, h.worker, h.item, h.nodup, h.once,
    fun c call hc => exists_getElem?_concat (h.call c call hc) _, h.emitAs, h.pending⟩
  intro oid' r hr
  have hr : (st.operators.set oid st.registrations.length).get oid' = some r := hr
  rw [Dict.get_set] at hr
  split at hr
  · rename_i heq
    cases hr
    exact ⟨_, getElem?_concat_self _ _, heq.symm⟩
  · exact exists_getElem?_concat (h.operator oid' r hr) _

theorem makeQueue (h : Owned st) (hstep : st.makeQueue r = some st') : Owned st' := by
  obtain ⟨oid, topics, -, -, rfl⟩ := makeQueue_eq_some hstep
  -- the new queue has no items
  have hentry : ∀ {q : Nat} {queue c}, (st.queues ++ [⟨oid, r, [], 0⟩])[q]? = some queue → c ∈ queue.items →
      st.queues[q]? = some queue := by
    intro q queue c hq hmem
    rcases getElem?_concat_eq_some.mp hq with hq | ⟨-, rfl⟩
    · exact hq
    · cases hmem
  refine ⟨h.operator, ?_, ?_, fun q queue c hq hmem => h.item q queue c (hentry hq hmem) hmem, ?_, ?_,
    h.call, h.emitAs, h.pending⟩
  · intro oid' q hq
    have hq : (st.workerQueues.set oid st.queues.length).get oid' = some q := hq
    rw [Dict.get_set] at hq
    split at hq
    · rename_i heq
      cases hq
      exact ⟨_, getElem?_concat_self _ _, heq.symm⟩
    · exact exists_getElem?_concat (h.table oid' q hq) _
  · intro w q worker hw hq
    rcases getElem?_concat_eq_some.mp hw with hw | ⟨-, rfl⟩
    · exact exists_getElem?_concat (h.worker w q worker hw hq) _
    · cases hq
  · intro q queue hq
    rcases getElem?_concat_eq_some.mp hq with hq | ⟨-, rfl⟩
    · exact h.nodup q queue hq
    · exact List.nodup_nil
  · intro q q' queue queue' c hq hq' hmem hmem'
    exact h.once q q' queue queue' c (hentry hq hmem) (hentry hq' hmem') hmem hmem'

/-- A new call that is in no queue. -/
theorem addCall (h : Owned st) {call : Call F}
    (hreg : ∃ reg, st.registrations[call.registration]? = some reg ∧ reg.operatorId = call.operatorId)
    (hemit : ∀ emitAs, call.phase = .processing emitAs → emitAs = call.operatorId)
    (hpending : call.phase ≠ .emitting []) : Owned { st with calls := st.calls ++ [call] } := by
  refine ⟨h.operator, h.table, h.worker, ?_, h.nodup, h.once, ?_, ?_, ?_⟩
  · intro q queue c hq hmem
    obtain ⟨call', hc, hcall'⟩ := h.item q queue c hq hmem
    exact ⟨call', getElem?_concat_of_some hc _, hcall'⟩
  · intro c call' hc
    rcases getElem?_concat_eq_some.mp hc with hc | ⟨-, rfl⟩
    · exact h.call c call' hc
    · exact hreg
  · intro c call' emitAs hc hphase
    rcases getElem?_concat_eq_some.mp hc with hc | ⟨-, rfl⟩
    · exact h.emitAs c call' emitAs hc hphase
    · exact hemit emitAs hphase
  · intro c call' hc
    rcases getElem?_concat_eq_some.mp hc with hc | ⟨-, rfl⟩
    · exact h.pending c call' hc
    · exact hpending

/-- The call just added is put into a queue of its id. -/
theorem putCall (h : Owned st) {queue queue' : WorkQueue} (hq : st.queues[q]? = some queue)
    (hoid : queue'.operatorId = queue.operatorId) (hitems : queue'.items = queue.items ++ [c]) {call : Call F}
    (hc : st.calls[c]? = some call) (hcall : call.operatorId = queue.operatorId ∧ call.phase = .queued)
    (hfree : ∀ (q : Nat) queue, st.queues[q]? = some queue → c ∉ queue.items) :
    Owned { st with queues := st.queues.set q queue' } := by
  -- an item of a queue is the new one or was there before
  have hentry : ∀ {q' : Nat} {queue₁ c'}, (st.queues.set q queue')[q']? = some queue₁ → c' ∈ queue₁.items →
      (q' = q ∧ queue₁ = queue' ∧ c' = c) ∨
        ∃ queue₀, st.queues[q']? = some queue₀ ∧ queue₁.operatorId = queue₀.operatorId ∧ c' ∈ queue₀.items := by
    intro q' queue₁ c' hq' hmem
    rcases (getElem?_set_eq_some hq).mp hq' with ⟨rfl, rfl⟩ | ⟨-, hq'⟩
    · rw [hitems] at hmem
      rcases List.mem_append.mp hmem with hmem | hmem
      · exact Or.inr ⟨queue, hq, hoid, hmem⟩
      · exact Or.inl ⟨rfl, rfl, List.mem_singleton.mp hmem⟩
    · exact Or.inr ⟨queue₁, hq', rfl, hmem⟩
  constructor
  · exact h.operator
  · exact fun oid q' hq' => exists_getElem?_set hq hoid.trans (h.table oid q' hq')
  · exact fun w q' worker hw hq' => exists_getElem?_set hq hoid.trans (h.worker w q' worker hw hq')
  · intro q' queue₁ c' hq' hmem
    rcases hentry hq' hmem with ⟨-, rfl, rfl⟩ | ⟨queue₀, hqueue₀, hid, hmem⟩
    · rw [hoid]
      exact ⟨call, hc, hcall⟩
    · rw [hid]
      exact h.item q' queue₀ c' hqueue₀ hmem
  · intro q' queue₁ hq'
    rcases (getElem?_set_eq_some hq).mp hq' with ⟨rfl, rfl⟩ | ⟨-, hq'⟩
    · rw [hitems]
      exact List.nodup_append'.mpr ⟨h.nodup _ queue hq, List.nodup_singleton c,
        List.disjoint_singleton.mpr (hfree _ queue hq)⟩
    · exact h.nodup q' queue₁ hq'
  · intro q₁ q₂ queue₁ queue₂ c' hq₁ hq₂ hmem₁ hmem₂
    rcases hentry hq₁ hmem₁ with ⟨rfl, -, rfl⟩ | ⟨queue₁', hqueue₁, -, hmem₁⟩
    · rcases hentry hq₂ hmem₂ with ⟨rfl, -, -⟩ | ⟨queue₂', hqueue₂, -, hmem₂⟩
      · rfl
      · exact absurd hmem₂ (hfree q₂ queue₂' hqueue₂)
    · rcases hentry hq₂ hmem₂ with ⟨-, -, rfl⟩ | ⟨queue₂', hqueue₂, -, hmem₂⟩
      · exact absurd hmem₁ (hfree q₁ queue₁' hqueue₁)
      · exact h.once q₁ q₂ queue₁' queue₂' c' hqueue₁ hqueue₂ hmem₁ hmem₂
  · exact h.call
  · exact h.emitAs
  · exact h.pending

theorem dispatch (h : Owned st) (oid : String) : Owned (st.dispatch oid) := by
  rcases dispatch_cases st oid with ⟨-, heq⟩ | ⟨r, hr, ⟨q, queue, -, htable, hq, heq⟩ | ⟨-, -, heq⟩ | ⟨-, heq⟩⟩
  · rw [heq]
    exact h
  · rw [heq]
    have hadd : Owned { st with calls := st.calls ++ [⟨oid, r, [], .queued⟩] } :=
      h.addCall (h.operator oid r hr) nofun nofun
    obtain ⟨queue₁, hq₁, hid⟩ := h.table oid q htable
    rw [hq] at hq₁
    cases hq₁
    refine hadd.putCall hq rfl rfl (getElem?_concat_self _ _) ⟨hid.symm, rfl⟩ ?_
    intro q' queue' hq' hmem
    obtain ⟨call, hc, -⟩ := h.item q' queue' _ hq' hmem
    exact absurd (lt_length_of_getElem? hc) (Nat.lt_irrefl _)
  · rw [heq]
    exact h.addCall (h.operator oid r hr) nofun nofun
  · rw [heq]
    refine h.addCall (h.operator oid r hr) ?_ nofun
    rintro emitAs ⟨⟩
    rfl

theorem processed (h : Owned st) {result : Except PyError (List (Record F))}
    (hstep : st.processed c result = some st') : Owned st' := by
  obtain ⟨oid, r, outputs, emitAs, hc, rfl⟩ := processed_eq_some hstep
  exact h.setCall hc (h.free_of_phase hc nofun) rfl rfl
    (fun _ hphase => absurd hphase (Phase.emit_ne_processing _ _)) (Phase.emit_ne_emitting_nil _)

theorem send (h : Owned st) {accepted : Bool} (hstep : st.send c accepted = some st') : Owned st' := by
  obtain ⟨oid, r, outputs, payload, pending, hc, ⟨-, rfl⟩ | ⟨-, rfl⟩⟩ := send_eq_some hstep
  · have hcall : Owned { st with calls := st.calls.set c ⟨oid, r, outputs, .emit pending⟩ } :=
      h.setCall hc (h.free_of_phase hc nofun) rfl rfl
        (fun _ hphase => absurd hphase (Phase.emit_ne_processing _ _)) (Phase.emit_ne_emitting_nil _)
    exact hcall.withOthers _ _ _ _
  · exact h.setCall hc (h.free_of_phase hc nofun) rfl rfl nofun nofun

theorem startWorker (h : Owned st) (hstep : st.startWorker w = some st') : Owned st' := by
  obtain ⟨oid, hw, ⟨q, hq, rfl⟩ | ⟨-, rfl⟩⟩ := startWorker_eq_some hstep
  · refine h.setWorker hw ?_
    rintro _ ⟨⟩
    exact h.table oid q hq
  · exact h.setWorker hw nofun

theorem takeItem (h : Owned st) (hstep : st.takeItem w = some st') : Owned st' := by
  obtain ⟨oid, q, queue, c, items, call, hw, hq, hitems, hc, rfl⟩ := takeItem_eq_some hstep
  have hmem : c ∈ queue.items := by rw [hitems]; exact List.mem_cons_self
  obtain ⟨queue₁, hq₁, hid⟩ := h.worker w q ⟨oid, .polling q⟩ hw rfl
  rw [hq] at hq₁
  cases hq₁
  obtain ⟨call₁, hc₁, hcall, -⟩ := h.item q queue c hq hmem
  rw [hc] at hc₁
  cases hc₁
  have hqueue : Owned { st with queues := st.queues.set q { queue with items := items } } :=
    h.setQueue hq rfl (by rw [hitems]; exact List.sublist_cons_self _ _)
  -- the item taken was in this queue only, and once
  have hfree : ∀ (q' : Nat) queue', (st.queues.set q { queue with items := items })[q']? = some queue' →
      c ∉ queue'.items := by
    intro q' queue' hq' hin
    rcases (getElem?_set_eq_some hq).mp hq' with ⟨-, rfl⟩ | ⟨hne, hq'⟩
    · have hnodup := h.nodup q queue hq
      rw [hitems] at hnodup
      exact (List.nodup_cons.mp hnodup).1 hin
    · exact hne (h.once q' q queue' queue c hq' hq hin hmem)
  have hbusy : Owned { st with
      queues  := st.queues.set q { queue with items := items }
      workers := st.workers.set w ⟨oid, .busy q c⟩ } := by
    refine hqueue.setWorker hw ?_
    rintro _ ⟨⟩
    exact hqueue.worker w q ⟨oid, .polling q⟩ hw rfl
  have hwork : Owned { st with
      queues  := st.queues.set q { queue with items := items }
      workers := st.workers.set w ⟨oid, .busy q c⟩
      calls   := st.calls.set c { call with phase := .processing oid } } := by
    refine hbusy.setCall hc hfree rfl rfl ?_ nofun
    rintro emitAs ⟨⟩
    exact hid.symm.trans hcall.symm
  exact hwork.withOthers _ _ _ _

theorem taskDone (h : Owned st) (hstep : st.taskDone w = some st') : Owned st' := by
  obtain ⟨oid, q, c, queue, oid', r, outputs, hw, hq, -, rfl⟩ := taskDone_eq_some hstep
  have hqueue : Owned { st with queues := st.queues.set q { queue with unfinished := queue.unfinished - 1 } } :=
    h.setQueue hq rfl (.refl _)
  refine hqueue.setWorker hw ?_
  rintro _ ⟨⟩
  exact hqueue.worker w q ⟨oid, .busy q c⟩ hw rfl

theorem withoutOperator (h : Owned st) (oid : String) (routes : Dict String (List String))
    (deregistrations : List Deregistration) : Owned { st with
      operators       := st.operators.pop oid
      workerQueues    := st.workerQueues.pop oid
      outputRoutes    := routes
      deregistrations := deregistrations } := by
  refine ⟨fun oid' r hr => ?_, fun oid' q hq => ?_, h.worker, h.item, h.nodup, h.once, h.call, h.emitAs,
    h.pending⟩
  · exact h.operator oid' r (Dict.get_of_get_pop hr).2
  · exact h.table oid' q (Dict.get_of_get_pop hq).2

theorem deregister (h : Owned st) (oid : String) : Owned (st.deregister oid) := by
  rcases deregister_cases st oid with ⟨-, heq⟩ | ⟨r, -, ⟨q, -, -, heq⟩ | ⟨-, heq⟩⟩
  · rw [heq]
    exact h
  · rw [heq]
    exact h.withoutOperator oid _ _
  · rw [heq]
    exact h.withoutOperator oid _ _

theorem joined (h : Owned st) (hstep : st.joined d = some st') : Owned st' := by
  obtain ⟨oid, r, q, -, -, rfl⟩ := joined_eq_some hstep
  exact h.withOthers _ _ _ _

theorem step (h : Owned st) {event : Event F} (hstep : st.step event = some st') : Owned st' := by
  cases event with
  | register oid cpuBound outputTopics =>
      cases hstep
      exact h.register oid cpuBound outputTopics
  | makeQueue r => exact h.makeQueue hstep
  | dispatch oid =>
      cases hstep
      exact h.dispatch oid
  | processed c result => exact h.processed hstep
  | send c accepted => exact h.send hstep
  | startWorker w => exact h.startWorker hstep
  | takeItem w => exact h.takeItem hstep
  | taskDone w => exact h.taskDone hstep
  | deregister oid =>
      cases hstep
      exact h.deregister oid
  | joined d => exact h.joined hstep

end Owned

/-- **Whatever the order of the steps, the tables refer to each other by the right ids.** -/
theorem owned_of_reachable {st : Tasks F} (h : system.Reachable st) : Owned st := by
  refine h.invariant ?_ (fun st event st' hst hstep => hst.step hstep)
  rintro st rfl
  exact Owned.started

end Tasks

end Hea
end HybridStream
