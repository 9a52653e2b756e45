import HybridStream.Hea.Tasks

/-!
# `Hea.Shutdown` — an engine that is stopped

`OperatorEngine.stop`: `_running` is cleared, the tasks in `_consumer_tasks` are cancelled and the process pool is shut
down without waiting for it. What is under way goes on as in `Hea.Tasks`, with these differences from then on:

* a cancelled consume loop dispatches nothing, and the call it awaits ends where it stands;
* the pool takes no work any more: `run_in_executor` raises on the item a worker takes next, which is logged and counted
  as done. What the pool is working on it finishes;
* the loop of a worker ends once it finds its queue empty, and a consume loop that starts now ends at once.

`_consumer_tasks` has one entry for a topic. Two calls of `register_operator` that overlap on a new topic both find
no consumer there, and each starts one; the second task takes the entry of the first, whose loop `stop` does not reach.
It goes on with the batch it is at: it dispatches, its calls run, and what they return is sent.
-/

namespace HybridStream
namespace Hea

open Lib Py

variable {F : Type}

namespace Tasks

/-- The worker is at the call. -/
def WorkerPhase.holds (c : Nat) : WorkerPhase → Bool
  | .busy _ c' => c' = c
  | _          => false

/-- Some worker is at the call. -/
def inHand (st : Tasks F) (c : Nat) : Bool := st.workers.any (fun worker => worker.phase.holds c)

/-- `q.get()`, with a pool that is shut down. -/
def discard (st : Tasks F) (w : Nat) : Option (Tasks F) := do
  let worker ← st.workers[w]?
  match worker.phase with
  | .polling q =>
      let queue ← st.queues[q]?
      match queue.items with
      | c :: items => do
          let call ← st.calls[c]?
          some { st with
            queues := st.queues.set q { queue with items := items, unfinished := queue.unfinished - 1 }
            calls  := st.calls.set c { call with phase := .ended } }
      | [] => none
  | _ => none

/-- `CancelledError` reaches the call that a cancelled consume loop awaits. -/
def cancel (st : Tasks F) (c : Nat) : Option (Tasks F) := do
  let call ← st.calls[c]?
  match call.phase with
  | .processing _ | .emitting _ =>
      if st.inHand c then none else some { st with calls := st.calls.set c { call with phase := .ended } }
  | _ => none

/-- The worker finds its queue empty. -/
def idle (st : Tasks F) (w : Nat) : Bool :=
  match st.workers[w]? with
  | some ⟨_, .polling q⟩ => ((st.queues[q]?).map (fun queue => queue.items.isEmpty)).getD false
  | _                    => false

end Tasks

/-- An engine with its consume loops, numbered in the order in which they start, the loop that each call was made by
    and, once it is stopped, what it was then, the loops that were cancelled, and the workers whose loop has ended
    since. -/
structure Shutdown (F : Type) where
  tasks         : Tasks F
  loops         : Nat
  consumerTasks : Dict String Nat
  callers       : Nat → Nat
  stopped       : Option (Tasks F)
  cancelled     : List Nat
  exited        : List Nat

inductive ShutdownEvent (F : Type) where
  | engine (event : Tasks.Event F)
  /-- `_start_consumer` has got its consumer, and creates the task of its loop. -/
  | startLoop (topic : String)
  | dispatch (loop : Nat) (operatorId : String)
  | stop
  | discard (w : Nat)
  | exit (w : Nat)
  | cancel (call : Nat)

namespace Shutdown

/-- An engine that has just started. -/
def started : Shutdown F := ⟨Tasks.started, 0, ∅, fun _ => 0, none, [], []⟩

/-- The call is still moved on: a worker is at it, or its consume loop is not cancelled. -/
def goesOn (st : Shutdown F) (c : Nat) : Bool := st.tasks.inHand c || st.callers c ∉ st.cancelled

/-- What happens by itself, on a stopped engine too. Dispatches are made by a consume loop. -/
def survives (st : Shutdown F) : Tasks.Event F → Bool
  | .dispatch _    => false
  | .takeItem _    => st.stopped.isNone
  | .processed c _ => st.goesOn c
  | .send c _      => st.goesOn c
  | _              => true

def step (st : Shutdown F) : ShutdownEvent F → Option (Shutdown F)
  | .engine event =>
      if st.survives event then (st.tasks.step event).map (fun tasks => { st with tasks := tasks }) else none
  | .startLoop topic =>
      if st.stopped.isNone then
        some { st with loops := st.loops + 1, consumerTasks := st.consumerTasks.set topic st.loops }
      else none
  | .dispatch l oid =>
      if l < st.loops ∧ l ∉ st.cancelled then
        some { st with
          tasks   := st.tasks.dispatch oid
          callers := Function.update st.callers st.tasks.calls.length l }
      else none
  | .stop =>
      if st.stopped.isNone then
        some { st with stopped := some st.tasks, cancelled := st.consumerTasks.values }
      else none
  | .discard w =>
      if st.stopped.isSome ∧ w ∉ st.exited then
        (st.tasks.discard w).map (fun tasks => { st with tasks := tasks })
      else none
  | .exit w =>
      if st.stopped.isSome ∧ w ∉ st.exited ∧ st.tasks.idle w then some { st with exited := w :: st.exited } else none
  | .cancel c =>
      if st.stopped.isSome ∧ st.callers c ∈ st.cancelled then
        (st.tasks.cancel c).map (fun tasks => { st with tasks := tasks })
      else none

def system : Lts (Shutdown F) (ShutdownEvent F) := Lts.ofStep (fun st => st = started) step

/-! ## What one step does

The steps that are new after a stop, read backwards. -/

section Steps

variable {st st' : Tasks F} {c w : Nat}

theorem discard_eq_some (h : st.discard w = some st') :
    ∃ oid q queue c items call, st.workers[w]? = some ⟨oid, .polling q⟩ ∧ st.queues[q]? = some queue ∧
      queue.items = c :: items ∧ st.calls[c]? = some call ∧ st' = { st with
        queues := st.queues.set q { queue with items := items, unfinished := queue.unfinished - 1 }
        calls  := st.calls.set c { call with phase := .ended } } := by
  obtain ⟨⟨oid, phase⟩, hw, h⟩ := Option.bind_eq_some_iff.mp h
  cases phase with
  | polling q =>
      obtain ⟨queue, hq, h⟩ := Option.bind_eq_some_iff.mp h
      cases hitems : queue.items with
      | nil =>
          rw [hitems] at h
          cases h
      | cons c items =>
          rw [hitems] at h
          obtain ⟨call, hc, h⟩ := Option.bind_eq_some_iff.mp h
          exact ⟨oid, q, queue, c, items, call, hw, hq, hitems, hc, (Option.some.inj h).symm⟩
  | created | busy | dead => cases h

theorem cancel_eq_some (h : st.cancel c = some st') :
    ∃ call, st.calls[c]? = some call ∧
      ((∃ emitAs, call.phase = .processing emitAs) ∨ ∃ pending, call.phase = .emitting pending) ∧
      st.inHand c = false ∧ st' = { st with calls := st.calls.set c { call with phase := .ended } } := by
  obtain ⟨⟨oid, r, outputs, phase⟩, hc, h⟩ := Option.bind_eq_some_iff.mp h
  cases phase with
  | processing emitAs =>
      obtain ⟨hhand, hsome⟩ := Option.ite_none_left_eq_some.mp h
      exact ⟨_, hc, Or.inl ⟨emitAs, rfl⟩, Bool.not_eq_true _ ▸ hhand, (Option.some.inj hsome).symm⟩
  | emitting pending =>
      obtain ⟨hhand, hsome⟩ := Option.ite_none_left_eq_some.mp h
      exact ⟨_, hc, Or.inr ⟨pending, rfl⟩, Bool.not_eq_true _ ▸ hhand, (Option.some.inj hsome).symm⟩
  | queued | dropped | ended => cases h

theorem idle_iff : st.idle w = true ↔
    ∃ oid q queue, st.workers[w]? = some ⟨oid, .polling q⟩ ∧ st.queues[q]? = some queue ∧ queue.items = [] := by
  unfold Tasks.idle
  cases hw : st.workers[w]? with
  | none => simp
  | some worker =>
      obtain ⟨oid, phase⟩ := worker
      cases phase with
      | polling q =>
          cases hq : st.queues[q]? with
          | none => simp [hq]
          | some queue => simp [hq]
      | created | busy | dead => simp

theorem inHand_iff :
    st.inHand c = true ↔ ∃ (w : Nat) (oid : String) (q : Nat), st.workers[w]? = some ⟨oid, .busy q c⟩ := by
  unfold Tasks.inHand
  rw [List.any_eq_true]
  constructor
  · rintro ⟨⟨oid, phase⟩, hmem, hholds⟩
    obtain ⟨w, hw⟩ := List.getElem?_of_mem hmem
    cases phase with
    | busy q c' =>
        obtain rfl : c' = c := of_decide_eq_true hholds
        exact ⟨w, oid, q, hw⟩
    | created | polling | dead => cases hholds
  · rintro ⟨w, oid, q, hw⟩
    exact ⟨_, List.mem_of_getElem? hw, decide_eq_true rfl⟩

end Steps

end Shutdown

end Hea
end HybridStream
