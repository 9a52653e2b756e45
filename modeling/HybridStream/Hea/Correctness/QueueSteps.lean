import HybridStream.Hea.Correctness.CallProgress

/-!
# `Hea.Correctness.QueueSteps` — what a step does to a queue, a worker and a deregistration

Each table of `Tasks`, and each entry of one, is followed through a step: what it becomes, and under which
circumstances.

The lemmas are about one step and hold of all of them, so each is a case analysis over the kinds of steps. They say
everything that a later invariant asks of a step about the entry in question: that it is as it was, or in which of few
ways it has changed, and what held before. The invariants of the queues (`QueueOrder`, `QueueCount`, `QueueDrain`) are
derived from them without another look at the step function.
-/

namespace HybridStream
namespace Hea
namespace Tasks

open Lib Py

variable {F : Type} {st st' : Tasks F} {event : Event F} {oid : String} {r c w d q : Nat}

/-! ## Tables

What a step can do to the tables of registrations, once for all invariants that are about them. -/

/-- The tables are left alone, or one new number is entered, or an id is removed. -/
theorem tables_of_step (hstep : st.step event = some st') :
    (st'.registrations = st.registrations ∧ st'.operators = st.operators ∧ st'.workerQueues = st.workerQueues ∧
      st'.queues.length = st.queues.length ∧ st'.workers.length = st.workers.length) ∨
    (∃ reg, event = .register reg.operatorId reg.cpuBound reg.outputTopics ∧
      st'.registrations = st.registrations ++ [reg] ∧
      st'.operators = st.operators.set reg.operatorId st.registrations.length ∧ st'.workerQueues = st.workerQueues ∧
      st'.queues = st.queues ∧ st'.workers = st.workers) ∨
    (∃ r oid topics, event = .makeQueue r ∧ st.registrations[r]? = some ⟨oid, true, topics⟩ ∧
      st'.registrations = st.registrations ∧ st'.operators = st.operators ∧
      st'.workerQueues = st.workerQueues.set oid st.queues.length ∧ st'.queues = st.queues ++ [⟨oid, r, [], 0⟩] ∧
      st'.workers = st.workers ++ [⟨oid, .created⟩]) ∨
    ∃ oid r, event = .deregister oid ∧ st.operators.get oid = some r ∧ st'.registrations = st.registrations ∧
      st'.operators = st.operators.pop oid ∧ st'.workerQueues = st.workerQueues.pop oid ∧ st'.queues = st.queues ∧
      st'.workers = st.workers := by
  cases event with
  -- one constructor, one disjunct: what a step does not mention it leaves alone
  | register oid cpuBound outputTopics =>
      cases hstep
      exact Or.inr (Or.inl ⟨⟨oid, cpuBound, outputTopics⟩, rfl, rfl, rfl, rfl, rfl, rfl⟩)
  | makeQueue r =>
      obtain ⟨oid, topics, hr, -, rfl⟩ := makeQueue_eq_some hstep
      exact Or.inr (Or.inr (Or.inl ⟨r, oid, topics, rfl, hr, rfl, rfl, rfl, rfl, rfl⟩))
  | dispatch oid =>
      cases hstep
      rcases dispatch_cases st oid with ⟨-, heq⟩ | ⟨r, -, ⟨q, queue, -, -, -, heq⟩ | ⟨-, -, heq⟩ | ⟨-, heq⟩⟩
      · rw [heq]
        exact Or.inl ⟨rfl, rfl, rfl, rfl, rfl⟩
      · rw [heq]
        exact Or.inl ⟨rfl, rfl, rfl, List.length_set, rfl⟩
      all_goals
        rw [heq]
        exact Or.inl ⟨rfl, rfl, rfl, rfl, rfl⟩
  | processed c result =>
      obtain ⟨oid, r, outputs, emitAs, -, rfl⟩ := processed_eq_some hstep
      exact Or.inl ⟨rfl, rfl, rfl, rfl, rfl⟩
  | send c accepted =>
      obtain ⟨oid, r, outputs, payload, pending, -, ⟨-, rfl⟩ | ⟨-, rfl⟩⟩ := send_eq_some hstep
      all_goals exact Or.inl ⟨rfl, rfl, rfl, rfl, rfl⟩
  | startWorker w =>
      obtain ⟨oid, -, ⟨q, -, rfl⟩ | ⟨-, rfl⟩⟩ := startWorker_eq_some hstep
      all_goals exact Or.inl ⟨rfl, rfl, rfl, rfl, List.length_set⟩
  | takeItem w =>
      obtain ⟨oid, q, queue, c, items, call, -, -, -, -, rfl⟩ := takeItem_eq_some hstep
      exact Or.inl ⟨rfl, rfl, rfl, List.length_set, List.length_set⟩
  | taskDone w =>
      obtain ⟨oid, q, c, queue, oid', r, outputs, -, -, -, rfl⟩ := taskDone_eq_some hstep
      exact Or.inl ⟨rfl, rfl, rfl, List.length_set, List.length_set⟩
  | deregister oid =>
      cases hstep
      rcases deregister_cases st oid with ⟨-, heq⟩ | ⟨r, hr, ⟨q, -, -, heq⟩ | ⟨-, heq⟩⟩
      · rw [heq]
        exact Or.inl ⟨rfl, rfl, rfl, rfl, rfl⟩
      all_goals
        rw [heq]
        exact Or.inr (Or.inr (Or.inr ⟨oid, r, rfl, hr, rfl, rfl, rfl, rfl, rfl⟩))
  | joined d =>
      obtain ⟨oid, r, q, -, -, rfl⟩ := joined_eq_some hstep
      exact Or.inl ⟨rfl, rfl, rfl, rfl, rfl⟩

theorem registration_of_step {reg : Registration} (hr : st.registrations[r]? = some reg)
    (hstep : st.step event = some st') : st'.registrations[r]? = some reg := by
  rcases tables_of_step hstep with ⟨heq, -⟩ | ⟨reg', -, heq, -⟩ | ⟨r', oid, topics, -, -, heq, -⟩ |
    ⟨oid, r', -, -, heq, -⟩
  · rw [heq]
    exact hr
  · rw [heq]
    exact getElem?_concat_of_some hr _
  · rw [heq]
    exact hr
  · rw [heq]
    exact hr

theorem cpuBoundOf_of_some {reg : Registration} (hr : st.registrations[r]? = some reg) :
    st.cpuBoundOf r = reg.cpuBound := by
  unfold cpuBoundOf
  rw [hr]
  rfl

theorem operator_of_step (hstep : st.step event = some st') (hr : st'.operators.get oid = some r) :
    st.operators.get oid = some r ∨ r = st.registrations.length := by
  rcases tables_of_step hstep with ⟨-, heq, -⟩ | ⟨reg, -, -, heq, -⟩ | ⟨r', oid', topics, -, -, -, heq, -⟩ |
    ⟨oid', r', -, -, -, heq, -⟩
  · rw [heq] at hr
    exact Or.inl hr
  · rw [heq, Dict.get_set] at hr
    split at hr
    · exact Or.inr (Option.some.inj hr).symm
    · exact Or.inl hr
  · rw [heq] at hr
    exact Or.inl hr
  · rw [heq] at hr
    exact Or.inl (Dict.get_of_get_pop hr).2

theorem table_of_step (hstep : st.step event = some st') (hq : st'.workerQueues.get oid = some q) :
    st.workerQueues.get oid = some q ∨ q = st.queues.length := by
  rcases tables_of_step hstep with ⟨-, -, heq, -⟩ | ⟨reg, -, -, -, heq, -⟩ | ⟨r', oid', topics, -, -, -, -, heq, -⟩ |
    ⟨oid', r', -, -, -, -, heq, -⟩
  · rw [heq] at hq
    exact Or.inl hq
  · rw [heq] at hq
    exact Or.inl hq
  · rw [heq, Dict.get_set] at hq
    split at hq
    · exact Or.inr (Option.some.inj hq).symm
    · exact Or.inl hq
  · rw [heq] at hq
    exact Or.inl (Dict.get_of_get_pop hq).2

/-! ## Queues

A queue is only ever lengthened at its end by a dispatch and shortened at its front by a worker. -/

/-- A queue is left alone, or filled from the table, or a worker takes its first item, or is done with one. -/
theorem queue_of_step {queue : WorkQueue} (hq : st.queues[q]? = some queue) (hstep : st.step event = some st') :
    st'.queues[q]? = some queue ∨
    (∃ oid, st.workerQueues.get oid = some q ∧ st'.queues[q]? = some
      { queue with items := queue.items ++ [st.calls.length], unfinished := queue.unfinished + 1 }) ∨
    (∃ (w : Nat) (oid : String) (c : Nat) (items : List Nat), st.workers[w]? = some ⟨oid, .polling q⟩ ∧
      queue.items = c :: items ∧ st'.queues[q]? = some { queue with items := items } ∧ c ∈ st'.handed) ∨
    ∃ (w : Nat) (oid : String) (c : Nat), st.workers[w]? = some ⟨oid, .busy q c⟩ ∧
      st'.queues[q]? = some { queue with unfinished := queue.unfinished - 1 } := by
  cases event with
  | register oid cpuBound outputTopics =>
      cases hstep
      exact Or.inl hq
  | makeQueue r =>
      obtain ⟨oid, topics, -, -, rfl⟩ := makeQueue_eq_some hstep
      exact Or.inl (getElem?_concat_of_some hq _)
  -- a dispatch adds to the queue that the table has for the id, if it is this one
  | dispatch oid =>
      cases hstep
      rcases dispatch_cases st oid with ⟨-, heq⟩ | ⟨r, -, ⟨q', queue', -, htable, hq', heq⟩ | ⟨-, -, heq⟩ | ⟨-, heq⟩⟩
      · rw [heq]
        exact Or.inl hq
      · rw [heq]
        by_cases hne : q = q'
        · subst hne
          rw [hq] at hq'
          cases hq'
          exact Or.inr (Or.inl ⟨oid, htable, (getElem?_set_eq_some hq).mpr (Or.inl ⟨rfl, rfl⟩)⟩)
        · exact Or.inl ((getElem?_set_eq_some hq').mpr (Or.inr ⟨hne, hq⟩))
      · rw [heq]
        exact Or.inl hq
      · rw [heq]
        exact Or.inl hq
  | processed c result =>
      obtain ⟨oid, r, outputs, emitAs, -, rfl⟩ := processed_eq_some hstep
      exact Or.inl hq
  | send c accepted =>
      obtain ⟨oid, r, outputs, payload, pending, -, ⟨-, rfl⟩ | ⟨-, rfl⟩⟩ := send_eq_some hstep
      all_goals exact Or.inl hq
  | startWorker w =>
      obtain ⟨oid, -, ⟨q, -, rfl⟩ | ⟨-, rfl⟩⟩ := startWorker_eq_some hstep
      all_goals exact Or.inl hq
  -- the first item leaves the queue of the worker that takes it
  | takeItem w =>
      obtain ⟨oid, q', queue', c, items, call, hw, hq', hitems, -, rfl⟩ := takeItem_eq_some hstep
      by_cases hne : q = q'
      · subst hne
        rw [hq] at hq'
        cases hq'
        exact Or.inr (Or.inr (Or.inl ⟨w, oid, c, items, hw, hitems,
          (getElem?_set_eq_some hq).mpr (Or.inl ⟨rfl, rfl⟩), List.mem_append_right _ (List.mem_singleton_self c)⟩))
      · exact Or.inl ((getElem?_set_eq_some hq').mpr (Or.inr ⟨hne, hq⟩))
  -- `task_done` only counts down
  | taskDone w =>
      obtain ⟨oid, q', c, queue', oid', r, outputs, hw, hq', -, rfl⟩ := taskDone_eq_some hstep
      by_cases hne : q = q'
      · subst hne
        rw [hq] at hq'
        cases hq'
        exact Or.inr (Or.inr (Or.inr ⟨w, oid, c, hw, (getElem?_set_eq_some hq).mpr (Or.inl ⟨rfl, rfl⟩)⟩))
      · exact Or.inl ((getElem?_set_eq_some hq').mpr (Or.inr ⟨hne, hq⟩))
  | deregister oid =>
      cases hstep
      exact Or.inl (by rwa [queues_deregister])
  | joined d =>
      obtain ⟨oid, r, q, -, -, rfl⟩ := joined_eq_some hstep
      exact Or.inl hq

/-- A queue stays the one of its registration. -/
theorem queue_registration_of_step {queue : WorkQueue} (hq : st.queues[q]? = some queue)
    (hstep : st.step event = some st') :
    ∃ queue', st'.queues[q]? = some queue' ∧ queue'.registration = queue.registration := by
  rcases queue_of_step hq hstep with hq' | ⟨oid, -, hq'⟩ | ⟨w, oid, c, items, -, -, hq', -⟩ | ⟨w, oid, c, -, hq'⟩
  all_goals exact ⟨_, hq', rfl⟩

/-! ## Workers

A worker moves by its own steps, and keeps the queue it has found. -/

/-- A worker finds its queue or ends, takes the first item of its queue, or is done with one. -/
theorem worker_of_coroutine {phase : WorkerPhase} (hw : st.workers[w]? = some ⟨oid, phase⟩)
    (hstep : st.step event = some st') (hevent : event.coroutine = some (.worker w)) :
    (phase = .created ∧ ((∃ q, st.workerQueues.get oid = some q ∧ st'.workers[w]? = some ⟨oid, .polling q⟩) ∨
      (st.workerQueues.get oid = none ∧ st'.workers[w]? = some ⟨oid, .dead⟩))) ∨
    (∃ q queue c items, phase = .polling q ∧ st.queues[q]? = some queue ∧ queue.items = c :: items ∧
      st'.workers[w]? = some ⟨oid, .busy q c⟩ ∧ st'.queues[q]? = some { queue with items := items } ∧
      c ∈ st'.handed) ∨
    ∃ q c queue, phase = .busy q c ∧ st.queues[q]? = some queue ∧ st'.workers[w]? = some ⟨oid, .polling q⟩ ∧
      st'.queues[q]? = some { queue with unfinished := queue.unfinished - 1 } := by
  cases event with
  -- the worker's own three steps, of which its phase allows one
  | startWorker w' =>
      cases hevent
      obtain ⟨oid', hw', hcases⟩ := startWorker_eq_some hstep
      rw [hw] at hw'
      cases hw'
      rcases hcases with ⟨q, hq, rfl⟩ | ⟨hnone, rfl⟩
      · exact Or.inl ⟨rfl, Or.inl ⟨q, hq, (getElem?_set_eq_some hw).mpr (Or.inl ⟨rfl, rfl⟩)⟩⟩
      · exact Or.inl ⟨rfl, Or.inr ⟨hnone, (getElem?_set_eq_some hw).mpr (Or.inl ⟨rfl, rfl⟩)⟩⟩
  | takeItem w' =>
      cases hevent
      obtain ⟨oid', q, queue, c, items, call, hw', hq, hitems, -, rfl⟩ := takeItem_eq_some hstep
      rw [hw] at hw'
      cases hw'
      exact Or.inr (Or.inl ⟨q, queue, c, items, rfl, hq, hitems,
        (getElem?_set_eq_some hw).mpr (Or.inl ⟨rfl, rfl⟩), (getElem?_set_eq_some hq).mpr (Or.inl ⟨rfl, rfl⟩),
        List.mem_append_right _ (List.mem_singleton_self c)⟩)
  | taskDone w' =>
      cases hevent
      obtain ⟨oid', q, c, queue, oid₁, r, outputs, hw', hq, -, rfl⟩ := taskDone_eq_some hstep
      rw [hw] at hw'
      cases hw'
      exact Or.inr (Or.inr ⟨q, c, queue, rfl, hq, (getElem?_set_eq_some hw).mpr (Or.inl ⟨rfl, rfl⟩),
        (getElem?_set_eq_some hq).mpr (Or.inl ⟨rfl, rfl⟩)⟩)
  | register | makeQueue | dispatch | processed | send | deregister | joined => cases hevent

theorem worker_of_other_step {worker : Worker} (hw : st.workers[w]? = some worker) (hstep : st.step event = some st')
    (hevent : event.coroutine ≠ some (.worker w)) : st'.workers[w]? = some worker := by
  cases event with
  -- only a coroutine's own step moves a worker; new workers are added behind
  | register oid cpuBound outputTopics =>
      cases hstep
      exact hw
  | makeQueue r =>
      obtain ⟨oid, topics, -, -, rfl⟩ := makeQueue_eq_some hstep
      exact getElem?_concat_of_some hw _
  | dispatch oid =>
      cases hstep
      rwa [workers_dispatch]
  | processed c result =>
      obtain ⟨oid, r, outputs, emitAs, -, rfl⟩ := processed_eq_some hstep
      exact hw
  | send c accepted =>
      obtain ⟨oid, r, outputs, payload, pending, -, ⟨-, rfl⟩ | ⟨-, rfl⟩⟩ := send_eq_some hstep
      all_goals exact hw
  | startWorker w' =>
      have hne : w ≠ w' := fun heq => hevent (by rw [heq]; rfl)
      obtain ⟨oid, hw', ⟨q, -, rfl⟩ | ⟨-, rfl⟩⟩ := startWorker_eq_some hstep
      all_goals exact (getElem?_set_eq_some hw').mpr (Or.inr ⟨hne, hw⟩)
  | takeItem w' =>
      have hne : w ≠ w' := fun heq => hevent (by rw [heq]; rfl)
      obtain ⟨oid, q, queue, c, items, call, hw', -, -, -, rfl⟩ := takeItem_eq_some hstep
      exact (getElem?_set_eq_some hw').mpr (Or.inr ⟨hne, hw⟩)
  | taskDone w' =>
      have hne : w ≠ w' := fun heq => hevent (by rw [heq]; rfl)
      obtain ⟨oid, q, c, queue, oid', r, outputs, hw', -, -, rfl⟩ := taskDone_eq_some hstep
      exact (getElem?_set_eq_some hw').mpr (Or.inr ⟨hne, hw⟩)
  | deregister oid =>
      cases hstep
      rwa [workers_deregister]
  | joined d =>
      obtain ⟨oid, r, q, -, -, rfl⟩ := joined_eq_some hstep
      exact hw

/-- A worker that has found its queue keeps it. -/
theorem worker_queue_of_step {worker : Worker} (hw : st.workers[w]? = some worker)
    (hq : worker.phase.queue = some q) (hstep : st.step event = some st') :
    ∃ worker', st'.workers[w]? = some worker' ∧ worker'.phase.queue = some q := by
  obtain ⟨oid, phase⟩ := worker
  by_cases hevent : event.coroutine = some (.worker w)
  · rcases worker_of_coroutine hw hstep hevent with ⟨rfl, -⟩ | ⟨q', queue, c, items, rfl, -, -, hw', -⟩ |
      ⟨q', c, queue, rfl, -, hw', -⟩
    · cases hq
    · exact ⟨_, hw', hq⟩
    · exact ⟨_, hw', hq⟩
  · exact ⟨_, worker_of_other_step hw hstep hevent, hq⟩

/-- A worker had its queue before, or finds it in the table. -/
theorem worker_queue_before {worker' : Worker} (hstep : st.step event = some st') (hw' : st'.workers[w]? = some worker')
    (hq : worker'.phase.queue = some q) :
    (∃ worker, st.workers[w]? = some worker ∧ worker.phase.queue = some q) ∨
      ∃ oid, st.workerQueues.get oid = some q := by
  cases hw : st.workers[w]? with
  | none =>
      -- a new worker has not run yet
      have hge := List.getElem?_eq_none_iff.mp hw
      have hlt := lt_length_of_getElem? hw'
      rcases tables_of_step hstep with ⟨-, -, -, -, hlength⟩ | ⟨reg, -, -, -, -, -, hworkers⟩ |
        ⟨r, oid, topics, -, -, -, -, -, -, hworkers⟩ | ⟨oid, r, -, -, -, -, -, -, hworkers⟩
      · omega
      · rw [hworkers] at hlt
        omega
      · rw [hworkers] at hw'
        rcases getElem?_concat_eq_some.mp hw' with hw' | ⟨-, rfl⟩
        · rw [hw] at hw'
          cases hw'
        · cases hq
      · rw [hworkers] at hlt
        omega
  | some worker =>
      by_cases hevent : event.coroutine = some (.worker w)
      · obtain ⟨oid, phase⟩ := worker
        rcases worker_of_coroutine hw hstep hevent with ⟨-, ⟨q', htable, hw₁⟩ | ⟨-, hw₁⟩⟩ |
          ⟨q', queue, c, items, rfl, -, -, hw₁, -⟩ | ⟨q', c, queue, rfl, -, hw₁, -⟩
        all_goals
          rw [hw'] at hw₁
          cases hw₁
        · cases hq
          exact Or.inr ⟨oid, htable⟩
        · cases hq
        · exact Or.inl ⟨_, rfl, hq⟩
        · exact Or.inl ⟨_, rfl, hq⟩
      · rw [worker_of_other_step hw hstep hevent] at hw'
        cases hw'
        exact Or.inl ⟨_, rfl, hq⟩

/-! ## Deregistrations

A deregistration moves when its queue is joined, and otherwise not at all. -/

/-- A deregistration returns from `q.join()`, or a new one begins. -/
theorem deregistrations_of_step (hstep : st.step event = some st') :
    st'.deregistrations = st.deregistrations ∨
    (∃ (d : Nat) (oid : String) (r q : Nat), event = .joined d ∧ st.deregistrations[d]? = some ⟨oid, r, some q⟩ ∧
      st.unfinished q = 0 ∧ st'.deregistrations = st.deregistrations.set d ⟨oid, r, none⟩) ∨
    ∃ oid r waiting, event = .deregister oid ∧ st.operators.get oid = some r ∧
      st'.operators = st.operators.pop oid ∧ st'.workerQueues = st.workerQueues.pop oid ∧
      st'.calls = st.calls ∧ st'.deregistrations = st.deregistrations ++ [⟨oid, r, waiting⟩] ∧
      ((∃ q, st.workerQueues.get oid = some q ∧ waiting = some q) ∨
        ((∀ q, st.workerQueues.get oid = some q → st.unfinished q = 0) ∧ waiting = none)) := by
  cases event with
  -- only a deregistration adds to the list, and only its own return changes an entry
  | register oid cpuBound outputTopics =>
      cases hstep
      exact Or.inl rfl
  | makeQueue r =>
      obtain ⟨oid, topics, -, -, rfl⟩ := makeQueue_eq_some hstep
      exact Or.inl rfl
  | dispatch oid =>
      cases hstep
      exact Or.inl (deregistrations_dispatch st oid)
  | processed c result =>
      obtain ⟨oid, r, outputs, emitAs, -, rfl⟩ := processed_eq_some hstep
      exact Or.inl rfl
  | send c accepted =>
      obtain ⟨oid, r, outputs, payload, pending, -, ⟨-, rfl⟩ | ⟨-, rfl⟩⟩ := send_eq_some hstep
      all_goals exact Or.inl rfl
  | startWorker w =>
      obtain ⟨oid, -, ⟨q, -, rfl⟩ | ⟨-, rfl⟩⟩ := startWorker_eq_some hstep
      all_goals exact Or.inl rfl
  | takeItem w =>
      obtain ⟨oid, q, queue, c, items, call, -, -, -, -, rfl⟩ := takeItem_eq_some hstep
      exact Or.inl rfl
  | taskDone w =>
      obtain ⟨oid, q, c, queue, oid', r, outputs, -, -, -, rfl⟩ := taskDone_eq_some hstep
      exact Or.inl rfl
  | deregister oid =>
      cases hstep
      rcases deregister_cases st oid with ⟨-, heq⟩ | ⟨r, hr, ⟨q, hq, -, heq⟩ | ⟨hzero, heq⟩⟩
      · rw [heq]
        exact Or.inl rfl
      -- there is something unfinished in its queue, so it waits
      · rw [heq]
        exact Or.inr (Or.inr ⟨oid, r, some q, rfl, hr, rfl, rfl, rfl, rfl, Or.inl ⟨q, hq, rfl⟩⟩)
      -- there is no queue, or nothing unfinished in it: it returns at once
      · rw [heq]
        exact Or.inr (Or.inr ⟨oid, r, none, rfl, hr, rfl, rfl, rfl, rfl, Or.inr ⟨hzero, rfl⟩⟩)
  | joined d =>
      obtain ⟨oid, r, q, hd, hzero, rfl⟩ := joined_eq_some hstep
      exact Or.inr (Or.inl ⟨d, oid, r, q, rfl, hd, hzero, rfl⟩)

theorem Event.eq_joined (h : event.coroutine = some (.deregistration d)) : event = .joined d := by
  cases event with
  | joined d' =>
      cases h
      rfl
  | register | makeQueue | dispatch | processed | send | startWorker | takeItem | taskDone | deregister => cases h

theorem returned_of_joined {waiting : Option Nat} (hd : st.deregistrations[d]? = some ⟨oid, r, waiting⟩)
    (hstep : st.joined d = some st') : st'.deregistrations[d]? = some ⟨oid, r, none⟩ := by
  obtain ⟨oid', r', q', hd', -, rfl⟩ := joined_eq_some hstep
  rw [hd] at hd'
  cases hd'
  exact (getElem?_set_eq_some hd).mpr (Or.inl ⟨rfl, rfl⟩)

/-- A deregistration goes on by itself only. -/
theorem deregistration_of_other_step {dereg : Deregistration} (hd : st.deregistrations[d]? = some dereg)
    (hstep : st.step event = some st') (hevent : event.coroutine ≠ some (.deregistration d)) :
    st'.deregistrations[d]? = some dereg := by
  rcases deregistrations_of_step hstep with heq | ⟨d', oid, r, q, rfl, hd', -, heq⟩ |
    ⟨oid, r, waiting, -, -, -, -, -, heq, -⟩
  · rw [heq]
    exact hd
  · rw [heq]
    refine (getElem?_set_eq_some hd').mpr (Or.inr ⟨?_, hd⟩)
    rintro rfl
    exact hevent rfl
  · rw [heq]
    exact getElem?_concat_of_some hd _

/-! ## Calls

New calls are made by dispatches to what is registered, and a call keeps its registration for good. -/

/-- The calls are as many as before, or a new one is under a registration in the table. -/
theorem calls_of_step (hstep : st.step event = some st') :
    st'.calls.length = st.calls.length ∨
      ∃ oid call, event = .dispatch oid ∧ st.operators.get oid = some call.registration ∧
        st'.calls = st.calls ++ [call] := by
  cases event with
  -- a dispatch makes one call at most, and no other step makes any
  | register oid cpuBound outputTopics =>
      cases hstep
      exact Or.inl rfl
  | makeQueue r =>
      obtain ⟨oid, topics, -, -, rfl⟩ := makeQueue_eq_some hstep
      exact Or.inl rfl
  | dispatch oid =>
      cases hstep
      rcases calls_dispatch st oid with heq | ⟨call, hr, heq⟩
      · exact Or.inl (congrArg List.length heq)
      · exact Or.inr ⟨oid, call, rfl, hr, heq⟩
  | processed c result =>
      obtain ⟨oid, r, outputs, emitAs, -, rfl⟩ := processed_eq_some hstep
      exact Or.inl List.length_set
  | send c accepted =>
      obtain ⟨oid, r, outputs, payload, pending, -, ⟨-, rfl⟩ | ⟨-, rfl⟩⟩ := send_eq_some hstep
      all_goals exact Or.inl List.length_set
  | startWorker w =>
      obtain ⟨oid, -, ⟨q, -, rfl⟩ | ⟨-, rfl⟩⟩ := startWorker_eq_some hstep
      all_goals exact Or.inl rfl
  | takeItem w =>
      obtain ⟨oid, q, queue, c, items, call, -, -, -, -, rfl⟩ := takeItem_eq_some hstep
      exact Or.inl List.length_set
  | taskDone w =>
      obtain ⟨oid, q, c, queue, oid', r, outputs, -, -, -, rfl⟩ := taskDone_eq_some hstep
      exact Or.inl rfl
  | deregister oid =>
      cases hstep
      exact Or.inl (congrArg List.length (calls_deregister st oid))
  | joined d =>
      obtain ⟨oid, r, q, -, -, rfl⟩ := joined_eq_some hstep
      exact Or.inl rfl

/-- A new call is under a registration in the table. -/
theorem operator_of_newCall {call : Call F} (hc : st.calls[c]? = none) (hstep : st.step event = some st')
    (hc' : st'.calls[c]? = some call) : ∃ oid, st.operators.get oid = some call.registration := by
  rcases calls_of_step hstep with hlength | ⟨oid, call', -, hr, heq⟩
  · have hlt := lt_length_of_getElem? hc'
    rw [hlength] at hlt
    exact absurd hlt (Nat.not_lt.mpr (List.getElem?_eq_none_iff.mp hc))
  · rw [heq] at hc'
    rcases getElem?_concat_eq_some.mp hc' with hc' | ⟨-, rfl⟩
    · rw [hc] at hc'
      cases hc'
    · exact ⟨oid, hr⟩

theorem call_registration_of_step {call : Call F} (howned : Owned st) (hc : st.calls[c]? = some call)
    (hstep : st.step event = some st') :
    ∃ call', st'.calls[c]? = some call' ∧ call'.registration = call.registration := by
  rcases call_of_step howned hc hstep with hc' | ⟨-, -, hc'⟩ | hevent
  · exact ⟨_, hc', rfl⟩
  · exact ⟨_, hc', rfl⟩
  · rcases call_of_coroutine hc hstep hevent with ⟨_, _, -, hc'⟩ | ⟨_, _, _, -, -, hc'⟩
    · exact ⟨_, hc', rfl⟩
    · exact ⟨_, hc', rfl⟩

end Tasks
end Hea
end HybridStream
