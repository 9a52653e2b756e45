import HybridStream.Hea.Correctness.QueueCount
import HybridStream.Py.Exact

/-!
# `Hea.Correctness.QueueDrain` — a queue is drained and its deregistration returns

Where every coroutine goes on, a worker comes back from each item (`worker_returns`), so that an item moves to the
front of its queue and is handed over (`item_handed`, along its position). The queue a deregistration waits for is out
of the table: nothing is put into it, and with each item taken and each item done `q.join()` comes closer to its return
(`waiting_returns`). With the order of `QueueCount` this is what the queue of a CPU-bound operator is for
(`cpu_queue_drained`).

A queue that has left the table before its worker looked it up stays as it is in every run (`orphaned_of_run`).
-/

namespace HybridStream
namespace Hea
namespace Tasks

open Lib Py

variable {F : Type}

/-! ## A worker comes back

The call that a worker is at ends by fairness, and then the worker is back at its queue. -/

section Drain

variable {b : (system.restrict (fun (st : Tasks F) event => drains st event = true)).Behaviour}

theorem letsCallsGo_drains : LetsCallsGo (fun (st : Tasks F) event => drains st event = true) :=
  ⟨fun _ _ _ => rfl, fun _ _ => rfl⟩

/-- A call that was handed over ends. -/
theorem call_ends (hfair : Fair b) (c : Nat) :
    b.LeadsTo (fun st => ∃ call, st.calls[c]? = some call ∧ call.phase ≠ .queued ∧ call.phase ≠ .dropped)
      (fun st => ∃ r outputs, EndedWith c r outputs st) := by
  have hphase : b.LeadsTo
      (fun st => ∃ call, st.calls[c]? = some call ∧ call.phase ≠ .queued ∧ call.phase ≠ .dropped)
      (fun st => ∃ oid r outputs, (∃ emitAs, st.calls[c]? = some ⟨oid, r, outputs, .processing emitAs⟩) ∨
        ∃ pending, st.calls[c]? = some ⟨oid, r, outputs, .emit pending⟩) := by
    refine .of_imp ?_
    rintro st hreach ⟨⟨oid, r, outputs, phase⟩, hc, hqueued, hdropped⟩
    refine ⟨oid, r, outputs, ?_⟩
    cases phase with
    | queued => exact absurd rfl hqueued
    | dropped => exact absurd rfl hdropped
    | processing emitAs => exact Or.inl ⟨emitAs, hc⟩
    | emitting pending =>
        cases pending with
        | nil => exact absurd rfl ((owned_of_reachable hreach.of_restrict).pending c _ hc)
        | cons payload pending => exact Or.inr ⟨payload :: pending, hc⟩
    | ended => exact Or.inr ⟨[], hc⟩
  refine hphase.trans (.of_exists fun oid => .of_exists fun r => .of_exists fun outputs => .or ?_ ?_)
  · refine .of_exists fun emitAs => ?_
    exact (processing_ends letsCallsGo_drains hfair c r oid outputs emitAs).mono (fun _ _ h => h) fun _ h => ⟨r, h⟩
  · refine .of_exists fun pending => ?_
    exact (emitting_ends letsCallsGo_drains hfair c r oid outputs pending).mono (fun _ _ h => h)
      fun _ h => ⟨r, outputs, h⟩

/-- A worker that is at an item stays there or comes back. -/
theorem busy_of_step {st st' : Tasks F} {event : Event F} {w q c : Nat} {oid : String}
    (hw : st.workers[w]? = some ⟨oid, .busy q c⟩) (hstep : st.step event = some st') :
    st'.workers[w]? = some ⟨oid, .busy q c⟩ ∨ st'.workers[w]? = some ⟨oid, .polling q⟩ := by
  by_cases hevent : event.coroutine = some (.worker w)
  · rcases worker_of_coroutine hw hstep hevent with ⟨hphase, -⟩ | ⟨_, _, _, _, hphase, -⟩ | ⟨_, _, _, hphase, -, hw', -⟩
    · cases hphase
    · cases hphase
    · cases hphase
      exact Or.inr hw'
  · exact Or.inl (worker_of_other_step hw hstep hevent)

theorem worker_returns (hfair : Fair b) (w q c : Nat) (oid : String) :
    b.LeadsTo (fun st => st.workers[w]? = some ⟨oid, .busy q c⟩)
      (fun st => st.workers[w]? = some ⟨oid, .polling q⟩) := by
  have hcall : b.LeadsTo (fun st => st.workers[w]? = some ⟨oid, .busy q c⟩)
      (fun st => ∃ call, st.calls[c]? = some call ∧ call.phase ≠ .queued ∧ call.phase ≠ .dropped) := by
    refine .of_imp fun st hreach hw => ?_
    have hcounted := (draining_of_reachable hreach).counted
    obtain ⟨call, hc, hqueued, hdropped, -⟩ := hcounted.handed c (hcounted.busy w q c oid hw).1
    exact ⟨call, hc, hqueued, hdropped⟩
  -- the call ends while the worker waits for it
  have hended := (hcall.trans (call_ends hfair c)).psp
    (R := fun st => st.workers[w]? = some ⟨oid, .busy q c⟩) (S := fun st => st.workers[w]? = some ⟨oid, .polling q⟩)
    fun st event st' _ hw hstep => busy_of_step hw hstep.1
  refine (hended.mono (fun _ _ hw => ⟨hw, hw⟩) fun _ h => h).trans (.or ?_ (.of_imp fun _ _ h => h))
  refine Lts.Behaviour.ensures (hfair (.worker w)) ?_ ?_ ?_
  · rintro st event st' hreach ⟨⟨r, outputs, oid', hc⟩, hw⟩ hevent hstep
    have hc' := ended_of_step (owned_of_reachable hreach.of_restrict) hc rfl hstep.1
    exact Or.inl ⟨⟨r, outputs, oid', hc'⟩, worker_of_other_step hw hstep.1 hevent⟩
  · rintro st event st' - ⟨-, hw⟩ hevent hstep
    rcases worker_of_coroutine hw hstep.1 hevent with ⟨hphase, -⟩ | ⟨_, _, _, _, hphase, -⟩ |
      ⟨_, _, _, hphase, -, hw', -⟩
    · cases hphase
    · cases hphase
    · cases hphase
      exact hw'
  · rintro st hreach ⟨⟨r, outputs, oid', hc⟩, hw⟩
    obtain ⟨queue, hq, -⟩ := (owned_of_reachable hreach.of_restrict).worker w q _ hw rfl
    have hsome : (st.taskDone w).isSome := by
      unfold taskDone
      simp only [hw, hc, hq, Option.bind_eq_bind, Option.bind_some, Option.isSome_some]
    exact Lts.enabled_of_isSome (a := .taskDone w) hsome rfl rfl

/-! ## An item is handed over

By induction on its position: the items before it are taken one after the other, as each time the worker comes back.
Where the worker has not looked its queue up yet, that comes first. -/

/-- The call stands in the queue, behind the given number of others. -/
def ItemAt (q k c : Nat) (st : Tasks F) : Prop := ∃ queue, st.queues[q]? = some queue ∧ queue.items[k]? = some c

/-- The call was handed over, or fewer are before it. -/
def Nearer (q k c : Nat) (st : Tasks F) : Prop := c ∈ st.handed ∨ ∃ k', k' < k ∧ ItemAt q k' c st

/-- The first item is taken. -/
theorem nearer_of_take {st' : Tasks F} {q k c c' : Nat} {items : List Nat} {queue queue' : WorkQueue}
    (hitem : queue.items[k]? = some c) (hitems : queue.items = c' :: items) (hq' : st'.queues[q]? = some queue')
    (hitems' : queue'.items = items) (hc' : c' ∈ st'.handed) : Nearer q k c st' := by
  rw [hitems] at hitem
  cases k with
  | zero =>
      obtain rfl : c' = c := Option.some.inj hitem
      exact Or.inl hc'
  | succ k => exact Or.inr ⟨k, Nat.lt_succ_self k, queue', hq', by rw [hitems']; exact hitem⟩

theorem itemAt_of_step {st st' : Tasks F} {event : Event F} {q k c : Nat} (h : ItemAt q k c st)
    (hstep : st.step event = some st') : ItemAt q k c st' ∨ Nearer q k c st' := by
  obtain ⟨queue, hq, hitem⟩ := h
  rcases queue_of_step hq hstep with hq' | ⟨oid, -, hq'⟩ | ⟨w, oid, c', items, -, hitems, hq', hc'⟩ |
    ⟨w, oid, c', -, hq'⟩
  · exact Or.inl ⟨_, hq', hitem⟩
  · exact Or.inl ⟨_, hq', getElem?_concat_of_some hitem _⟩
  · exact Or.inr (nearer_of_take hitem hitems hq' rfl hc')
  · exact Or.inl ⟨_, hq', hitem⟩

/-- A worker that polls takes an item. -/
theorem item_polled (hfair : Fair b) (q k c w : Nat) (oid : String) :
    b.LeadsTo (fun st => ItemAt q k c st ∧ st.workers[w]? = some ⟨oid, .polling q⟩) (Nearer q k c) := by
  refine Lts.Behaviour.ensures (hfair (.worker w)) ?_ ?_ ?_
  · rintro st event st' - ⟨hitem, hw⟩ hevent hstep
    exact (itemAt_of_step hitem hstep.1).imp_left fun hitem => ⟨hitem, worker_of_other_step hw hstep.1 hevent⟩
  · rintro st event st' - ⟨⟨queue, hq, hitem⟩, hw⟩ hevent hstep
    rcases worker_of_coroutine hw hstep.1 hevent with ⟨hphase, -⟩ |
      ⟨q', queue', c', items, hphase, hq', hitems, -, hq₁, hc'⟩ | ⟨_, _, _, hphase, -⟩
    · cases hphase
    · cases hphase
      rw [hq] at hq'
      cases hq'
      exact nearer_of_take hitem hitems hq₁ rfl hc'
    · cases hphase
  · rintro st hreach ⟨⟨queue, hq, hitem⟩, hw⟩
    have hsome : (st.takeItem w).isSome := by
      cases hitems : queue.items with
      | nil =>
          rw [hitems] at hitem
          cases hitem
      | cons c' items =>
          obtain ⟨call, hc', -⟩ := (owned_of_reachable hreach.of_restrict).item q queue c' hq
            (by rw [hitems]; exact List.mem_cons_self)
          unfold takeItem
          simp only [hw, hq, hitems, hc', Option.bind_eq_bind, Option.bind_some, Option.isSome_some]
    exact Lts.enabled_of_isSome (a := .takeItem w) hsome rfl rfl

/-- A worker at an item comes back to take the next. -/
theorem item_served (hfair : Fair b) (q k c : Nat) :
    b.LeadsTo (fun st => ItemAt q k c st ∧ st.Served q) (Nearer q k c) := by
  have hbusy : ∀ (w c' : Nat) (oid : String),
      b.LeadsTo (fun st => ItemAt q k c st ∧ st.workers[w]? = some ⟨oid, .busy q c'⟩) (Nearer q k c) := by
    intro w c' oid
    have hback := (worker_returns hfair w q c' oid).psp (R := ItemAt q k c) (S := Nearer q k c)
      fun st event st' _ hitem hstep => itemAt_of_step hitem hstep.1
    refine (hback.mono (fun _ _ h => ⟨h.2, h.1⟩) fun _ h => h).trans (.or ?_ (.of_imp fun _ _ h => h))
    exact (item_polled hfair q k c w oid).mono (fun _ _ h => ⟨h.2, h.1⟩) fun _ h => h
  have hphase : b.LeadsTo (fun st => ItemAt q k c st ∧ st.Served q) (fun st => ∃ (w : Nat) (oid : String),
      (ItemAt q k c st ∧ st.workers[w]? = some ⟨oid, .polling q⟩) ∨
        ∃ c' : Nat, ItemAt q k c st ∧ st.workers[w]? = some ⟨oid, .busy q c'⟩) := by
    refine .of_imp ?_
    rintro st - ⟨hitem, w, ⟨oid, phase⟩, hw, hqueue⟩
    refine ⟨w, oid, ?_⟩
    cases phase with
    | polling q' =>
        cases hqueue
        exact Or.inl ⟨hitem, hw⟩
    | busy q' c' =>
        cases hqueue
        exact Or.inr ⟨c', hitem, hw⟩
    | created | dead => cases hqueue
  refine hphase.trans (.of_exists fun w => .of_exists fun oid => ?_)
  exact (item_polled hfair q k c w oid).or (.of_exists fun c' => hbusy w c' oid)

/-- A worker that is still to look its queue up finds it. -/
theorem item_awaited (hfair : Fair b) (q k c w : Nat) (oid : String) :
    b.LeadsTo (fun st => ItemAt q k c st ∧ st.workerQueues.get oid = some q ∧ st.workers[w]? = some ⟨oid, .created⟩)
      (fun st => (ItemAt q k c st ∧ st.Served q) ∨ Nearer q k c st) := by
  refine Lts.Behaviour.ensures (hfair (.worker w)) ?_ ?_ ?_
  · rintro st event st' - ⟨hitem, htable, hw⟩ hevent hstep
    rcases itemAt_of_step hitem hstep.1 with hitem' | hnearer
    · have hw' := worker_of_other_step hw hstep.1 hevent
      rcases table_of_drains hstep.1 hstep.2 htable with htable' | ⟨-, hempty | hserved⟩
      · exact Or.inl ⟨hitem', htable', hw'⟩
      · obtain ⟨queue, hq, hitem⟩ := hitem
        rw [hempty queue hq] at hitem
        cases hitem
      · exact Or.inr (Or.inl ⟨hitem', hserved.step hstep.1⟩)
    · exact Or.inr (Or.inr hnearer)
  · rintro st event st' - ⟨hitem, htable, hw⟩ hevent hstep
    refine (itemAt_of_step hitem hstep.1).imp_left fun hitem => ⟨hitem, w, ?_⟩
    rcases worker_of_coroutine hw hstep.1 hevent with ⟨-, ⟨q', htable', hw'⟩ | ⟨hnone, -⟩⟩ |
      ⟨_, _, _, _, hphase, -⟩ | ⟨_, _, _, hphase, -⟩
    · rw [htable] at htable'
      cases htable'
      exact ⟨_, hw', rfl⟩
    · rw [htable] at hnone
      cases hnone
    · cases hphase
    · cases hphase
  · rintro st - ⟨-, htable, hw⟩
    have hsome : (st.startWorker w).isSome := by
      unfold startWorker
      rw [hw]
      rfl
    exact Lts.enabled_of_isSome (a := .startWorker w) hsome rfl rfl

theorem item_nearer (hfair : Fair b) (q k c : Nat) : b.LeadsTo (ItemAt q k c) (Nearer q k c) := by
  have hattended : b.LeadsTo (ItemAt q k c) (fun st => (ItemAt q k c st ∧ st.Served q) ∨
      ∃ (oid : String) (w : Nat), ItemAt q k c st ∧ st.workerQueues.get oid = some q ∧
        st.workers[w]? = some ⟨oid, .created⟩) := by
    refine .of_imp fun st hreach hitem => ?_
    obtain ⟨queue, hq, hget⟩ := hitem
    have hne : queue.items ≠ [] := List.ne_nil_of_mem (List.mem_of_getElem? hget)
    rcases (draining_of_reachable hreach).attended q queue hq (Or.inl hne) with hserved | ⟨oid, w, htable, hw⟩
    · exact Or.inl ⟨⟨queue, hq, hget⟩, hserved⟩
    · exact Or.inr ⟨oid, w, ⟨queue, hq, hget⟩, htable, hw⟩
  refine hattended.trans (.or (item_served hfair q k c) (.of_exists fun oid => .of_exists fun w => ?_))
  exact (item_awaited hfair q k c w oid).trans (.or (item_served hfair q k c) (.of_imp fun _ _ h => h))

/-- Along its position, an item of a queue is handed over. -/
theorem item_handed (hfair : Fair b) (q k c : Nat) : b.LeadsTo (ItemAt q k c) (fun st => c ∈ st.handed) := by
  induction k using Nat.strong_induction_on with
  | _ k ih =>
      refine (item_nearer hfair q k c).trans (.or (.of_imp fun _ _ h => h) (.of_exists fun k' => ?_))
      rintro n ⟨hlt, hitem⟩
      exact ih k' hlt n hitem

/-! ## A deregistration returns

What remains of a queue that is waited for only becomes less: nothing is put into it, as its operator is out of the
table. -/

/-- How far a queue is from being done. -/
def remainingWork (st : Tasks F) (q : Nat) : Nat :=
  ((st.queues[q]?).map (fun queue => queue.items.length + queue.unfinished)).getD 0

theorem remainingWork_of_some {st : Tasks F} {q : Nat} {queue : WorkQueue} (hq : st.queues[q]? = some queue) :
    st.remainingWork q = queue.items.length + queue.unfinished := by
  unfold remainingWork
  rw [hq]
  rfl

/-- The queue a deregistration waits for is left alone, or less of its work remains. -/
theorem waiting_of_step {st st' : Tasks F} {event : Event F} {d q r : Nat} {oid : String} {queue : WorkQueue}
    (h : Draining st) (hd : st.deregistrations[d]? = some ⟨oid, r, some q⟩) (hq : st.queues[q]? = some queue)
    (hstep : st.step event = some st') :
    (st'.deregistrations[d]? = some ⟨oid, r, some q⟩ ∧
      (st'.queues[q]? = some queue ∨ st'.remainingWork q < queue.items.length + queue.unfinished)) ∨
    st'.deregistrations[d]? = some ⟨oid, r, none⟩ := by
  by_cases hevent : event.coroutine = some (.deregistration d)
  · obtain rfl := Event.eq_joined hevent
    exact Or.inr (returned_of_joined hd hstep)
  · refine Or.inl ⟨deregistration_of_other_step hd hstep hevent, ?_⟩
    rcases queue_of_step hq hstep with hq' | ⟨oid', htable, -⟩ | ⟨w, oid', c, items, -, hitems, hq', -⟩ |
      ⟨w, oid', c, hw, hq'⟩
    · exact Or.inl hq'
    · exact absurd htable (((h.closed d _ hd).waiting q rfl).1 oid')
    · refine Or.inr ?_
      rw [remainingWork_of_some hq', hitems, List.length_cons]
      exact Nat.add_lt_add_right (Nat.lt_succ_self _) _
    · -- a worker at an item is counted
      have hcount := h.counted.count q queue hq
      have hpos : 0 < busyCount st.workers q :=
        List.countP_pos_iff.mpr ⟨_, List.mem_of_getElem? hw, decide_eq_true rfl⟩
      refine Or.inr ?_
      rw [remainingWork_of_some hq']
      show queue.items.length + (queue.unfinished - 1) < queue.items.length + queue.unfinished
      omega

/-- The deregistration has returned, or less work of the queue it waits for remains. -/
def Closer (d q r n : Nat) (oid : String) (st : Tasks F) : Prop :=
  (st.deregistrations[d]? = some ⟨oid, r, some q⟩ ∧ st.remainingWork q < n) ∨
    st.deregistrations[d]? = some ⟨oid, r, none⟩

/-- The deregistration waits for a queue with the given contents. -/
def WaitsFor (d q r : Nat) (oid : String) (queue : WorkQueue) (st : Tasks F) : Prop :=
  st.deregistrations[d]? = some ⟨oid, r, some q⟩ ∧ st.queues[q]? = some queue

theorem waitsFor_of_step {st st' : Tasks F} {event : Event F} {d q r : Nat} {oid : String} {queue : WorkQueue}
    (h : Draining st) (hwaits : WaitsFor d q r oid queue st) (hstep : st.step event = some st') :
    WaitsFor d q r oid queue st' ∨ Closer d q r (queue.items.length + queue.unfinished) oid st' := by
  rcases waiting_of_step h hwaits.1 hwaits.2 hstep with ⟨hd, hq | hless⟩ | hd
  · exact Or.inl ⟨hd, hq⟩
  · exact Or.inr (Or.inl ⟨hd, hless⟩)
  · exact Or.inr (Or.inr hd)

/-- A queue with items comes closer when the first is taken. -/
theorem waiting_items (hfair : Fair b) (d q r : Nat) (oid : String) (queue : WorkQueue) (hitems : queue.items ≠ []) :
    b.LeadsTo (WaitsFor d q r oid queue) (Closer d q r (queue.items.length + queue.unfinished) oid) := by
  obtain ⟨c, items, hcons⟩ := List.exists_cons_of_ne_nil hitems
  have hhanded := (item_handed hfair q 0 c).psp (R := WaitsFor d q r oid queue)
    (S := Closer d q r (queue.items.length + queue.unfinished) oid)
    fun st event st' hreach hwaits hstep => waitsFor_of_step (draining_of_reachable hreach) hwaits hstep.1
  refine (hhanded.mono (fun st _ hwaits => ?_) fun _ h => h).trans (.or (.of_imp ?_) (.of_imp fun _ _ h => h))
  · exact ⟨⟨queue, hwaits.2, by rw [hcons]; rfl⟩, hwaits⟩
  · -- what was handed over does not wait
    rintro st hreach ⟨hmem, -, hq⟩
    have hdraining := draining_of_reachable hreach
    obtain ⟨call, hc, hnot, -⟩ := hdraining.counted.handed c hmem
    obtain ⟨call', hc', -, hqueued⟩ := hdraining.owned.item q queue c hq (by rw [hcons]; exact List.mem_cons_self)
    rw [hc] at hc'
    cases hc'
    exact absurd hqueued hnot

/-- A queue without items comes closer when a worker comes back. -/
theorem waiting_workers (hfair : Fair b) (d q r : Nat) (oid : String) (queue : WorkQueue) (hitems : queue.items = [])
    (hunfinished : queue.unfinished ≠ 0) :
    b.LeadsTo (WaitsFor d q r oid queue) (Closer d q r (queue.items.length + queue.unfinished) oid) := by
  have hbusy : b.LeadsTo (WaitsFor d q r oid queue) (fun st => ∃ (w c : Nat) (oid' : String),
      st.workers[w]? = some ⟨oid', .busy q c⟩ ∧ WaitsFor d q r oid queue st) := by
    refine .of_imp fun st hreach hwaits => ?_
    have hcount := (draining_of_reachable hreach).counted.count q queue hwaits.2
    rw [hitems] at hcount
    have hpos : 0 < busyCount st.workers q := by
      simp only [List.length_nil] at hcount
      omega
    obtain ⟨⟨oid', phase⟩, hmem, hphase⟩ := List.countP_pos_iff.mp hpos
    obtain ⟨w, hw⟩ := List.getElem?_of_mem hmem
    cases phase with
    | busy q' c =>
        obtain rfl : q' = q := of_decide_eq_true hphase
        exact ⟨w, c, oid', hw, hwaits⟩
    | created | polling | dead => cases hphase
  refine hbusy.trans (.of_exists fun w => .of_exists fun c => .of_exists fun oid' => ?_)
  -- while this worker is at its item, the queue stays as it is
  have hback := (worker_returns hfair w q c oid').psp
    (R := fun st => st.workers[w]? = some ⟨oid', .busy q c⟩ ∧ WaitsFor d q r oid queue st)
    (S := Closer d q r (queue.items.length + queue.unfinished) oid) fun st event st' hreach h hstep => by
      obtain ⟨hw, hwaits⟩ := h
      refine (waitsFor_of_step (draining_of_reachable hreach) hwaits hstep.1).imp_left fun hwaits' => ⟨?_, hwaits'⟩
      by_cases hevent : event.coroutine = some (.worker w)
      · rcases worker_of_coroutine hw hstep.1 hevent with ⟨hphase, -⟩ | ⟨_, _, _, _, hphase, -⟩ |
          ⟨q', c', queue', hphase, hq, -, hq'⟩
        · cases hphase
        · cases hphase
        · cases hphase
          rw [hwaits.2] at hq
          cases hq
          rw [hwaits'.2] at hq'
          have hsame : queue.unfinished = queue.unfinished - 1 := congrArg WorkQueue.unfinished (Option.some.inj hq')
          omega
      · exact worker_of_other_step hw hstep.1 hevent
  refine (hback.mono (fun _ _ h => ⟨h.1, h⟩) fun _ h => h).trans (.or (.of_imp ?_) (.of_imp fun _ _ h => h))
  rintro st - ⟨hpolling, hw, -⟩
  rw [hpolling] at hw
  cases hw

/-- A queue that is done lets its deregistration return. -/
theorem waiting_done (hfair : Fair b) (d q r : Nat) (oid : String) (queue : WorkQueue) (hzero : queue.unfinished = 0) :
    b.LeadsTo (WaitsFor d q r oid queue) (Closer d q r (queue.items.length + queue.unfinished) oid) := by
  refine Lts.Behaviour.ensures (hfair (.deregistration d)) ?_ ?_ ?_
  · exact fun st event st' hreach hwaits _ hstep =>
      waitsFor_of_step (draining_of_reachable hreach) hwaits hstep.1
  · intro st event st' _ hwaits hevent hstep
    obtain rfl := Event.eq_joined hevent
    exact Or.inr (returned_of_joined hwaits.1 hstep.1)
  · rintro st - ⟨hd, hq⟩
    have hunfinished : st.unfinished q = 0 := (unfinished_of_some hq).trans hzero
    have hsome : (st.joined d).isSome := by
      unfold joined
      simp only [hd, hunfinished, Option.bind_eq_bind, Option.bind_some, if_true, Option.isSome_some]
    exact Lts.enabled_of_isSome (a := .joined d) hsome rfl rfl

/-- Along the work that remains, a deregistration returns. -/
theorem waiting_returns (hfair : Fair b) (d q r : Nat) (oid : String) :
    b.LeadsTo (fun st => st.deregistrations[d]? = some ⟨oid, r, some q⟩)
      (fun st => st.deregistrations[d]? = some ⟨oid, r, none⟩) := by
  refine .induct (fun st => st.remainingWork q) fun n => ?_
  have hqueue : b.LeadsTo (fun st => st.deregistrations[d]? = some ⟨oid, r, some q⟩ ∧ st.remainingWork q = n)
      (fun st => ∃ queue, queue.items.length + queue.unfinished = n ∧ WaitsFor d q r oid queue st) := by
    refine .of_imp ?_
    rintro st hreach ⟨hd, rfl⟩
    obtain ⟨-, queue, hq, -⟩ := ((draining_of_reachable hreach).closed d _ hd).waiting q rfl
    exact ⟨queue, (remainingWork_of_some hq).symm, hd, hq⟩
  refine hqueue.trans (.of_exists fun queue => ?_)
  rintro m ⟨rfl, hwaits⟩
  by_cases hitems : queue.items = []
  · by_cases hzero : queue.unfinished = 0
    · exact waiting_done hfair d q r oid queue hzero m hwaits
    · exact waiting_workers hfair d q r oid queue hitems hzero m hwaits
  · exact waiting_items hfair d q r oid queue hitems m hwaits

/-! ## The result

Order and progress together, for every fair behaviour whose steps find the right queues, with one such behaviour as an
instance. -/

/-- What was dispatched under a CPU-bound registration is handed over. -/
theorem dispatched_handed (hfair : Fair b) (c r : Nat) :
    b.LeadsTo (fun st => st.registrationOf c = some r ∧ st.cpuBoundOf r = true) (fun st => c ∈ st.handedOf r) := by
  have hhanded : b.LeadsTo (fun st => st.registrationOf c = some r ∧ st.cpuBoundOf r = true)
      (fun st => c ∈ st.handed) := by
    have hplace : b.LeadsTo (fun st => st.registrationOf c = some r ∧ st.cpuBoundOf r = true)
        (fun st => c ∈ st.handed ∨ ∃ q k, ItemAt q k c st) := by
      refine .of_imp ?_
      rintro st hreach ⟨hc, hcpu⟩
      have hordered := (draining_of_reachable hreach).ordered
      have hmem := mem_dispatchedUnder.mpr hc
      -- without a queue nothing was dispatched; with one, what was dispatched is handed over or in it
      by_cases hqueue : ∀ queue ∈ st.queues, queue.registration ≠ r
      · rw [← hordered.fresh r hcpu hqueue] at hmem
        exact Or.inl (List.mem_filter.mp hmem).1
      · push Not at hqueue
        obtain ⟨queue, hqueue, rfl⟩ := hqueue
        obtain ⟨q, hq⟩ := List.getElem?_of_mem hqueue
        rw [← hordered.own q queue hq] at hmem
        rcases List.mem_append.mp hmem with hmem | hmem
        · exact Or.inl (List.mem_filter.mp hmem).1
        · obtain ⟨k, hk⟩ := List.getElem?_of_mem hmem
          exact Or.inr ⟨q, k, queue, hq, hk⟩
    exact hplace.trans (.or (.of_imp fun _ _ h => h) (.of_exists fun q => .of_exists fun k => item_handed hfair q k c))
  -- the call keeps its registration on the way
  have hkept := hhanded.psp (R := fun st => st.registrationOf c = some r ∧ st.cpuBoundOf r = true) (S := fun _ => False)
    fun st event st' hreach h hstep => by
      obtain ⟨hc, hcpu⟩ := h
      obtain ⟨call, hcall, rfl⟩ := Option.map_eq_some_iff.mp hc
      obtain ⟨call', hcall', hr⟩ := call_registration_of_step (draining_of_reachable hreach).owned hcall hstep.1
      obtain ⟨reg, hreg, hbound⟩ := registration_of_cpuBound hcpu
      refine Or.inl ⟨(registrationOf_of_some hcall').trans (congrArg some hr), ?_⟩
      rw [cpuBoundOf_of_some (registration_of_step hreg hstep.1)]
      exact hbound
  refine hkept.mono (fun _ _ h => ⟨h, h⟩) ?_
  rintro st (⟨hmem, hc, -⟩ | h)
  · exact List.mem_filter.mpr ⟨hmem, decide_eq_true hc⟩
  · exact h.elim

end Drain

/-- **The queue of a CPU-bound operator is drained in order, and its deregistration returns**, where every step finds
    the right queue: the executor is given the calls of a registration in the order of their dispatches, each once, a
    deregistration returns after all of them, and where every coroutine goes on each call is handed over and each
    deregistration returns. For the order, dispatched calls are those handed over and then those in the queue, in every
    state; for the rest, the worker goes on, and the place of a call in its queue gets smaller with every one that is
    handed over. -/
theorem cpu_queue_drained :
    (∀ st : Tasks F, (system.restrict (fun st event => drains st event = true)).Reachable st → InOrder st) ∧
    ∀ b : (system.restrict (fun (st : Tasks F) event => drains st event = true)).Behaviour, Fair b →
      (∀ c r, b.LeadsTo (fun st => st.registrationOf c = some r ∧ st.cpuBoundOf r = true)
        (fun st => c ∈ st.handedOf r)) ∧
      ∀ (d : Nat) oid r, b.LeadsTo (fun st => ∃ waiting, st.deregistrations[d]? = some ⟨oid, r, waiting⟩)
        (fun st => st.deregistrations[d]? = some ⟨oid, r, none⟩) := by
  refine ⟨fun st h => inOrder_of_reachable h, fun b hfair => ⟨dispatched_handed hfair, fun d oid r => ?_⟩⟩
  refine .of_exists fun waiting => ?_
  cases waiting with
  | none => exact .of_imp fun _ _ h => h
  | some q => exact waiting_returns hfair d q r oid

/-- A record is dispatched, and the operator is deregistered while the worker is at it. -/
def drainedRun : List (Event ℚ) :=
  [.register "op" true [], .makeQueue 0, .startWorker 0, .dispatch "op", .takeItem 0, .deregister "op",
    .processed 0 (.ok []), .taskDone 0, .joined 0]

theorem cpu_queue_drained_once : ∃ st : Tasks ℚ,
    (st.handed = [0] ∧ st.deregistrations.map (·.waiting) = [none]) ∧ InOrder st := by
  have hrun : (Lts.exec (Lts.guardStep step (fun st event => drains st event = true)) drainedRun
      (Tasks.started : Tasks ℚ)).any
        (fun st => st.handed = [0] ∧ st.deregistrations.map (·.waiting) = [none]) = true := by decide
  obtain ⟨st, hexec, hst⟩ := (Option.any_eq_true _ _).mp hrun
  exact ⟨st, of_decide_eq_true hst, cpu_queue_drained.1 st (Lts.restrict_reachable_of_exec rfl hexec)⟩

/-! ## A queue without a worker

A deregistration that comes before the worker has run takes the queue out of the table under its eyes. From there on
nobody serves it, and the deregistration waits for ever. -/

section Orphaned

variable {st st' : Tasks F} {event : Event F} {d q r : Nat} {oid : String} {queue : WorkQueue}

/-- The queue is out of the table, and no worker has found it. -/
structure Orphaned (q : Nat) (queue : WorkQueue) (st : Tasks F) : Prop where
  queue  : st.queues[q]? = some queue
  table  : ∀ oid, st.workerQueues.get oid ≠ some q
  worker : ¬ st.Served q

theorem Orphaned.step (h : Orphaned q queue st) (hstep : st.step event = some st') : Orphaned q queue st' := by
  refine ⟨?_, ?_, ?_⟩
  · rcases queue_of_step h.queue hstep with hq | ⟨oid, htable, -⟩ | ⟨w, oid, c, items, hw, -⟩ | ⟨w, oid, c, hw, -⟩
    · exact hq
    · exact absurd htable (h.table oid)
    · exact absurd ⟨w, _, hw, rfl⟩ h.worker
    · exact absurd ⟨w, _, hw, rfl⟩ h.worker
  · intro oid hget
    rcases table_of_step hstep hget with hget | rfl
    · exact h.table oid hget
    · exact Nat.lt_irrefl _ (lt_length_of_getElem? h.queue)
  · rintro ⟨w, worker', hw', hq⟩
    rcases worker_queue_before hstep hw' hq with ⟨worker, hw, hq⟩ | ⟨oid, hget⟩
    · exact h.worker ⟨w, worker, hw, hq⟩
    · exact h.table oid hget

/-- **A queue that has left the table before its worker looked it up stays as it is, and a deregistration that waits
    for it does so for ever.** -/
theorem orphaned_of_run (h : Orphaned q queue st) (hunfinished : queue.unfinished ≠ 0)
    (hd : st.deregistrations[d]? = some ⟨oid, r, some q⟩) {events : List (Event F)} (hrun : system.Run st events st') :
    Orphaned q queue st' ∧ st'.deregistrations[d]? = some ⟨oid, r, some q⟩ := by
  refine hrun.invariant (I := fun st => Orphaned q queue st ∧ st.deregistrations[d]? = some ⟨oid, r, some q⟩) ?_ ⟨h, hd⟩
  rintro st event st' ⟨h, hd⟩ hstep
  refine ⟨h.step hstep, deregistration_of_other_step hd hstep fun hevent => ?_⟩
  obtain rfl := Event.eq_joined hevent
  obtain ⟨oid', r', q', hd', hzero, -⟩ := joined_eq_some hstep
  rw [hd] at hd'
  cases hd'
  rw [unfinished_of_some h.queue] at hzero
  exact hunfinished hzero

end Orphaned

/-- A record was dispatched and the operator deregistered before the worker has run. -/
def tooLate : Tasks ℚ where
  registrations   := [⟨"op", true, []⟩]
  operators       := ∅
  outputRoutes    := Dict.set ∅ "op" []
  workerQueues    := ∅
  queues          := [⟨"op", 0, [0], 1⟩]
  workers         := [⟨"op", .created⟩]
  calls           := [⟨"op", 0, [], .queued⟩]
  deregistrations := [⟨"op", 0, some 0⟩]
  handed          := []
  sends           := []

/-- However the run goes on, the deregistration does not return, and the record stays where it is. -/
theorem deregistration_hangs : system.Reachable tooLate ∧
    ∀ events st, system.Run tooLate events st →
      st.deregistrations[0]? = some ⟨"op", 0, some 0⟩ ∧ st.queues[0]? = some ⟨"op", 0, [0], 1⟩ := by
  have hexec : Lts.exec step [.register "op" true [], .makeQueue 0, .dispatch "op", .deregister "op"]
      (Tasks.started : Tasks ℚ) = some tooLate := rfl
  have horphaned : Orphaned 0 ⟨"op", 0, [0], 1⟩ tooLate := by
    refine ⟨rfl, fun oid hget => ?_, ?_⟩
    · cases hget
    · rintro ⟨w, worker, hw, hq⟩
      obtain rfl := List.mem_singleton.mp (List.mem_of_getElem? hw)
      cases hq
  refine ⟨Lts.reachable_of_exec rfl hexec, fun events st hrun => ?_⟩
  obtain ⟨hqueue, hd⟩ := orphaned_of_run (d := 0) (r := 0) horphaned Nat.one_ne_zero rfl hrun
  exact ⟨hd, hqueue.queue⟩

end Tasks
end Hea
end HybridStream
