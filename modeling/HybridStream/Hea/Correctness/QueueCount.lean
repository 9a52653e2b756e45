import HybridStream.Hea.Correctness.QueueOrder

/-!
# `Hea.Correctness.QueueCount` — a deregistration returns after all calls

The count of a queue is that of its items and of the workers at one (`Counted`), so that `q.join()` returns when every
call of the registration has ended (`Closed`). A queue with items has a worker, or one that will find it (`Attended`).
With `Ordered` this is what holds along the runs that find the right queues (`Draining`), and it gives the order in
which the calls are handed over (`inOrder_of_reachable`).
-/

namespace HybridStream
namespace Hea
namespace Tasks

open Lib Py

variable {F : Type}

/-! ## What the count of a queue counts

`unfinished` goes up with a dispatch and down when a worker is done, so it is the number of items and of workers at
one. That it is zero exactly when every call has ended is what `q.join()` is waited for. -/

/-- The worker is at an item of the queue. -/
def WorkerPhase.busyOn (q : Nat) : WorkerPhase → Bool
  | .busy q' _ => q' = q
  | _          => false

/-- How many workers are at an item of the queue. -/
def busyCount (workers : List Worker) (q : Nat) : Nat := workers.countP (fun worker => worker.phase.busyOn q)

/-- The count of a queue is that of its items and of the workers at one, and what was handed over has ended or is with
    a worker. -/
structure Counted (st : Tasks F) : Prop where
  count  : ∀ (q : Nat) queue, st.queues[q]? = some queue →
    queue.unfinished = queue.items.length + busyCount st.workers q
  busy   : ∀ (w q c : Nat) oid, st.workers[w]? = some ⟨oid, .busy q c⟩ → c ∈ st.handed ∧
    ∃ queue, st.queues[q]? = some queue ∧ st.registrationOf c = some queue.registration
  handed : ∀ c ∈ st.handed, ∃ call, st.calls[c]? = some call ∧ call.phase ≠ .queued ∧ call.phase ≠ .dropped ∧
    (call.phase = .ended ∨ ∃ (w q : Nat) (oid : String), st.workers[w]? = some ⟨oid, .busy q c⟩)

namespace Counted

variable {st st' : Tasks F} {oid : String} {c w d q r : Nat}

theorem started : Counted (started : Tasks F) := by
  constructor
  · rintro q queue ⟨⟩
  · rintro w q c oid ⟨⟩
  · rintro c ⟨⟩

/-- Tables do not enter. -/
theorem of_eq (h : Counted st) (hqueues : st'.queues = st.queues) (hworkers : st'.workers = st.workers)
    (hcalls : st'.calls = st.calls) (hhanded : st'.handed = st.handed) : Counted st' := by
  have hregistrationOf : st'.registrationOf = st.registrationOf := by
    unfold registrationOf
    rw [hcalls]
  constructor
  · rw [hqueues, hworkers]
    exact h.count
  · rw [hworkers, hhanded, hqueues, hregistrationOf]
    exact h.busy
  · rw [hhanded, hcalls, hworkers]
    exact h.handed

/-- No worker is at an item of a queue that does not exist. -/
theorem busyCount_eq_zero (h : Counted st) (hq : st.queues[q]? = none) :
    busyCount st.workers q = 0 := by
  refine List.countP_eq_zero.mpr fun worker hmem => ?_
  obtain ⟨w, hw⟩ := List.getElem?_of_mem hmem
  obtain ⟨oid, phase⟩ := worker
  cases phase with
  | busy q' c =>
      intro hbusy
      obtain rfl : q' = q := of_decide_eq_true hbusy
      obtain ⟨-, queue, hqueue, -⟩ := h.busy w q' c oid hw
      rw [hq] at hqueue
      cases hqueue
  | created | polling | dead => exact nofun

theorem makeQueue (h : Counted st) (hstep : st.makeQueue r = some st') : Counted st' := by
  obtain ⟨oid, topics, -, -, rfl⟩ := makeQueue_eq_some hstep
  have hcount : ∀ q, busyCount (st.workers ++ [⟨oid, .created⟩]) q = busyCount st.workers q :=
    fun q => List.countP_append
  have hbusy : ∀ {w q c : Nat} {oid'}, (st.workers ++ [⟨oid, .created⟩])[w]? = some ⟨oid', .busy q c⟩ →
      st.workers[w]? = some ⟨oid', .busy q c⟩ := by
    intro w q c oid' hw
    rcases getElem?_concat_eq_some.mp hw with hw | ⟨-, heq⟩
    · exact hw
    · cases heq
  constructor
  · intro q queue hq
    rw [hcount]
    rcases getElem?_concat_eq_some.mp hq with hq | ⟨rfl, rfl⟩
    · exact h.count q queue hq
    · show 0 = 0 + busyCount st.workers st.queues.length
      rw [h.busyCount_eq_zero (List.getElem?_eq_none (Nat.le_refl _))]
  · intro w q c oid' hw
    obtain ⟨hmem, hqueue⟩ := h.busy w q c oid' (hbusy hw)
    exact ⟨hmem, exists_getElem?_concat hqueue _⟩
  · intro c hc
    obtain ⟨call, hcall, hqueued, hdropped, hended⟩ := h.handed c hc
    refine ⟨call, hcall, hqueued, hdropped, hended.imp_right ?_⟩
    rintro ⟨w, q, oid', hw⟩
    exact ⟨w, q, oid', getElem?_concat_of_some hw _⟩

/-- A call is added. -/
theorem addCall (h : Counted st) (call : Call F) : Counted { st with calls := st.calls ++ [call] } := by
  refine ⟨h.count, ?_, ?_⟩
  · intro w q c oid hw
    obtain ⟨hmem, queue, hq, hr⟩ := h.busy w q c oid hw
    obtain ⟨call', hc, -⟩ := h.handed c hmem
    exact ⟨hmem, queue, hq, (registrationOf_addCall rfl (lt_length_of_getElem? hc)).trans hr⟩
  · intro c hc
    obtain ⟨call', hcall', hphase⟩ := h.handed c hc
    exact ⟨call', getElem?_concat_of_some hcall' _, hphase⟩

/-- A queue and its count are replaced. -/
theorem setQueue (h : Counted st) {queue queue' : WorkQueue} (hq : st.queues[q]? = some queue)
    (hr : queue'.registration = queue.registration)
    (hcount : queue'.unfinished + queue.items.length = queue.unfinished + queue'.items.length) :
    Counted { st with queues := st.queues.set q queue' } := by
  refine ⟨?_, ?_, h.handed⟩
  · intro q' queue₁ hq'
    rcases (getElem?_set_eq_some hq).mp hq' with ⟨rfl, rfl⟩ | ⟨-, hq'⟩
    · have hold := h.count _ queue hq
      show queue₁.unfinished = queue₁.items.length + busyCount st.workers q'
      omega
    · exact h.count q' queue₁ hq'
  · intro w q' c oid hw
    obtain ⟨hmem, hqueue⟩ := h.busy w q' c oid hw
    refine ⟨hmem, exists_getElem?_set hq (fun h => ?_) hqueue⟩
    rw [hr]
    exact h

theorem dispatch (h : Counted st) (oid : String) : Counted (st.dispatch oid) := by
  rcases dispatch_cases st oid with ⟨-, heq⟩ | ⟨r, -, ⟨q, queue, -, -, hq, heq⟩ | ⟨-, -, heq⟩ | ⟨-, heq⟩⟩
  · rw [heq]
    exact h
  · rw [heq]
    refine (h.addCall _).setQueue hq rfl ?_
    simp only [List.length_append, List.length_singleton]
    omega
  · rw [heq]
    exact h.addCall _
  · rw [heq]
    exact h.addCall _

/-- A call that a worker is at moves on. -/
theorem setCall (h : Counted st) {call call' : Call F} (hc : st.calls[c]? = some call)
    (hr : call'.registration = call.registration) (hended : call.phase ≠ .ended) (hqueued : call'.phase ≠ .queued)
    (hdropped : call'.phase ≠ .dropped) : Counted { st with calls := st.calls.set c call' } := by
  refine ⟨h.count, ?_, ?_⟩
  · intro w q c' oid hw
    obtain ⟨hmem, queue, hq, hr'⟩ := h.busy w q c' oid hw
    exact ⟨hmem, queue, hq, (registrationOf_congr (map_set_of_eq hc hr) c').trans hr'⟩
  · intro c' hmem
    obtain ⟨call₁, hc', hqueued₁, hdropped₁, hended₁⟩ := h.handed c' hmem
    by_cases heq : c' = c
    · subst heq
      rw [hc] at hc'
      cases hc'
      exact ⟨call', (getElem?_set_eq_some hc).mpr (Or.inl ⟨rfl, rfl⟩), hqueued, hdropped,
        Or.inr (hended₁.resolve_left hended)⟩
    · exact ⟨call₁, (getElem?_set_eq_some hc).mpr (Or.inr ⟨heq, hc'⟩), hqueued₁, hdropped₁, hended₁⟩

theorem processed (h : Counted st) {result : Except PyError (List (Record F))}
    (hstep : st.processed c result = some st') : Counted st' := by
  obtain ⟨oid, r, outputs, emitAs, hc, rfl⟩ := processed_eq_some hstep
  exact h.setCall hc rfl nofun (Phase.emit_ne_queued _) (Phase.emit_ne_dropped _)

theorem send (h : Counted st) {accepted : Bool} (hstep : st.send c accepted = some st') : Counted st' := by
  obtain ⟨oid, r, outputs, payload, pending, hc, ⟨-, rfl⟩ | ⟨-, rfl⟩⟩ := send_eq_some hstep
  · have hcall : Counted { st with calls := st.calls.set c ⟨oid, r, outputs, .emit pending⟩ } :=
      h.setCall hc rfl nofun (Phase.emit_ne_queued _) (Phase.emit_ne_dropped _)
    exact hcall.of_eq rfl rfl rfl rfl
  · exact h.setCall hc rfl nofun nofun nofun

/-- A worker that is at no item moves on to none. -/
theorem setIdle (h : Counted st) {worker worker' : Worker} (hw : st.workers[w]? = some worker)
    (hidle : ∀ q, worker.phase.busyOn q = false) (hidle' : ∀ q, worker'.phase.busyOn q = false) :
    Counted { st with workers := st.workers.set w worker' } := by
  refine ⟨?_, ?_, ?_⟩
  · intro q queue hq
    have hcount : busyCount (st.workers.set w worker') q = busyCount st.workers q :=
      countP_set_of_eq hw ((hidle' q).trans (hidle q).symm)
    rw [hcount]
    exact h.count q queue hq
  · intro w' q c oid hw'
    rcases (getElem?_set_eq_some hw).mp hw' with ⟨-, rfl⟩ | ⟨-, hw'⟩
    · exact absurd ((decide_eq_true rfl).symm.trans (hidle' q)) nofun
    · exact h.busy w' q c oid hw'
  · intro c hc
    obtain ⟨call, hcall, hqueued, hdropped, hended⟩ := h.handed c hc
    refine ⟨call, hcall, hqueued, hdropped, hended.imp_right ?_⟩
    rintro ⟨w', q, oid, hw'⟩
    refine ⟨w', q, oid, (getElem?_set_eq_some hw).mpr (Or.inr ⟨?_, hw'⟩)⟩
    rintro rfl
    rw [hw] at hw'
    cases hw'
    exact absurd ((decide_eq_true rfl).symm.trans (hidle q)) nofun

theorem startWorker (h : Counted st) (hstep : st.startWorker w = some st') : Counted st' := by
  obtain ⟨oid, hw, ⟨q, -, rfl⟩ | ⟨-, rfl⟩⟩ := startWorker_eq_some hstep
  · exact h.setIdle hw (fun _ => rfl) fun _ => rfl
  · exact h.setIdle hw (fun _ => rfl) fun _ => rfl

theorem takeItem (h : Counted st) (hordered : Ordered st) (hstep : st.takeItem w = some st') : Counted st' := by
  obtain ⟨oid, q, queue, c, items, call, hw, hq, hitems, hc, rfl⟩ := takeItem_eq_some hstep
  have hr : st.registrationOf c = some queue.registration :=
    hordered.registrationOf_item hq (by rw [hitems]; exact List.mem_cons_self)
  have hself : (st.workers.set w ⟨oid, .busy q c⟩)[w]? = some ⟨oid, .busy q c⟩ :=
    (getElem?_set_eq_some hw).mpr (Or.inl ⟨rfl, rfl⟩)
  refine ⟨?_, ?_, ?_⟩
  · intro q' queue' hq'
    -- the worker is now busy on this queue: one item less, one worker more
    have hcount := countP_set_add (a := ⟨oid, .busy q c⟩) (p := fun worker => worker.phase.busyOn q') hw
    have hcount : busyCount (st.workers.set w ⟨oid, .busy q c⟩) q' =
        busyCount st.workers q' + if decide (q = q') then 1 else 0 := hcount
    show queue'.unfinished = queue'.items.length + busyCount (st.workers.set w ⟨oid, .busy q c⟩) q'
    rw [hcount]
    rcases (getElem?_set_eq_some hq).mp hq' with ⟨rfl, rfl⟩ | ⟨hne, hq'⟩
    · have hold := h.count _ queue hq
      rw [hitems, List.length_cons] at hold
      rw [decide_eq_true rfl, if_pos rfl]
      show queue.unfinished = items.length + (busyCount st.workers _ + 1)
      omega
    · rw [decide_eq_false (Ne.symm hne)]
      exact h.count q' queue' hq'
  -- the worker has the item, whose registration is the queue's
  · intro w' q' c' oid' hw'
    have hcalls : (st.calls.set c { call with phase := .processing oid }).map (·.registration) =
        st.calls.map (·.registration) := map_set_of_eq hc rfl
    have hregistrationOf : registrationOf { st with
        queues  := st.queues.set q { queue with items := items }
        workers := st.workers.set w ⟨oid, .busy q c⟩
        calls   := st.calls.set c { call with phase := .processing oid }
        handed  := st.handed ++ [c] } c' = st.registrationOf c' := registrationOf_congr hcalls c'
    rw [hregistrationOf]
    rcases (getElem?_set_eq_some hw).mp hw' with ⟨-, heq⟩ | ⟨-, hw'⟩
    · cases heq
      exact ⟨List.mem_append_right _ (List.mem_singleton_self c),
        exists_getElem?_set hq id ⟨queue, hq, hr⟩⟩
    · obtain ⟨hmem, hqueue⟩ := h.busy w' q' c' oid' hw'
      exact ⟨List.mem_append_left _ hmem, exists_getElem?_set hq id hqueue⟩
  -- what has been handed over is this call, or was before
  · intro c' hc'
    by_cases heq : c' = c
    · subst heq
      exact ⟨_, (getElem?_set_eq_some hc).mpr (Or.inl ⟨rfl, rfl⟩), nofun, nofun, Or.inr ⟨w, q, oid, hself⟩⟩
    · have hmem : c' ∈ st.handed := (List.mem_append.mp hc').resolve_right fun h => heq (List.mem_singleton.mp h)
      obtain ⟨call', hcall', hqueued, hdropped, hended⟩ := h.handed c' hmem
      refine ⟨call', (getElem?_set_eq_some hc).mpr (Or.inr ⟨heq, hcall'⟩), hqueued, hdropped, hended.imp_right ?_⟩
      rintro ⟨w', q', oid', hw'⟩
      refine ⟨w', q', oid', (getElem?_set_eq_some hw).mpr (Or.inr ⟨?_, hw'⟩)⟩
      rintro rfl
      rw [hw] at hw'
      cases hw'

theorem taskDone (h : Counted st) (hstep : st.taskDone w = some st') : Counted st' := by
  obtain ⟨oid, q, c, queue, oid', r, outputs, hw, hq, hc, rfl⟩ := taskDone_eq_some hstep
  refine ⟨?_, ?_, ?_⟩
  -- the worker is not busy on this queue any more, which makes up for the one that is counted down
  · intro q' queue' hq'
    have hcount := countP_set_add (a := ⟨oid, .polling q⟩) (p := fun worker => worker.phase.busyOn q') hw
    have hcount : busyCount (st.workers.set w ⟨oid, .polling q⟩) q' + (if decide (q = q') then 1 else 0) =
        busyCount st.workers q' := hcount
    show queue'.unfinished = queue'.items.length + busyCount (st.workers.set w ⟨oid, .polling q⟩) q'
    rcases (getElem?_set_eq_some hq).mp hq' with ⟨rfl, rfl⟩ | ⟨hne, hq'⟩
    · have hold := h.count _ queue hq
      rw [decide_eq_true rfl, if_pos rfl] at hcount
      show queue.unfinished - 1 = queue.items.length + busyCount (st.workers.set w ⟨oid, .polling _⟩) _
      omega
    · rw [decide_eq_false (Ne.symm hne)] at hcount
      have hold := h.count q' queue' hq'
      rw [← hcount] at hold
      exact hold
  · intro w' q' c' oid₁ hw'
    rcases (getElem?_set_eq_some hw).mp hw' with ⟨-, heq⟩ | ⟨-, hw'⟩
    · cases heq
    · obtain ⟨hmem, hqueue⟩ := h.busy w' q' c' oid₁ hw'
      exact ⟨hmem, exists_getElem?_set hq id hqueue⟩
  -- what was handed over stays so; only the worker that had it may be another matter
  · intro c' hmem
    obtain ⟨call', hcall', hqueued, hdropped, hended⟩ := h.handed c' hmem
    refine ⟨call', hcall', hqueued, hdropped, ?_⟩
    rcases hended with hended | ⟨w', q', oid₁, hw'⟩
    · exact Or.inl hended
    · by_cases heq : w' = w
      · -- the item of this worker has ended
        subst heq
        rw [hw] at hw'
        cases hw'
        rw [hc] at hcall'
        cases hcall'
        exact Or.inl rfl
      · exact Or.inr ⟨w', q', oid₁, (getElem?_set_eq_some hw).mpr (Or.inr ⟨heq, hw'⟩)⟩

theorem step (h : Counted st) (hordered : Ordered st) {event : Event F} (hstep : st.step event = some st') :
    Counted st' := by
  cases event with
  | register oid cpuBound outputTopics =>
      cases hstep
      exact h.of_eq rfl rfl rfl rfl
  | makeQueue r => exact h.makeQueue hstep
  | dispatch oid =>
      cases hstep
      exact h.dispatch oid
  | processed c result => exact h.processed hstep
  | send c accepted => exact h.send hstep
  | startWorker w => exact h.startWorker hstep
  | takeItem w => exact h.takeItem hordered hstep
  | taskDone w => exact h.taskDone hstep
  | deregister oid =>
      cases hstep
      exact h.of_eq (by simp) (by simp) (by simp) (by simp)
  | joined d =>
      obtain ⟨oid, r, q, -, -, rfl⟩ := joined_eq_some hstep
      exact h.of_eq rfl rfl rfl rfl

end Counted

/-! ## A queue with items has a worker, or will

A queue leaves the table with its operator. It is served from then on only if its worker had found it by then, which
is what the guard asks for. -/

/-- A queue that is in the table or has items is served, or it is in the table under the id of a worker that is still
    to look it up. -/
def Attended (st : Tasks F) : Prop :=
  ∀ (q : Nat) queue, st.queues[q]? = some queue → (queue.items ≠ [] ∨ ∃ oid, st.workerQueues.get oid = some q) →
    st.Served q ∨ ∃ (oid : String) (w : Nat), st.workerQueues.get oid = some q ∧ st.workers[w]? = some ⟨oid, .created⟩

section Attended

variable {st st' : Tasks F} {event : Event F} {oid : String} {q : Nat}

theorem Served.step (h : st.Served q) (hstep : st.step event = some st') : st'.Served q := by
  obtain ⟨w, worker, hw, hq⟩ := h
  obtain ⟨worker', hw', hq'⟩ := worker_queue_of_step hw hq hstep
  exact ⟨w, worker', hw', hq'⟩

/-- A queue leaves the table as it is, and empty or served. -/
theorem table_of_drains (hstep : st.step event = some st') (hdrains : drains st event = true)
    (hq : st.workerQueues.get oid = some q) :
    st'.workerQueues.get oid = some q ∨
    ((∀ queue, st.queues[q]? = some queue → st'.queues[q]? = some queue) ∧
      ((∀ queue, st.queues[q]? = some queue → queue.items = []) ∨ st.Served q)) := by
  rcases tables_of_step hstep with ⟨-, -, heq, -⟩ | ⟨reg, -, -, -, heq, -⟩ |
    ⟨r, oid', topics, rfl, hr, -, -, heq, hqueues, -⟩ | ⟨oid', r, rfl, hr, -, -, heq, hqueues, -⟩
  · rw [heq]
    exact Or.inl hq
  · rw [heq]
    exact Or.inl hq
  · by_cases hne : oid = oid'
    · subst hne
      unfold drains at hdrains
      simp only [hr, Option.all_some] at hdrains
      refine Or.inr ⟨fun queue hqueue => ?_, canDrain_iff.mp hdrains q hq⟩
      rw [hqueues]
      exact getElem?_concat_of_some hqueue _
    · rw [heq, Dict.get_set, if_neg hne]
      exact Or.inl hq
  · by_cases hne : oid = oid'
    · subst hne
      unfold drains at hdrains
      simp only [hr, Option.all_some, Bool.and_eq_true] at hdrains
      refine Or.inr ⟨fun queue hqueue => ?_, canDrain_iff.mp hdrains.1 q hq⟩
      rw [hqueues]
      exact hqueue
    · rw [heq, Dict.get_pop, if_neg hne]
      exact Or.inl hq

/-- A queue that is in the table or has items was so before. -/
theorem attended_before (hstep : st.step event = some st') {queue queue' : WorkQueue}
    (hq : st.queues[q]? = some queue) (hq' : st'.queues[q]? = some queue')
    (h : queue'.items ≠ [] ∨ ∃ oid, st'.workerQueues.get oid = some q) :
    queue.items ≠ [] ∨ ∃ oid, st.workerQueues.get oid = some q := by
  rcases h with hitems | ⟨oid, htable⟩
  · rcases queue_of_step hq hstep with hsame | ⟨oid, htable, -⟩ | ⟨w, oid, c, items, -, hcons, -⟩ |
      ⟨w, oid, c, -, hdone⟩
    · rw [hsame] at hq'
      cases hq'
      exact Or.inl hitems
    · exact Or.inr ⟨oid, htable⟩
    · exact Or.inl (by rw [hcons]; exact List.cons_ne_nil _ _)
    · rw [hdone] at hq'
      cases hq'
      exact Or.inl hitems
  · rcases table_of_step hstep htable with htable | rfl
    · exact Or.inr ⟨oid, htable⟩
    · exact absurd (lt_length_of_getElem? hq) (Nat.lt_irrefl _)

/-- A queue that is new is in the table under the id of its worker. -/
theorem attended_new (hstep : st.step event = some st') {queue : WorkQueue} (hq : st.queues[q]? = none)
    (hq' : st'.queues[q]? = some queue) :
    ∃ (oid : String) (w : Nat), st'.workerQueues.get oid = some q ∧ st'.workers[w]? = some ⟨oid, .created⟩ := by
  have hge := List.getElem?_eq_none_iff.mp hq
  have hlt := lt_length_of_getElem? hq'
  rcases tables_of_step hstep with ⟨-, -, -, hlength, -⟩ | ⟨reg, -, -, -, -, hqueues, -⟩ |
    ⟨r, oid, topics, -, -, -, -, htable, hqueues, hworkers⟩ | ⟨oid, r, -, -, -, -, -, hqueues, -⟩
  · omega
  · rw [hqueues] at hlt
    omega
  · rw [hqueues, List.length_append, List.length_singleton] at hlt
    obtain rfl : q = st.queues.length := by omega
    refine ⟨oid, st.workers.length, ?_, ?_⟩
    · rw [htable, Dict.get_set_self]
    · rw [hworkers]
      exact getElem?_concat_self _ _
  · rw [hqueues] at hlt
    omega

theorem Attended.step (h : Attended st) (howned : Owned st) (hstep : st.step event = some st')
    (hdrains : drains st event = true) : Attended st' := by
  intro q queue' hq' hneeded
  cases hq : st.queues[q]? with
  | none => exact Or.inr (attended_new hstep hq hq')
  | some queue =>
      rcases h q queue hq (attended_before hstep hq hq' hneeded) with hserved | ⟨oid, w, htable, hw⟩
      · exact Or.inl (hserved.step hstep)
      · by_cases hevent : event.coroutine = some (.worker w)
        · -- the worker looks its queue up
          rcases worker_of_coroutine hw hstep hevent with ⟨-, ⟨q', htable', hw'⟩ | ⟨hnone, -⟩⟩ |
            ⟨q', queue', c, items, hphase, -⟩ | ⟨q', c, queue', hphase, -⟩
          · rw [htable] at htable'
            cases htable'
            exact Or.inl ⟨w, _, hw', rfl⟩
          · rw [htable] at hnone
            cases hnone
          · cases hphase
          · cases hphase
        · have hw' := worker_of_other_step hw hstep hevent
          rcases table_of_drains hstep hdrains htable with htable' | ⟨hsame, hempty | hserved⟩
          · exact Or.inr ⟨oid, w, htable', hw'⟩
          · rw [hsame queue hq] at hq'
            cases hq'
            obtain ⟨oid', htable'⟩ := hneeded.resolve_left (not_not.mpr (hempty _ hq))
            -- it is still in the table, under its own id
            rcases table_of_step hstep htable' with htable₁ | rfl
            · obtain rfl := howned.table_inj htable htable₁
              exact Or.inr ⟨oid, w, htable', hw'⟩
            · exact absurd (lt_length_of_getElem? hq) (Nat.lt_irrefl _)
          · exact Or.inl (hserved.step hstep)

end Attended

/-! ## A deregistration returns after all calls

The calls of a registration that is out of the table are no more than they were, and its `join` returns when the count
of its queue is down. -/

section Ended

variable {st st' : Tasks F} {event : Event F} {q r : Nat}

/-- A registration that is no longer in the table has no new calls. -/
theorem AllEnded.step (h : AllEnded st r) (howned : Owned st) (hgone : ∀ oid, st.operators.get oid ≠ some r)
    (hstep : st.step event = some st') : AllEnded st' r := by
  intro c call' hc' hr
  cases hc : st.calls[c]? with
  | none =>
      obtain ⟨oid, hget⟩ := operator_of_newCall hc hstep hc'
      rw [hr] at hget
      exact absurd hget (hgone oid)
  | some call =>
      obtain ⟨call₁, hc₁, hr₁⟩ := call_registration_of_step howned hc hstep
      rw [hc'] at hc₁
      cases hc₁
      have hended := h c call hc (hr₁.symm.trans hr)
      rw [ended_of_step howned hc hended hstep] at hc'
      cases hc'
      exact hended

/-- `q.join()` returns when every call of the registration of the queue has ended. -/
theorem allEnded_of_unfinished (hordered : Ordered st) (hcounted : Counted st) {queue : WorkQueue}
    (hq : st.queues[q]? = some queue) (hzero : queue.unfinished = 0) : AllEnded st queue.registration := by
  have hcount := hcounted.count q queue hq
  have hitems : queue.items = [] := List.eq_nil_of_length_eq_zero (by omega)
  have hbusy : busyCount st.workers q = 0 := by omega
  intro c call hc hr
  -- nothing waits, so the call was handed over
  have hown := hordered.own q queue hq
  rw [hitems, List.append_nil] at hown
  have hmem : c ∈ st.handedOf queue.registration := by
    rw [hown, mem_dispatchedUnder, registrationOf_of_some hc, hr]
  obtain ⟨call', hc', -, -, hended⟩ := hcounted.handed c (List.mem_filter.mp hmem).1
  rw [hc] at hc'
  cases hc'
  refine hended.resolve_right ?_
  rintro ⟨w, q', oid, hw⟩
  obtain ⟨-, queue', hq', hr'⟩ := hcounted.busy w q' c oid hw
  rw [registrationOf_of_some hc, hr] at hr'
  obtain rfl := hordered.unique q q' queue queue' hq hq' (Option.some.inj hr')
  exact List.countP_eq_zero.mp hbusy _ (List.mem_of_getElem? hw) (decide_eq_true rfl)

/-- Where all calls have ended, all were handed over. -/
theorem handedOf_of_allEnded (howned : Owned st) (hordered : Ordered st) (hcpu : st.cpuBoundOf r = true)
    (h : AllEnded st r) : st.handedOf r = st.dispatchedUnder r := by
  by_cases hqueue : ∀ queue ∈ st.queues, queue.registration ≠ r
  · exact hordered.fresh r hcpu hqueue
  · push Not at hqueue
    obtain ⟨queue, hmem, rfl⟩ := hqueue
    obtain ⟨q, hq⟩ := List.getElem?_of_mem hmem
    have hitems : queue.items = [] := by
      refine List.eq_nil_iff_forall_not_mem.mpr fun c hc => ?_
      obtain ⟨call, hcall, -, hqueued⟩ := howned.item q queue c hq hc
      have hr := hordered.registrationOf_item hq hc
      rw [registrationOf_of_some hcall] at hr
      rw [h c call hcall (Option.some.inj hr)] at hqueued
      cases hqueued
    have hown := hordered.own q queue hq
    rw [hitems, List.append_nil] at hown
    exact hown

end Ended

/-- The registration is out of the table, and its calls have ended or its deregistration waits for its queue, which is
    out of the table too. -/
structure Closed (st : Tasks F) (dereg : Deregistration) : Prop where
  registered : ∃ reg, st.registrations[dereg.registration]? = some reg
  gone       : ∀ oid, st.operators.get oid ≠ some dereg.registration
  returned   : dereg.waiting = none → st.cpuBoundOf dereg.registration = true → AllEnded st dereg.registration
  waiting    : ∀ q, dereg.waiting = some q → (∀ oid, st.workerQueues.get oid ≠ some q) ∧
    ∃ queue, st.queues[q]? = some queue ∧
      (st.cpuBoundOf dereg.registration = true →
        queue.registration = dereg.registration ∨ AllEnded st dereg.registration)

namespace Closed

variable {st st' : Tasks F} {event : Event F} {dereg : Deregistration} {oid : String} {q r : Nat}

theorem step (h : Closed st dereg) (howned : Owned st) (hstep : st.step event = some st') : Closed st' dereg := by
  obtain ⟨reg, hr⟩ := h.registered
  have hr' := registration_of_step hr hstep
  have hcpu : st'.cpuBoundOf dereg.registration = st.cpuBoundOf dereg.registration :=
    (cpuBoundOf_of_some hr').trans (cpuBoundOf_of_some hr).symm
  have hended : AllEnded st dereg.registration → AllEnded st' dereg.registration :=
    fun hended => hended.step howned h.gone hstep
  refine ⟨⟨reg, hr'⟩, ?_, ?_, ?_⟩
  · intro oid hget
    rcases operator_of_step hstep hget with hget | heq
    · exact h.gone oid hget
    · rw [heq] at hr
      exact Nat.lt_irrefl _ (lt_length_of_getElem? hr)
  · rw [hcpu]
    exact fun hwaiting hcpu => hended (h.returned hwaiting hcpu)
  · intro q hwaiting
    rw [hcpu]
    obtain ⟨htable, queue, hq, hown⟩ := h.waiting q hwaiting
    obtain ⟨queue', hq', hr₁⟩ := queue_registration_of_step hq hstep
    refine ⟨fun oid hget => ?_, queue', hq', fun hcpu => (hown hcpu).imp hr₁.trans hended⟩
    rcases table_of_step hstep hget with hget | rfl
    · exact htable oid hget
    · exact Nat.lt_irrefl _ (lt_length_of_getElem? hq)

/-- The queue it waits for is done. -/
theorem join (h : Closed st dereg) (hordered : Ordered st) (hcounted : Counted st) (hq : dereg.waiting = some q)
    (hzero : st.unfinished q = 0) : Closed st { dereg with waiting := none } := by
  refine ⟨h.registered, h.gone, ?_, nofun⟩
  intro _ hcpu
  obtain ⟨-, queue, hqueue, hown⟩ := h.waiting q hq
  rw [unfinished_of_some hqueue] at hzero
  rcases hown hcpu with hr | hended
  · have hended := allEnded_of_unfinished hordered hcounted hqueue hzero
    rw [hr] at hended
    exact hended
  · exact hended

/-- A deregistration that begins finds the queue of its registration, or all calls ended. -/
theorem of_deregister (howned : Owned st) (hordered : Ordered st) (hcounted : Counted st)
    (hstep : st.step (.deregister oid) = some st') (hdrains : drains st (.deregister oid) = true) {waiting : Option Nat}
    (hr : st.operators.get oid = some r) (hoperators : st'.operators = st.operators.pop oid)
    (htables : st'.workerQueues = st.workerQueues.pop oid) (hcalls : st'.calls = st.calls)
    (hwaiting : (∃ q, st.workerQueues.get oid = some q ∧ waiting = some q) ∨
      ((∀ q, st.workerQueues.get oid = some q → st.unfinished q = 0) ∧ waiting = none)) :
    Closed st' ⟨oid, r, waiting⟩ := by
  obtain ⟨reg, hreg, -⟩ := howned.operator oid r hr
  have hreg' := registration_of_step hreg hstep
  have hcpuBound : st'.cpuBoundOf r = st.cpuBoundOf r := (cpuBoundOf_of_some hreg').trans (cpuBoundOf_of_some hreg).symm
  have hended : AllEnded st r → AllEnded st' r := by
    unfold AllEnded
    rw [hcalls]
    exact id
  -- what the guard on the step has checked: the right queue is there, or there is nothing left to process
  have hfound : st.cpuBoundOf r = true → (∃ q queue, st.workerQueues.get oid = some q ∧
      st.queues[q]? = some queue ∧ queue.registration = r) ∨ AllEnded st r := by
    intro hcpu
    unfold drains at hdrains
    simp only [hr, Option.all_some, Bool.and_eq_true, hcpu, Bool.not_true, Bool.false_or, Bool.or_eq_true] at hdrains
    exact hdrains.2.imp hasQueueOf_iff.mp allEnded_iff.mp
  refine ⟨⟨reg, hreg'⟩, ?_, ?_, ?_⟩
  -- no entry of the table can name the registration any more
  · intro oid' hget
    rw [hoperators] at hget
    obtain ⟨hne, hget⟩ := Dict.get_of_get_pop hget
    exact hne (howned.operator_inj hget hr)
  -- nothing to wait for: the queue had nothing unfinished, so all its calls have ended
  · rintro rfl hcpu
    obtain ⟨hzero, -⟩ := hwaiting.resolve_left (by rintro ⟨q, -, ⟨⟩⟩)
    rcases hfound (hcpuBound ▸ hcpu) with ⟨q, queue, htable, hq, rfl⟩ | hall
    · have hzero := hzero q htable
      rw [unfinished_of_some hq] at hzero
      exact hended (allEnded_of_unfinished hordered hcounted hq hzero)
    · exact hended hall
  -- it waits for the queue, which stays what it is
  · rintro q rfl
    obtain ⟨q', htable, heq⟩ := hwaiting.resolve_right (fun h => nomatch h.2)
    cases heq
    obtain ⟨queue, hq, -⟩ := howned.table oid q htable
    obtain ⟨queue', hq', hr'⟩ := queue_registration_of_step hq hstep
    refine ⟨fun oid' hget => ?_, queue', hq', fun hcpu => ?_⟩
    · rw [htables] at hget
      obtain ⟨hne, hget⟩ := Dict.get_of_get_pop hget
      exact hne (howned.table_inj hget htable)
    · rcases hfound (hcpuBound ▸ hcpu) with ⟨q₁, queue₁, htable₁, hq₁, rfl⟩ | hall
      · rw [htable] at htable₁
        cases htable₁
        rw [hq] at hq₁
        cases hq₁
        exact Or.inl hr'
      · exact Or.inr (hended hall)

end Closed

/-! ## The order

The parts put together: along the runs that find the right queues, the executor gets the calls of a registration in
the order of their dispatches, each once. -/

/-- What holds along the runs that find the right queues. -/
structure Draining (st : Tasks F) : Prop where
  owned    : Owned st
  ordered  : Ordered st
  counted  : Counted st
  attended : Attended st
  closed   : ∀ (d : Nat) dereg, st.deregistrations[d]? = some dereg → Closed st dereg

theorem Draining.step {st st' : Tasks F} (h : Draining st) {event : Event F} (hstep : st.step event = some st')
    (hdrains : drains st event = true) : Draining st' where
  owned := h.owned.step hstep
  ordered := h.ordered.step h.owned hstep hdrains
  counted := h.counted.step h.ordered hstep
  attended := h.attended.step h.owned hstep hdrains
  closed d dereg hd := by
    rcases deregistrations_of_step hstep with heq | ⟨d', oid, r, q, -, hd', hzero, heq⟩ |
      ⟨oid, r, waiting, rfl, hr, hoperators, htables, hcalls, heq, hwaiting⟩
    · rw [heq] at hd
      exact (h.closed d dereg hd).step h.owned hstep
    · rw [heq] at hd
      rcases (getElem?_set_eq_some hd').mp hd with ⟨-, rfl⟩ | ⟨-, hd⟩
      · exact ((h.closed d' _ hd').join h.ordered h.counted rfl hzero).step h.owned hstep
      · exact (h.closed d dereg hd).step h.owned hstep
    · rw [heq] at hd
      rcases getElem?_concat_eq_some.mp hd with hd | ⟨-, rfl⟩
      · exact (h.closed d dereg hd).step h.owned hstep
      · exact Closed.of_deregister h.owned h.ordered h.counted hstep hdrains hr hoperators htables hcalls hwaiting

theorem draining_of_reachable {st : Tasks F}
    (h : (system.restrict (fun (st : Tasks F) event => drains st event = true)).Reachable st) : Draining st := by
  refine h.invariant ?_ (fun st event st' hst hstep => hst.step hstep.1 hstep.2)
  rintro st rfl
  refine ⟨Owned.started, Ordered.started, Counted.started, ?_, ?_⟩
  · rintro q queue ⟨⟩
  · rintro d dereg ⟨⟩

/-- **The executor is given the calls of a registration in the order of their dispatches, each once, and a
    deregistration returns after all of them.** -/
theorem inOrder_of_reachable {st : Tasks F}
    (h : (system.restrict (fun (st : Tasks F) event => drains st event = true)).Reachable st) : InOrder st := by
  have hdraining := draining_of_reachable h
  constructor
  · intro r hcpu
    by_cases hqueue : ∀ queue ∈ st.queues, queue.registration ≠ r
    · exact ⟨[], by rw [List.append_nil]; exact hdraining.ordered.fresh r hcpu hqueue⟩
    · push Not at hqueue
      obtain ⟨queue, hmem, rfl⟩ := hqueue
      obtain ⟨q, hq⟩ := List.getElem?_of_mem hmem
      rw [← hdraining.ordered.own q queue hq]
      exact List.prefix_append _ _
  · intro d oid r hd hcpu
    have hended := (hdraining.closed d _ hd).returned rfl hcpu
    exact ⟨handedOf_of_allEnded hdraining.owned hdraining.ordered hcpu hended, hended⟩

end Tasks
end Hea
end HybridStream
