import HybridStream.Hea.Correctness.QueueOrder
import HybridStream.Hea.Correctness.StoppedEngine
import Mathlib.Data.Finset.Card
import Mathlib.Data.Finset.Dedup
import Mathlib.Data.Finset.Range
import Mathlib.Data.Prod.Lex

/-!
# `Hea.Correctness.EngineAtRest` — a stopped engine comes to rest

Every step of the coroutines under way brings a stopped engine nearer to rest (`rank_lt`). The measure is
lexicographic: the calls whose `process` is awaited come first, because only its return tells how many sends there are;
then the sends, the items and the turns of the workers that are left.

Where none of the coroutines can take a step any more, every worker has ended, with nothing in its queue, and no call is
under way (`comes_to_rest`). The queues stay empty only if nobody dispatches after the stop, so this is about the runs
in which `stop` finds every consume loop in `_consumer_tasks` (`registered`).
-/

namespace HybridStream
namespace Hea
namespace Shutdown

open Lib Py Tasks

variable {F : Type} {st st' : Tasks F} {s s' : Shutdown F} {a : ShutdownEvent F} {t₀ : Tasks F} {c w : Nat}

/-! ## What is still to do

A rank for the states of a stopped engine: the calls that are awaited in front, as it is not known what they return,
and behind them the sends, items and turns that are left. Each step lowers the first or keeps it and lowers the
second. -/

/-- The steps of the coroutines that are under way when the engine is stopped. -/
def works : ShutdownEvent F → Bool
  | .engine (.processed _ _) | .engine (.send _ _) | .engine (.startWorker _) | .engine (.taskDone _) => true
  | .discard _ | .exit _ | .cancel _ => true
  | _ => false

def awaits : Phase F → Bool
  | .processing _ => true
  | _             => false

def sendsLeft : Phase F → Nat
  | .emitting pending => pending.length + 1
  | _                 => 0

def turnsLeft : WorkerPhase → Nat
  | .created   => 2
  | .busy _ _  => 2
  | .polling _ => 1
  | .dead      => 0

/-- The sends, the items and the turns of the workers that are left. -/
def left (st : Tasks F) : Nat :=
  (st.calls.map (fun call => sendsLeft call.phase)).sum + (st.queues.map (fun queue => queue.items.length)).sum +
    (st.workers.map (fun worker => turnsLeft worker.phase)).sum

/-- What an operator returns is emitted, whatever it is: only then are its sends known. -/
def rank (s : Shutdown F) : ℕ ×ₗ ℕ :=
  toLex (s.tasks.calls.countP (fun call => awaits call.phase),
    left s.tasks + (Finset.range s.tasks.workers.length \ s.exited.toFinset).card)

theorem awaits_emit (pending : List (String × Record F)) : awaits (Phase.emit pending) = false := by
  cases pending <;> rfl

theorem sendsLeft_emit_le (pending : List (String × Record F)) :
    sendsLeft (Phase.emit pending) ≤ pending.length + 1 := by
  cases pending with
  | nil => exact Nat.zero_le _
  | cons => exact le_rfl

theorem rank_lt_of_awaits
    (h : s'.tasks.calls.countP (fun call => awaits call.phase) < s.tasks.calls.countP (fun call => awaits call.phase)) :
    rank s' < rank s :=
  Prod.Lex.toLex_lt_toLex.mpr (Or.inl h)

/-- No call more is awaited, and less is left. -/
theorem rank_lt_of_left
    (hawaits : s'.tasks.calls.countP (fun call => awaits call.phase) ≤
      s.tasks.calls.countP (fun call => awaits call.phase))
    (hexited : s'.exited = s.exited) (hworkers : s'.tasks.workers.length = s.tasks.workers.length)
    (hleft : left s'.tasks < left s.tasks) : rank s' < rank s := by
  rcases Nat.lt_or_eq_of_le hawaits with hlt | heq
  · exact rank_lt_of_awaits hlt
  · refine Prod.Lex.toLex_lt_toLex.mpr (Or.inr ⟨heq, ?_⟩)
    show left s'.tasks + (Finset.range s'.tasks.workers.length \ s'.exited.toFinset).card < _
    rw [hexited, hworkers]
    exact Nat.add_lt_add_right hleft _

/-- An awaited call is answered. -/
theorem awaits_answered {call call' : Call F} (hc : st.calls[c]? = some call) (h : awaits call.phase = true)
    (h' : awaits call'.phase = false) : (st.calls.set c call').countP (fun call => awaits call.phase) <
      st.calls.countP (fun call => awaits call.phase) := by
  have hcount := countP_set_add (a := call') (p := fun call : Call F => awaits call.phase) hc
  rw [h, h'] at hcount
  exact Nat.lt_of_succ_le (le_of_eq hcount)

/-- A call ends. -/
theorem awaits_ended {call : Call F} (hc : st.calls[c]? = some call) :
    (st.calls.set c { call with phase := .ended }).countP (fun call => awaits call.phase) ≤
      st.calls.countP (fun call => awaits call.phase) := by
  have hcount := countP_set_add (a := { call with phase := .ended }) (p := fun call : Call F => awaits call.phase) hc
  simp only [awaits] at hcount
  simp only [awaits]
  grind

theorem sendsLeft_ended {call : Call F} (hc : st.calls[c]? = some call) :
    ((st.calls.set c { call with phase := .ended }).map (fun call => sendsLeft call.phase)).sum +
      sendsLeft call.phase = (st.calls.map (fun call => sendsLeft call.phase)).sum :=
  sum_map_set_add (f := fun call : Call F => sendsLeft call.phase) hc

/-- **Every step of the coroutines brings a stopped engine nearer to rest.** -/
theorem rank_lt (hworks : works a = true) (hstep : step s a = some s') : rank s' < rank s := by
  cases a with
  | engine event =>
      obtain ⟨-, hstep⟩ := Option.ite_none_right_eq_some.mp hstep
      obtain ⟨tasks, htasks, rfl⟩ := Option.map_eq_some_iff.mp hstep
      cases event with
      | processed c result =>
          obtain ⟨oid, r, outputs, emitAs, hc, rfl⟩ := processed_eq_some htasks
          -- a call has left `process`, for which no number of sends can make up
          exact rank_lt_of_awaits (awaits_answered hc rfl (awaits_emit _))
      | send c accepted =>
          obtain ⟨oid, r, outputs, payload, pending, hc, ⟨-, rfl⟩ | ⟨-, rfl⟩⟩ := send_eq_some htasks
          -- one of the sends left is made; the call awaits as before
          · have hcount := countP_set_of_eq (a := (⟨oid, r, outputs, .emit pending⟩ : Call F))
              (p := fun call : Call F => awaits call.phase) hc (awaits_emit pending)
            have hsum := sum_map_set_add (a := (⟨oid, r, outputs, .emit pending⟩ : Call F))
              (f := fun call : Call F => sendsLeft call.phase) hc
            have hle := sendsLeft_emit_le pending
            refine rank_lt_of_left (le_of_eq hcount) rfl rfl ?_
            simp only [left, sendsLeft, List.length_cons] at hsum hle ⊢
            omega
          -- a send that raises ends the call, with all that was left to send
          · have hsum := sendsLeft_ended hc
            refine rank_lt_of_left (awaits_ended hc) rfl rfl ?_
            simp only [left, sendsLeft] at hsum ⊢
            omega
      | startWorker w =>
          obtain ⟨oid, hw, ⟨q, -, rfl⟩ | ⟨-, rfl⟩⟩ := startWorker_eq_some htasks
          -- a worker takes its first turn, with or without a queue to poll
          · have hsum := sum_map_set_add (a := (⟨oid, .polling q⟩ : Tasks.Worker))
              (f := fun worker : Tasks.Worker => turnsLeft worker.phase) hw
            refine rank_lt_of_left le_rfl rfl List.length_set ?_
            simp only [left, turnsLeft] at hsum ⊢
            omega
          · have hsum := sum_map_set_add (a := (⟨oid, .dead⟩ : Tasks.Worker))
              (f := fun worker : Tasks.Worker => turnsLeft worker.phase) hw
            refine rank_lt_of_left le_rfl rfl List.length_set ?_
            simp only [left, turnsLeft] at hsum ⊢
            omega
      | taskDone w =>
          obtain ⟨oid, q, c, queue, oid', r, outputs, hw, hq, -, rfl⟩ := taskDone_eq_some htasks
          -- the queues keep their items, and the worker has one turn less
          have hitems := map_set_of_eq (a := { queue with unfinished := queue.unfinished - 1 })
            (f := fun queue : WorkQueue => queue.items.length) hq rfl
          have hsum := sum_map_set_add (a := (⟨oid, .polling q⟩ : Tasks.Worker))
            (f := fun worker : Tasks.Worker => turnsLeft worker.phase) hw
          refine rank_lt_of_left le_rfl rfl List.length_set ?_
          simp only [left, turnsLeft, hitems] at hsum ⊢
          omega
      | register | makeQueue | dispatch | takeItem | deregister | joined => cases hworks
  | startLoop | dispatch | stop => cases hworks
  | discard w =>
      obtain ⟨-, hstep⟩ := Option.ite_none_right_eq_some.mp hstep
      obtain ⟨tasks, htasks, rfl⟩ := Option.map_eq_some_iff.mp hstep
      obtain ⟨oid, q, queue, c, items, call, -, hq, hitems, hc, rfl⟩ := discard_eq_some htasks
      -- an item fewer in the queue, and its call ends without having been processed
      have hsum := sendsLeft_ended hc
      have hqueue := sum_map_set_add (a := { queue with items := items, unfinished := queue.unfinished - 1 })
        (f := fun queue : WorkQueue => queue.items.length) hq
      refine rank_lt_of_left (awaits_ended hc) rfl rfl ?_
      simp only [left, hitems, List.length_cons] at hsum hqueue ⊢
      omega
  | exit w =>
      obtain ⟨⟨-, hnew, hidle⟩, hstep⟩ := Option.ite_none_right_eq_some.mp hstep
      cases hstep
      obtain ⟨oid, q, queue, hw, -, -⟩ := idle_iff.mp hidle
      -- nothing else changes, so the workers that have not exited are what gets fewer
      refine Prod.Lex.toLex_lt_toLex.mpr (Or.inr ⟨rfl, ?_⟩)
      refine Nat.add_lt_add_left (Finset.card_lt_card ?_) _
      refine ⟨fun w' hw' => ?_, fun hsub => ?_⟩
      · simp only [List.toFinset_cons, Finset.mem_sdiff, Finset.mem_insert, not_or] at hw' ⊢
        exact ⟨hw'.1, hw'.2.2⟩
      · have hmem := hsub (Finset.mem_sdiff.mpr ⟨Finset.mem_range.mpr (lt_length_of_getElem? hw),
          fun hin => hnew (List.mem_toFinset.mp hin)⟩)
        simp at hmem
  | cancel c =>
      obtain ⟨-, hstep⟩ := Option.ite_none_right_eq_some.mp hstep
      obtain ⟨tasks, htasks, rfl⟩ := Option.map_eq_some_iff.mp hstep
      obtain ⟨⟨oid, r, outputs, phase⟩, hc, ⟨emitAs, rfl⟩ | ⟨pending, rfl⟩, -, rfl⟩ := cancel_eq_some htasks
      -- cancelled in `process`, or between two sends
      · exact rank_lt_of_awaits (awaits_answered hc rfl rfl)
      · have hsum := sendsLeft_ended hc
        refine rank_lt_of_left (awaits_ended hc) rfl rfl ?_
        simp only [left, sendsLeft] at hsum ⊢
        omega

/-! ## What holds of every stopped engine

The invariant that the end of the rank is read with: a worker is at a call that has begun, and a worker whose loop has
ended has nothing in its queue, which only holds where `stop` finds every consume loop in its table. -/

/-- The call has been taken by its worker, or did not wait for one. -/
def Begun (st : Tasks F) (c : Nat) : Prop :=
  ∃ call, st.calls[c]? = some call ∧ call.phase ≠ .queued ∧ call.phase ≠ .dropped

theorem Begun.step {event : Tasks.Event F} (h : Begun st c) (howned : Owned st) (hstep : st.step event = some st') :
    Begun st' c := by
  obtain ⟨call, hc, hqueued, hdropped⟩ := h
  by_cases hevent : event.coroutine = some (.call c)
  · rcases call_of_coroutine hc hstep hevent with ⟨emitAs, result, -, hc'⟩ | ⟨payload, pending, accepted, -, -, hc'⟩
    · exact ⟨_, hc', Phase.emit_ne_queued _, Phase.emit_ne_dropped _⟩
    · cases accepted with
      | false => exact ⟨_, hc', nofun, nofun⟩
      | true => exact ⟨_, hc', Phase.emit_ne_queued _, Phase.emit_ne_dropped _⟩
  · exact ⟨call, call_of_other_step howned hc hqueued hstep hevent, hqueued, hdropped⟩

/-- A call ends. -/
theorem Begun.ended {call : Call F} (h : Begun st c) {c' : Nat} (hc' : st.calls[c']? = some call)
    (hcalls : st'.calls = st.calls.set c' { call with phase := .ended }) : Begun st' c := by
  obtain ⟨call₁, hc, hbegun⟩ := h
  unfold Begun
  rw [hcalls]
  exact exists_getElem?_set hc' (fun _ => ⟨nofun, nofun⟩) ⟨call₁, hc, hbegun⟩

/-- A worker that is at a call was at it, or has just taken it. -/
theorem busy_before {event : Tasks.Event F} {oid : String} {q : Nat} (hstep : st.step event = some st')
    (hw : st'.workers[w]? = some ⟨oid, .busy q c⟩) : st.workers[w]? = some ⟨oid, .busy q c⟩ ∨ Begun st' c := by
  cases event with
  | register oid' cpuBound outputTopics =>
      cases hstep
      exact Or.inl hw
  | makeQueue r =>
      obtain ⟨oid', topics, -, -, rfl⟩ := makeQueue_eq_some hstep
      rcases getElem?_concat_eq_some.mp hw with hold | ⟨-, heq⟩
      · exact Or.inl hold
      · cases heq
  | dispatch oid' =>
      cases hstep
      exact Or.inl (by simpa using hw)
  | processed c' result =>
      obtain ⟨oid', r, outputs, emitAs, -, rfl⟩ := processed_eq_some hstep
      exact Or.inl hw
  | send c' accepted =>
      obtain ⟨oid', r, outputs, payload, pending, -, ⟨-, rfl⟩ | ⟨-, rfl⟩⟩ := send_eq_some hstep
      all_goals exact Or.inl hw
  | startWorker w' =>
      obtain ⟨oid', hw', ⟨q', -, rfl⟩ | ⟨-, rfl⟩⟩ := startWorker_eq_some hstep
      all_goals exact Or.inl (busy_of_set hw' (by nofun) w oid q c hw)
  | takeItem w' =>
      obtain ⟨oid', q', queue, c', items, call, hw', -, -, hc, rfl⟩ := takeItem_eq_some hstep
      rcases (getElem?_set_eq_some hw').mp hw with ⟨-, heq⟩ | ⟨-, hold⟩
      -- the worker has just taken the call, which has begun with that
      · cases heq
        exact Or.inr ⟨_, (getElem?_set_eq_some hc).mpr (Or.inl ⟨rfl, rfl⟩), nofun, nofun⟩
      · exact Or.inl hold
  | taskDone w' =>
      obtain ⟨oid', q', c', queue, oid₁, r, outputs, hw', -, -, rfl⟩ := taskDone_eq_some hstep
      exact Or.inl (busy_of_set hw' (by nofun) w oid q c hw)
  | deregister oid' =>
      cases hstep
      exact Or.inl (by simpa using hw)
  | joined d =>
      obtain ⟨oid', r, q', -, -, rfl⟩ := joined_eq_some hstep
      exact Or.inl hw

/-- `stop` finds every consume loop in `_consumer_tasks`. -/
def registered (s : Shutdown F) : ShutdownEvent F → Bool
  | .stop => (List.range s.loops).all (fun l => l ∈ s.consumerTasks.values)
  | _     => true

/-- The tables refer to each other by the right ids, a worker is at a call that has begun, and a worker whose loop has
    ended has left nothing in its queue. -/
structure Orderly (s : Shutdown F) : Prop where
  owned     : Owned s.tasks
  busy      : ∀ (w : Nat) (oid : String) (q c : Nat), s.tasks.workers[w]? = some ⟨oid, .busy q c⟩ → Begun s.tasks c
  running   : s.stopped = none → s.exited = []
  cancelled : s.stopped.isSome = true → ∀ l < s.loops, l ∈ s.cancelled
  exited    : ∀ w ∈ s.exited, ∃ oid q queue, s.tasks.workers[w]? = some ⟨oid, .polling q⟩ ∧
              s.tasks.queues[q]? = some queue ∧ queue.items = []

theorem owned_of_discard (h : Owned st) (hstep : st.discard w = some st') : Owned st' := by
  obtain ⟨oid, q, queue, c, items, call, -, hq, hitems, hc, rfl⟩ := discard_eq_some hstep
  have hmem : c ∈ queue.items := by rw [hitems]; exact List.mem_cons_self
  have hqueue : Owned { st with
      queues := st.queues.set q { queue with items := items, unfinished := queue.unfinished - 1 } } :=
    h.setQueue hq rfl (by rw [hitems]; exact List.sublist_cons_self _ _)
  refine hqueue.setCall hc ?_ rfl rfl nofun nofun
  -- the item was in this queue only, and once
  intro q' queue' hq' hin
  rcases (getElem?_set_eq_some hq).mp hq' with ⟨-, rfl⟩ | ⟨hne, hq'⟩
  · have hnodup := h.nodup q queue hq
    rw [hitems] at hnodup
    exact (List.nodup_cons.mp hnodup).1 hin
  · exact hne (h.once q' q queue' queue c hq' hq hin hmem)

theorem owned_of_cancel (h : Owned st) (hstep : st.cancel c = some st') : Owned st' := by
  obtain ⟨call, hc, hphase, -, rfl⟩ := cancel_eq_some hstep
  refine h.setCall hc (h.free_of_phase hc ?_) rfl rfl nofun nofun
  rcases hphase with ⟨emitAs, heq⟩ | ⟨pending, heq⟩
  all_goals rw [heq]; nofun

/-- What the end of a call or of an item leaves in order. -/
theorem Orderly.unwind (h : Orderly s) {tasks : Tasks F} (howned : Owned tasks)
    (hunwinds : Unwinds s.goesOn s.tasks tasks)
    (hbusy : ∀ (w : Nat) (oid : String) (q c : Nat), tasks.workers[w]? = some ⟨oid, .busy q c⟩ → Begun tasks c)
    (hpolling : ∀ w ∈ s.exited, ∀ worker, s.tasks.workers[w]? = some worker → tasks.workers[w]? = some worker) :
    Orderly { s with tasks := tasks } where
  owned := howned
  busy := hbusy
  running := h.running
  cancelled := h.cancelled
  exited w hw := by
    obtain ⟨oid, q, queue, hworker, hq, hitems⟩ := h.exited w hw
    obtain ⟨queue', hq', hitems'⟩ := hunwinds.empty q queue hq hitems
    exact ⟨oid, q, queue', hpolling w hw _ hworker, hq', hitems'⟩

/-- **Every step keeps a stopped engine in order.** -/
theorem Orderly.step (h : Orderly s) (hregistered : registered s a = true) (hstep : step s a = some s') :
    Orderly s' := by
  cases a with
  | engine event =>
      obtain ⟨hguard, hstep⟩ := Option.ite_none_right_eq_some.mp hstep
      obtain ⟨tasks, htasks, rfl⟩ := Option.map_eq_some_iff.mp hstep
      have hbusy : ∀ (w : Nat) (oid : String) (q c : Nat), tasks.workers[w]? = some ⟨oid, .busy q c⟩ →
          Begun tasks c := by
        intro w oid q c hw
        rcases busy_before htasks hw with hold | hbegun
        · exact (h.busy w oid q c hold).step h.owned htasks
        · exact hbegun
      rcases Option.eq_none_or_eq_some s.stopped with hstopped | ⟨t₀, hstopped⟩
      · refine ⟨h.owned.step htasks, hbusy, h.running, h.cancelled, ?_⟩
        rw [h.running hstopped]
        nofun
      · refine h.unwind (h.owned.step htasks) (unwinds_of_engine hstopped hguard htasks) hbusy ?_
        intro w hw worker hworker
        obtain ⟨oid, q, queue, hpolling, hq, hitems⟩ := h.exited w hw
        rw [hworker] at hpolling
        cases hpolling
        by_cases hevent : event.coroutine = some (.worker w)
        · -- its loop has ended: its queue is empty
          rcases worker_of_coroutine hworker htasks hevent with ⟨heq, -⟩ |
            ⟨q', queue', c, items, heq, hq', hitems', -⟩ | ⟨q', c, queue', heq, -⟩
          · cases heq
          · cases heq
            rw [hq] at hq'
            cases hq'
            rw [hitems] at hitems'
            cases hitems'
          · cases heq
        · exact worker_of_other_step hworker htasks hevent
  | startLoop topic =>
      obtain ⟨hguard, hstep⟩ := Option.ite_none_right_eq_some.mp hstep
      cases hstep
      refine ⟨h.owned, h.busy, h.running, fun hsome => ?_, h.exited⟩
      have hsome : s.stopped.isSome = true := hsome
      rw [Option.isNone_iff_eq_none.mp hguard] at hsome
      cases hsome
  | dispatch l oid =>
      obtain ⟨⟨hlt, hout⟩, hstep⟩ := Option.ite_none_right_eq_some.mp hstep
      cases hstep
      -- a loop that dispatches is not cancelled, so the engine runs
      have hnone : s.stopped = none := by
        by_contra hsome
        exact hout (h.cancelled (Option.isSome_iff_ne_none.mpr hsome) l hlt)
      have htasks : s.tasks.step (.dispatch oid) = some (s.tasks.dispatch oid) := rfl
      refine ⟨h.owned.step htasks, fun w oid' q c hw => ?_, h.running, h.cancelled, ?_⟩
      · rcases busy_before htasks hw with hold | hbegun
        · exact (h.busy w oid' q c hold).step h.owned htasks
        · exact hbegun
      · rw [h.running hnone]
        nofun
  | stop =>
      obtain ⟨-, hstep⟩ := Option.ite_none_right_eq_some.mp hstep
      cases hstep
      refine ⟨h.owned, h.busy, nofun, fun _ l hlt => ?_, h.exited⟩
      exact of_decide_eq_true (List.all_eq_true.mp hregistered l (List.mem_range.mpr hlt))
  | discard w =>
      obtain ⟨-, hstep⟩ := Option.ite_none_right_eq_some.mp hstep
      obtain ⟨tasks, htasks, rfl⟩ := Option.map_eq_some_iff.mp hstep
      obtain ⟨oid, q, queue, c, items, call, -, -, -, hc, heq⟩ := discard_eq_some htasks
      have hworkers : tasks.workers = s.tasks.workers := by rw [heq]
      refine h.unwind (owned_of_discard h.owned htasks) (unwinds_of_discard htasks) ?_ fun _ _ _ hw => hworkers ▸ hw
      intro w oid q c' hw
      rw [hworkers] at hw
      exact (h.busy w oid q c' hw).ended hc (by rw [heq])
  | exit w =>
      obtain ⟨⟨hstopped, -, hidle⟩, hstep⟩ := Option.ite_none_right_eq_some.mp hstep
      cases hstep
      refine ⟨h.owned, h.busy, ?_, h.cancelled, ?_⟩
      · intro hnone
        rw [show s.stopped = none from hnone] at hstopped
        cases hstopped
      · intro w' hw'
        rcases List.mem_cons.mp hw' with rfl | hold
        · exact idle_iff.mp hidle
        · exact h.exited w' hold
  | cancel c =>
      obtain ⟨-, hstep⟩ := Option.ite_none_right_eq_some.mp hstep
      obtain ⟨tasks, htasks, rfl⟩ := Option.map_eq_some_iff.mp hstep
      obtain ⟨call, hc, -, -, heq⟩ := cancel_eq_some htasks
      have hworkers : tasks.workers = s.tasks.workers := by rw [heq]
      refine h.unwind (owned_of_cancel h.owned htasks) (unwinds_of_cancel htasks) ?_ fun _ _ _ hw => hworkers ▸ hw
      intro w oid q c' hw
      rw [hworkers] at hw
      exact (h.busy w oid q c' hw).ended hc (by rw [heq])

theorem orderly_of_reachable (h : (system.restrict (fun s a => registered s a = true)).Reachable s) : Orderly s := by
  refine h.invariant ?_ fun s a s' hs hstep => hs.step hstep.2 hstep.1
  rintro s rfl
  exact ⟨Owned.started, nofun, fun _ => rfl, nofun, nofun⟩

/-! ## Rest

A state in which no coroutine can take a step, phase by phase: whatever a call or a worker could be waiting for would
be a step that is possible. -/

/-- None of the coroutines can take a step. -/
def AtRest (s : Shutdown F) : Prop := ∀ a, works a = true → step s a = none

namespace AtRest

variable (hrest : AtRest s)
include hrest

theorem engine (event : Tasks.Event F) (hworks : works (.engine event : ShutdownEvent F) = true)
    (hsurvives : s.survives event = true) : s.tasks.step event = none := by
  have hnone := hrest (.engine event) hworks
  simpa [step, hsurvives] using hnone

theorem discard (hstopped : s.stopped.isSome = true) (hw : w ∉ s.exited) : s.tasks.discard w = none := by
  have hnone := hrest (.discard w) rfl
  simpa [step, hstopped, hw] using hnone

theorem exit (hstopped : s.stopped.isSome = true) (hw : w ∉ s.exited) : s.tasks.idle w ≠ true := by
  intro hidle
  have hnone := hrest (.exit w) rfl
  simp [step, hstopped, hw, hidle] at hnone

theorem cancel (hstopped : s.stopped.isSome = true) (hcancelled : s.callers c ∈ s.cancelled) :
    s.tasks.cancel c = none := by
  have hnone := hrest (.cancel c) rfl
  simpa [step, hstopped, hcancelled] using hnone

/-- A call under way could be moved on, by the worker that is at it, by its consume loop or by the cancellation of that
    loop. -/
theorem call (howned : Owned s.tasks) (hstopped : s.stopped.isSome = true) {call : Call F}
    (hc : s.tasks.calls[c]? = some call) : call.phase = .queued ∨ call.phase = .dropped ∨ call.phase = .ended := by
  cases hgoes : s.goesOn c with
  | true =>
      obtain ⟨oid, r, outputs, phase⟩ := call
      cases phase with
      | queued => exact Or.inl rfl
      | dropped => exact Or.inr (Or.inl rfl)
      | ended => exact Or.inr (Or.inr rfl)
      | processing emitAs =>
          have hnone : s.tasks.processed c (.ok []) = none := hrest.engine (.processed c (.ok [])) rfl hgoes
          unfold Tasks.processed at hnone
          rw [hc] at hnone
          cases hnone
      | emitting pending =>
          cases pending with
          | nil => exact absurd rfl (howned.pending c _ hc)
          | cons payload pending =>
              have hnone : s.tasks.send c false = none := hrest.engine (.send c false) rfl hgoes
              unfold Tasks.send at hnone
              rw [hc] at hnone
              cases hnone
  | false =>
      obtain ⟨hhand, hin⟩ := Bool.or_eq_false_iff.mp hgoes
      have hcancel := hrest.cancel hstopped (by simpa using hin : s.callers c ∈ s.cancelled)
      unfold Tasks.cancel at hcancel
      rw [hc] at hcancel
      obtain ⟨oid, r, outputs, phase⟩ := call
      cases phase with
      | queued => exact Or.inl rfl
      | dropped => exact Or.inr (Or.inl rfl)
      | ended => exact Or.inr (Or.inr rfl)
      | processing emitAs => simp [hhand] at hcancel
      | emitting pending => simp [hhand] at hcancel

/-- The loop of a worker has ended, or never began. -/
theorem worker (horderly : Orderly s) (hstopped : s.stopped.isSome = true) {worker : Tasks.Worker}
    (hw : s.tasks.workers[w]? = some worker) : worker.phase = .dead ∨ w ∈ s.exited := by
  obtain ⟨oid, phase⟩ := worker
  cases phase with
  | dead => exact Or.inl rfl
  | created =>
      have hnone : s.tasks.startWorker w = none := hrest.engine (.startWorker w) rfl rfl
      unfold Tasks.startWorker at hnone
      rw [hw] at hnone
      cases hnone
  | busy q c =>
      -- its call has ended, so it could go on
      obtain ⟨⟨oid', r, outputs, phase⟩, hc, hqueued, hdropped⟩ := horderly.busy w oid q c hw
      obtain ⟨queue, hq, -⟩ := horderly.owned.worker w q _ hw rfl
      have hended := ((hrest.call horderly.owned hstopped hc).resolve_left hqueued).resolve_left hdropped
      cases hended
      have hnone : s.tasks.taskDone w = none := hrest.engine (.taskDone w) rfl rfl
      simp [Tasks.taskDone, hw, hc, hq] at hnone
  | polling q =>
      refine Or.inr (by_contra fun hexited => ?_)
      obtain ⟨queue, hq, -⟩ := horderly.owned.worker w q _ hw rfl
      cases hitems : queue.items with
      | nil => exact hrest.exit hstopped hexited (idle_iff.mpr ⟨oid, q, queue, hw, hq, hitems⟩)
      | cons c items =>
          obtain ⟨call, hc, -⟩ := horderly.owned.item q queue c hq (by rw [hitems]; exact List.mem_cons_self)
          have hnone := hrest.discard hstopped hexited
          simp [Tasks.discard, hw, hq, hitems, hc] at hnone

end AtRest

/-- The coroutines run until none of them can take a step. -/
theorem runs_to_rest (s : Shutdown F) : ∃ as s', (∀ a ∈ as, works a = true) ∧ system.Run s as s' ∧ AtRest s' := by
  by_cases hrest : AtRest s
  · exact ⟨[], s, nofun, .refl, hrest⟩
  · simp only [AtRest, not_forall] at hrest
    obtain ⟨a, hworks, hstep⟩ := hrest
    obtain ⟨s₁, hstep⟩ := Option.ne_none_iff_exists'.mp hstep
    obtain ⟨as, s', hall, hrun, hrest⟩ := runs_to_rest s₁
    exact ⟨a :: as, s', List.forall_mem_cons.mpr ⟨hworks, hall⟩, Lts.Run.head hstep hrun, hrest⟩
termination_by rank s
decreasing_by exact rank_lt hworks hstep

/-- **A stopped engine comes to rest.** Let `stop` find every consume loop in `_consumer_tasks`. Then the coroutines
    cannot go on taking steps for ever, whatever `process` returns, and they can go on until none can take one any more;
    then every worker has ended with nothing left in its queue, and no call is in `process` or in `_emit`.

    The first two parts are the well-founded descent of `rank`; for the last, each phase that a call or a worker could
    stand in is shown to enable a step, but for those named. -/
theorem comes_to_rest (h : (system.restrict (fun s a => registered s a = true)).Reachable s)
    (hstopped : s.stopped.isSome = true) :
    (¬ ∃ run : Nat → Shutdown F, run 0 = s ∧ ∀ n, ∃ a, works a = true ∧ step (run n) a = some (run (n + 1))) ∧
      (∃ as s', (∀ a ∈ as, works a = true) ∧ system.Run s as s' ∧ AtRest s') ∧
      (AtRest s →
        (∀ (w : Nat) worker, s.tasks.workers[w]? = some worker → worker.phase = .dead ∨
          ∃ q queue, worker.phase = .polling q ∧ w ∈ s.exited ∧ s.tasks.queues[q]? = some queue ∧ queue.items = []) ∧
        ∀ (c : Nat) call, s.tasks.calls[c]? = some call →
          call.phase = .queued ∨ call.phase = .dropped ∨ call.phase = .ended) := by
  have horderly := orderly_of_reachable h
  refine ⟨?_, runs_to_rest s, ?_⟩
  · rintro ⟨run, -, hrun⟩
    obtain ⟨n, hn⟩ := WellFounded.not_rel_apply_succ (r := (· < ·)) fun n => rank (run n)
    obtain ⟨a, hworks, hstep⟩ := hrun n
    exact hn (rank_lt hworks hstep)
  · intro hrest
    refine ⟨fun w worker hw => ?_, fun c call hc => hrest.call horderly.owned hstopped hc⟩
    rcases hrest.worker horderly hstopped hw with hdead | hexited
    · exact Or.inl hdead
    · obtain ⟨oid, q, queue, hpolling, hq, hitems⟩ := horderly.exited w hexited
      rw [hw] at hpolling
      cases hpolling
      exact Or.inr ⟨q, queue, rfl, hexited, hq, hitems⟩

/-- One record with a worker and one behind it in the queue, until the worker has ended. -/
def stoppedAndEnded : List (ShutdownEvent Rat) :=
  [.engine (.register "op" true ["out"]), .startLoop "in", .engine (.makeQueue 0), .dispatch 0 "op", .dispatch 0 "op",
    .engine (.startWorker 0), .engine (.takeItem 0), .stop, .engine (.processed 0 (.ok [])), .engine (.taskDone 0),
    .discard 0, .exit 0]

/-- The engine has gone to rest by then, or could go on to it. -/
theorem comes_to_rest_ended : ∃ s : Shutdown Rat, s.exited = [0] ∧
    ∃ as s', (∀ a ∈ as, works a = true) ∧ system.Run s as s' ∧ AtRest s' := by
  have hrun : ((Lts.exec (Lts.guardStep step (fun s a => registered s a = true)) stoppedAndEnded started).map fun s =>
      (s.stopped.isSome, s.exited)) = some (true, [0]) := by decide +kernel
  obtain ⟨s, hs, hrun⟩ := Option.map_eq_some_iff.mp hrun
  obtain ⟨hstopped, hexited⟩ := Prod.mk.inj hrun
  exact ⟨s, hexited, (comes_to_rest (Lts.restrict_reachable_of_exec rfl hs) hstopped).2.1⟩

end Shutdown
end Hea
end HybridStream
