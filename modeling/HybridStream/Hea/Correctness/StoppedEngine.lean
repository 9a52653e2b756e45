import HybridStream.Hea.Shutdown
import HybridStream.Py.Exact

/-!
# `Hea.Correctness.StoppedEngine` — what becomes of the records when an engine is stopped

A record that waits in a worker queue is never processed once the engine is stopped, and a call that its cancelled
consume loop awaits sends nothing more (`stop_drops_queued`): what is still sent comes from the items the workers were
at, and from the consume loops that `stop` does not reach because another task has taken their entry in
`_consumer_tasks`. The proof names what one step of a stopped engine can do (`unwinds_of_step`) and carries along the
run what every such step keeps of the state at the stop (`Since`).
-/

namespace HybridStream
namespace Hea
namespace Shutdown

open Lib Py Tasks

variable {F : Type} {st st' t₀ : Tasks F} {s s' : Shutdown F} {a : ShutdownEvent F} {c w : Nat}

/-! ## What one step of a stopped engine does

Whatever goes on after a stop only unwinds what was under way, but for the consume loops that the stop did not reach:
those make calls and put records into queues as before. -/

/-- A call that is replaced was under way, or it ends as it is. -/
def Replaces (call call' : Call F) : Prop :=
  (call.phase ≠ .queued ∧ call.phase ≠ .ended) ∨ (call'.outputs = call.outputs ∧ call'.phase = .ended)

/-- From `st` to `st'` nothing is handed to the pool, put into a queue or called, and what is sent is of a call that
    goes on. -/
structure Unwinds (goesOn : Nat → Bool) (st st' : Tasks F) : Prop where
  handed : st'.handed = st.handed
  hands  : ∀ c, st'.inHand c = true → st.inHand c = true
  sends  : st'.sends = st.sends ∨
             ∃ x, st'.sends = st.sends ++ [x] ∧ x.1 < st.calls.length ∧ goesOn x.1 = true
  calls  : st'.calls = st.calls ∨ ∃ (c : Nat) (call call' : Call F), st.calls[c]? = some call ∧
             st'.calls = st.calls.set c call' ∧ Replaces call call'
  empty  : ∀ (q : Nat) queue, st.queues[q]? = some queue → queue.items = [] →
             ∃ queue', st'.queues[q]? = some queue' ∧ queue'.items = []

theorem inHand_of_workers (h : ∀ (w : Nat) (oid : String) (q c : Nat), st'.workers[w]? = some ⟨oid, .busy q c⟩ →
    st.workers[w]? = some ⟨oid, .busy q c⟩) (hc : st'.inHand c = true) : st.inHand c = true := by
  obtain ⟨w, oid, q, hw⟩ := inHand_iff.mp hc
  exact inHand_iff.mpr ⟨w, oid, q, h w oid q c hw⟩

/-- A worker that is replaced by one that is at nothing. -/
theorem busy_of_set {workers : List Tasks.Worker} {worker worker' : Tasks.Worker} (hw : workers[w]? = some worker)
    (hphase : ∀ q c, worker'.phase ≠ .busy q c) (w' : Nat) (oid : String) (q c : Nat)
    (h : (workers.set w worker')[w']? = some ⟨oid, .busy q c⟩) : workers[w']? = some ⟨oid, .busy q c⟩ := by
  rcases (getElem?_set_eq_some hw).mp h with ⟨-, heq⟩ | ⟨-, hold⟩
  · exact absurd (congrArg Tasks.Worker.phase heq).symm (hphase q c)
  · exact hold

/-- A step of a coroutine that survives the stop. -/
theorem unwinds_of_engine {event : Tasks.Event F} (hstopped : s.stopped = some t₀)
    (hsurvives : s.survives event = true) (hstep : s.tasks.step event = some st') :
    Unwinds s.goesOn s.tasks st' := by
  cases event with
  | register oid cpuBound outputTopics =>
      cases hstep
      exact ⟨rfl, fun _ h => h, Or.inl rfl, Or.inl rfl, fun _ queue hq hitems => ⟨queue, hq, hitems⟩⟩
  | makeQueue r =>
      obtain ⟨oid, topics, -, -, rfl⟩ := makeQueue_eq_some hstep
      refine ⟨rfl, fun _ => inHand_of_workers fun w oid' q c hw => ?_, Or.inl rfl, Or.inl rfl,
        fun q queue hq hitems => ⟨queue, getElem?_concat_of_some hq _, hitems⟩⟩
      rcases getElem?_concat_eq_some.mp hw with hold | ⟨-, heq⟩
      · exact hold
      · cases heq
  -- a dispatch does not survive a stop, and neither does a worker that would take an item
  | dispatch oid => cases hsurvives
  | processed c result =>
      obtain ⟨oid, r, outputs, emitAs, hc, rfl⟩ := processed_eq_some hstep
      exact ⟨rfl, fun _ h => h, Or.inl rfl, Or.inr ⟨c, _, _, hc, rfl, Or.inl ⟨nofun, nofun⟩⟩,
        fun _ queue hq hitems => ⟨queue, hq, hitems⟩⟩
  | send c accepted =>
      obtain ⟨oid, r, outputs, payload, pending, hc, ⟨-, rfl⟩ | ⟨-, rfl⟩⟩ := send_eq_some hstep
      -- what is sent is sent by a call that was there
      · exact ⟨rfl, fun _ h => h, Or.inr ⟨_, rfl, lt_length_of_getElem? hc, hsurvives⟩,
          Or.inr ⟨c, _, _, hc, rfl, Or.inl ⟨nofun, nofun⟩⟩, fun _ queue hq hitems => ⟨queue, hq, hitems⟩⟩
      · exact ⟨rfl, fun _ h => h, Or.inl rfl, Or.inr ⟨c, _, _, hc, rfl, Or.inl ⟨nofun, nofun⟩⟩,
          fun _ queue hq hitems => ⟨queue, hq, hitems⟩⟩
  | startWorker w =>
      obtain ⟨oid, hw, ⟨q, -, rfl⟩ | ⟨-, rfl⟩⟩ := startWorker_eq_some hstep
      all_goals exact ⟨rfl, fun _ => inHand_of_workers (busy_of_set hw nofun), Or.inl rfl, Or.inl rfl,
        fun _ queue hq hitems => ⟨queue, hq, hitems⟩⟩
  | takeItem w =>
      have hnone : s.stopped.isNone = true := hsurvives
      rw [hstopped] at hnone
      cases hnone
  | taskDone w =>
      obtain ⟨oid, q, c, queue, oid', r, outputs, hw, hq, -, rfl⟩ := taskDone_eq_some hstep
      exact ⟨rfl, fun _ => inHand_of_workers (busy_of_set hw nofun), Or.inl rfl, Or.inl rfl,
        fun _ queue' hq' hitems => exists_getElem?_set hq id ⟨queue', hq', hitems⟩⟩
  | deregister oid =>
      cases hstep
      -- a deregistration changes the tables, and neither calls nor sends
      have hsends : (s.tasks.deregister oid).sends = s.tasks.sends := by
        rcases deregister_cases s.tasks oid with ⟨-, heq⟩ | ⟨r, -, ⟨q, -, -, heq⟩ | ⟨-, heq⟩⟩
        all_goals rw [heq]
      exact ⟨handed_deregister s.tasks oid, fun _ => inHand_of_workers fun w oid' q c hw => by simpa using hw,
        Or.inl hsends, Or.inl (calls_deregister s.tasks oid),
        fun q queue hq hitems => ⟨queue, by simpa using hq, hitems⟩⟩
  | joined d =>
      obtain ⟨oid, r, q, -, -, rfl⟩ := joined_eq_some hstep
      exact ⟨rfl, fun _ h => h, Or.inl rfl, Or.inl rfl, fun _ queue hq hitems => ⟨queue, hq, hitems⟩⟩

theorem unwinds_of_discard {goesOn : Nat → Bool} (h : st.discard w = some st') : Unwinds goesOn st st' := by
  obtain ⟨oid, q, queue, c, items, call, -, hq, hitems, hc, rfl⟩ := discard_eq_some h
  refine ⟨rfl, fun _ h => h, Or.inl rfl, Or.inr ⟨c, call, _, hc, rfl, Or.inr ⟨rfl, rfl⟩⟩,
    fun _ queue' hq' hitems' => exists_getElem?_set hq (fun h => ?_) ⟨queue', hq', hitems'⟩⟩
  rw [hitems] at h
  cases h

theorem unwinds_of_cancel {goesOn : Nat → Bool} (h : st.cancel c = some st') : Unwinds goesOn st st' := by
  obtain ⟨call, hc, -, -, rfl⟩ := cancel_eq_some h
  exact ⟨rfl, fun _ h => h, Or.inl rfl, Or.inr ⟨c, call, _, hc, rfl, Or.inr ⟨rfl, rfl⟩⟩,
    fun _ queue hq hitems => ⟨queue, hq, hitems⟩⟩

/-- **The steps of a stopped engine.** The coroutines under way unwind, or a loop that was not cancelled dispatches. -/
theorem unwinds_of_step (hstopped : s.stopped = some t₀) (hstep : step s a = some s') :
    s'.stopped = some t₀ ∧ s'.loops = s.loops ∧ s'.cancelled = s.cancelled ∧
      ((s'.callers = s.callers ∧ Unwinds s.goesOn s.tasks s'.tasks) ∨
        ∃ l oid, l < s.loops ∧ l ∉ s.cancelled ∧ s'.tasks = s.tasks.dispatch oid ∧
          s'.callers = Function.update s.callers s.tasks.calls.length l) := by
  cases a with
  | engine event =>
      obtain ⟨hguard, hstep⟩ := Option.ite_none_right_eq_some.mp hstep
      obtain ⟨tasks, htasks, rfl⟩ := Option.map_eq_some_iff.mp hstep
      exact ⟨hstopped, rfl, rfl, Or.inl ⟨rfl, unwinds_of_engine hstopped hguard htasks⟩⟩
  | startLoop topic =>
      -- loops are started, and the engine is stopped, only before
      obtain ⟨hguard, -⟩ := Option.ite_none_right_eq_some.mp hstep
      rw [hstopped] at hguard
      cases hguard
  | dispatch l oid =>
      obtain ⟨⟨hlt, hout⟩, hstep⟩ := Option.ite_none_right_eq_some.mp hstep
      cases hstep
      -- the one way in which a call is still made: by a loop that was not cancelled
      exact ⟨hstopped, rfl, rfl, Or.inr ⟨l, oid, hlt, hout, rfl, rfl⟩⟩
  | stop =>
      obtain ⟨hguard, -⟩ := Option.ite_none_right_eq_some.mp hstep
      rw [hstopped] at hguard
      cases hguard
  | discard w =>
      obtain ⟨-, hstep⟩ := Option.ite_none_right_eq_some.mp hstep
      obtain ⟨tasks, htasks, rfl⟩ := Option.map_eq_some_iff.mp hstep
      exact ⟨hstopped, rfl, rfl, Or.inl ⟨rfl, unwinds_of_discard htasks⟩⟩
  | exit w =>
      obtain ⟨-, hstep⟩ := Option.ite_none_right_eq_some.mp hstep
      cases hstep
      exact ⟨hstopped, rfl, rfl, Or.inl
        ⟨rfl, rfl, fun _ h => h, Or.inl rfl, Or.inl rfl, fun _ queue hq hitems => ⟨queue, hq, hitems⟩⟩⟩
  | cancel c =>
      obtain ⟨-, hstep⟩ := Option.ite_none_right_eq_some.mp hstep
      obtain ⟨tasks, htasks, rfl⟩ := Option.map_eq_some_iff.mp hstep
      exact ⟨hstopped, rfl, rfl, Or.inl ⟨rfl, unwinds_of_cancel htasks⟩⟩

/-! ## What is lost

The state since the stop against the state at the stop. The items that were queued then are never handed to the pool;
a worker that takes one finds the pool shut down, and drops it. -/

/-- A call that a consume loop makes without being in `_consumer_tasks`. -/
def Stray (s : Shutdown F) (c : Nat) : Prop := c < s.tasks.calls.length ∧ s.callers c ∉ s.cancelled

/-- What the engine is now, of what it was when it was stopped. -/
structure Since (t₀ : Tasks F) (s : Shutdown F) : Prop where
  handed : s.tasks.handed = t₀.handed
  grown  : t₀.calls.length ≤ s.tasks.calls.length
  made   : ∀ c, t₀.calls.length ≤ c → c < s.tasks.calls.length → s.Stray c
  hands  : ∀ c, s.tasks.inHand c = true → t₀.inHand c = true
  sends  : ∃ late, s.tasks.sends = t₀.sends ++ late ∧ ∀ x ∈ late, t₀.inHand x.1 = true ∨ s.Stray x.1
  queued : ∀ (c : Nat) call, t₀.calls[c]? = some call → call.phase = .queued →
             ∃ call', s.tasks.calls[c]? = some call' ∧ call'.outputs = call.outputs ∧
               (call'.phase = .queued ∨ call'.phase = .ended)

theorem Since.of_stop (h : s.tasks = t₀) : Since t₀ s := by
  subst h
  exact ⟨rfl, le_refl _, fun _ hle hlt => absurd hlt (Nat.not_lt.mpr hle), fun _ h => h,
    ⟨[], (List.append_nil _).symm, nofun⟩, fun _ call hc hphase => ⟨call, hc, rfl, Or.inl hphase⟩⟩

/-- **What unwinds keeps what was queued out of the pool.** -/
theorem Since.unwind (h : Since t₀ s) (hcallers : s'.callers = s.callers) (hcancelled : s'.cancelled = s.cancelled)
    (hstep : Unwinds s.goesOn s.tasks s'.tasks) : Since t₀ s' := by
  have hlength : s'.tasks.calls.length = s.tasks.calls.length := by
    rcases hstep.calls with heq | ⟨c, call, call', -, heq, -⟩
    · rw [heq]
    · rw [heq, List.length_set]
  have hstray : ∀ c, s.Stray c → s'.Stray c := by
    rintro c ⟨hlt, hout⟩
    exact ⟨hlength ▸ hlt, by rw [hcallers, hcancelled]; exact hout⟩
  refine ⟨hstep.handed.trans h.handed, hlength ▸ h.grown, fun c hle hlt => hstray c (h.made c hle (hlength ▸ hlt)),
    fun c hc => h.hands c (hstep.hands c hc), ?_, ?_⟩
  · obtain ⟨late, hlate, hfrom⟩ := h.sends
    have hfrom' : ∀ x ∈ late, t₀.inHand x.1 = true ∨ s'.Stray x.1 := fun x hx => (hfrom x hx).imp_right (hstray x.1)
    rcases hstep.sends with heq | ⟨x, heq, hlt, hgoes⟩
    · exact ⟨late, heq.trans hlate, hfrom'⟩
    · refine ⟨late ++ [x], by rw [heq, hlate, List.append_assoc], fun y hy => ?_⟩
      rcases List.mem_append.mp hy with hold | hnew
      · exact hfrom' y hold
      · rw [List.mem_singleton.mp hnew]
        rcases Bool.or_eq_true_iff.mp hgoes with hhand | hout
        · exact Or.inl (h.hands x.1 hhand)
        · exact Or.inr (hstray x.1 ⟨hlt, of_decide_eq_true hout⟩)
  · intro c call hc hphase
    obtain ⟨call', hc', houtputs, hwas⟩ := h.queued c call hc hphase
    rcases hstep.calls with heq | ⟨c₁, call₁, call₂, hc₁, heq, hreplaces⟩
    · exact ⟨call', heq ▸ hc', houtputs, hwas⟩
    · rw [heq]
      by_cases hsame : c = c₁
      · subst hsame
        rw [hc'] at hc₁
        cases hc₁
        refine ⟨call₂, (getElem?_set_eq_some hc').mpr (Or.inl ⟨rfl, rfl⟩), ?_⟩
        -- a queued call can only end as it is
        rcases hreplaces with ⟨hqueued, hended⟩ | ⟨hkept, hend⟩
        · rcases hwas with hwas | hwas
          · exact absurd hwas hqueued
          · exact absurd hwas hended
        · exact ⟨hkept.trans houtputs, Or.inr hend⟩
      · exact ⟨call', (getElem?_set_eq_some hc₁).mpr (Or.inr ⟨hsame, hc'⟩), houtputs, hwas⟩

/-- A dispatch hands nothing to the pool and sends nothing. -/
theorem sends_dispatch (st : Tasks F) (oid : String) :
    (st.dispatch oid).sends = st.sends ∧ (st.dispatch oid).handed = st.handed := by
  rcases dispatch_cases st oid with ⟨-, heq⟩ | ⟨r, -, ⟨q, queue, -, -, -, heq⟩ | ⟨-, -, heq⟩ | ⟨-, heq⟩⟩
  all_goals
    rw [heq]
    exact ⟨rfl, rfl⟩

/-- A loop that was not cancelled makes a call. -/
theorem Since.dispatch (h : Since t₀ s) {l : Nat} {oid : String} (hout : l ∉ s.cancelled)
    (htasks : s'.tasks = s.tasks.dispatch oid) (hcancelled : s'.cancelled = s.cancelled)
    (hcallers : s'.callers = Function.update s.callers s.tasks.calls.length l) : Since t₀ s' := by
  obtain ⟨hsends, hhanded⟩ := sends_dispatch s.tasks oid
  have hcalls := calls_dispatch s.tasks oid
  rw [← htasks] at hsends hhanded hcalls
  -- the call that may have been made has a new number, so the others have the callers they had
  have hkept : ∀ c < s.tasks.calls.length, s'.callers c = s.callers c := by
    intro c hlt
    rw [hcallers]
    exact Function.update_of_ne (Nat.ne_of_lt hlt) _ _
  have hle : s.tasks.calls.length ≤ s'.tasks.calls.length := by
    rcases hcalls with heq | ⟨call, -, heq⟩
    · rw [heq]
    · rw [heq, List.length_append]
      exact Nat.le_add_right _ _
  have hstray : ∀ c, s.Stray c → s'.Stray c := by
    rintro c ⟨hlt, hc⟩
    exact ⟨Nat.lt_of_lt_of_le hlt hle, by rw [hkept c hlt, hcancelled]; exact hc⟩
  refine ⟨hhanded.trans h.handed, h.grown.trans hle, fun c hge hlt => ?_, fun c hc => h.hands c ?_, ?_,
    fun c call hc hphase => ?_⟩
  -- a call that was there is as stray as it was
  · rcases Nat.lt_or_ge c s.tasks.calls.length with hold | hnew
    · exact hstray c (h.made c hge hold)
    · -- the call that is made now
      refine ⟨hlt, ?_⟩
      rcases hcalls with heq | ⟨call, -, heq⟩
      · rw [heq] at hlt
        exact absurd hlt (Nat.not_lt.mpr hnew)
      · rw [heq, List.length_append] at hlt
        have hc : c = s.tasks.calls.length := Nat.le_antisymm (Nat.le_of_lt_succ hlt) hnew
        rw [hc, hcallers, Function.update_self, hcancelled]
        exact hout
  · unfold inHand at hc ⊢
    rw [htasks, workers_dispatch] at hc
    exact hc
  · obtain ⟨late, hlate, hfrom⟩ := h.sends
    exact ⟨late, hsends.trans hlate, fun x hx => (hfrom x hx).imp_right (hstray x.1)⟩
  · obtain ⟨call', hc', hcall'⟩ := h.queued c call hc hphase
    refine ⟨call', ?_, hcall'⟩
    rcases hcalls with heq | ⟨new, -, heq⟩
    · rw [heq]
      exact hc'
    · rw [heq]
      exact getElem?_concat_of_some hc' _

/-- A stopped engine was a running one when it was stopped. -/
theorem since_stop (h : system.Reachable s) :
    (s.stopped = none → Tasks.system.Reachable s.tasks) ∧
      ∀ t₀, s.stopped = some t₀ → Tasks.system.Reachable t₀ ∧ Since t₀ s := by
  refine h.invariant (I := fun s => (s.stopped = none → Tasks.system.Reachable s.tasks) ∧
    ∀ t₀, s.stopped = some t₀ → Tasks.system.Reachable t₀ ∧ Since t₀ s) ?_ ?_
  · rintro _ rfl
    exact ⟨fun _ => Lts.Reachable.of_init rfl, nofun⟩
  · rintro s a s' ⟨hrunning, hsince⟩ hstep
    cases hstopped : s.stopped with
    | some t₀ =>
        obtain ⟨hkept, -, hcancelled, hcases⟩ := unwinds_of_step hstopped hstep
        obtain ⟨hreach, hwas⟩ := hsince t₀ hstopped
        have hnow : Since t₀ s' := by
          rcases hcases with ⟨hcallers, hunwinds⟩ | ⟨l, oid, -, hout, htasks, hcallers⟩
          · exact hwas.unwind hcallers hcancelled hunwinds
          · exact hwas.dispatch hout htasks hcancelled hcallers
        refine ⟨fun hnone => ?_, fun t₁ ht₁ => ?_⟩
        · rw [hkept] at hnone
          cases hnone
        · rw [hkept] at ht₁
          cases ht₁
          exact ⟨hreach, hnow⟩
    | none =>
        have hreach := hrunning hstopped
        -- before the stop, the engine goes through the steps of `Hea.Tasks`
        have hrun : ∀ {tasks : Tasks F} {s₁ : Shutdown F}, Tasks.system.Reachable tasks → s₁.tasks = tasks →
            s₁.stopped = none → (s₁.stopped = none → Tasks.system.Reachable s₁.tasks) ∧
              ∀ t₀, s₁.stopped = some t₀ → Tasks.system.Reachable t₀ ∧ Since t₀ s₁ := by
          rintro tasks s₁ htasks rfl hnone
          refine ⟨fun _ => htasks, fun t₀ ht₀ => ?_⟩
          rw [hnone] at ht₀
          cases ht₀
        cases a with
        | engine event =>
            obtain ⟨-, hstep⟩ := Option.ite_none_right_eq_some.mp hstep
            obtain ⟨tasks, htasks, rfl⟩ := Option.map_eq_some_iff.mp hstep
            exact hrun (hreach.tail htasks) rfl hstopped
        | startLoop topic =>
            obtain ⟨-, hstep⟩ := Option.ite_none_right_eq_some.mp hstep
            cases hstep
            exact hrun hreach rfl hstopped
        | dispatch l oid =>
            obtain ⟨-, hstep⟩ := Option.ite_none_right_eq_some.mp hstep
            cases hstep
            exact hrun (hreach.tail (a := .dispatch oid) rfl) rfl hstopped
        | stop =>
            obtain ⟨-, hstep⟩ := Option.ite_none_right_eq_some.mp hstep
            cases hstep
            refine ⟨nofun, ?_⟩
            rintro _ ⟨⟩
            exact ⟨hreach, .of_stop rfl⟩
        | discard w =>
            obtain ⟨⟨hguard, -⟩, -⟩ := Option.ite_none_right_eq_some.mp hstep
            rw [hstopped] at hguard
            cases hguard
        | exit w =>
            obtain ⟨⟨hguard, -⟩, -⟩ := Option.ite_none_right_eq_some.mp hstep
            rw [hstopped] at hguard
            cases hguard
        | cancel c =>
            obtain ⟨⟨hguard, -⟩, -⟩ := Option.ite_none_right_eq_some.mp hstep
            rw [hstopped] at hguard
            cases hguard

/-- **A stop drops what is queued.** In every run, once `stop` has been called nothing is handed to the pool any more,
    and a call that was queued then stays without a result. What is still called comes from the consume loops that are
    not in `_consumer_tasks`, and what is still sent from them and from the calls the workers were at. The proof carries
    `Since` along the run: an invariant of every step after the stop that remembers the state at the stop. -/
theorem stop_drops_queued (h : system.Reachable s) (hstopped : s.stopped = some t₀) :
    Tasks.system.Reachable t₀ ∧ s.tasks.handed = t₀.handed ∧
      (∀ c, t₀.calls.length ≤ c → c < s.tasks.calls.length → s.Stray c) ∧
      (∃ late, s.tasks.sends = t₀.sends ++ late ∧ ∀ x ∈ late, t₀.inHand x.1 = true ∨ s.Stray x.1) ∧
      ∀ (c : Nat) call, t₀.calls[c]? = some call → call.phase = .queued →
        ∃ call', s.tasks.calls[c]? = some call' ∧ call'.outputs = call.outputs ∧
          (call'.phase = .queued ∨ call'.phase = .ended) := by
  obtain ⟨hreach, hsince⟩ := (since_stop h).2 t₀ hstopped
  exact ⟨hreach, hsince.handed, hsince.made, hsince.sends, hsince.queued⟩

/-- The call waits in a worker queue. -/
def waits : Phase F → Bool
  | .queued => true
  | _       => false

/-- One record with a worker and one behind it in the queue. -/
def stoppedBetween : List (ShutdownEvent ℚ) :=
  [.engine (.register "op" true ["out"]), .startLoop "in", .engine (.makeQueue 0), .dispatch 0 "op", .dispatch 0 "op",
    .engine (.startWorker 0), .engine (.takeItem 0), .stop, .engine (.processed 0 (.ok [∅])),
    .engine (.send 0 true), .engine (.taskDone 0), .discard 0]

/-- What is sent after the stop is of the first record; the second, which was queued, is taken and has no result. -/
theorem stop_drops_queued_between : ∃ (s : Shutdown ℚ) (t₀ : Tasks ℚ), s.stopped = some t₀ ∧
    s.tasks.sends.length = t₀.sends.length + 1 ∧ s.tasks.handed = t₀.handed ∧
      ∃ call, s.tasks.calls[1]? = some call ∧ call.outputs.length = 0 := by
  have hrun : ((Lts.exec step stoppedBetween started).bind fun s => s.stopped.bind fun t₀ =>
      (t₀.calls[1]?).map fun call => (s.tasks.sends.length, t₀.sends.length, call.outputs.length,
        waits call.phase)) = some (1, 0, 0, true) := by decide +kernel
  obtain ⟨s, hs, hrun⟩ := Option.bind_eq_some_iff.mp hrun
  obtain ⟨t₀, ht₀, hrun⟩ := Option.bind_eq_some_iff.mp hrun
  obtain ⟨call, hc, hrun⟩ := Option.map_eq_some_iff.mp hrun
  obtain ⟨hnow, hrun⟩ := Prod.mk.inj hrun
  obtain ⟨hthen, hrun⟩ := Prod.mk.inj hrun
  obtain ⟨hempty, hphase⟩ := Prod.mk.inj hrun
  have hqueued : call.phase = .queued := by
    cases heq : call.phase with
    | queued => rfl
    | dropped | processing | emitting | ended => rw [heq] at hphase; cases hphase
  obtain ⟨-, hhanded, -, -, hwaited⟩ := stop_drops_queued (Lts.reachable_of_exec rfl hs) ht₀
  obtain ⟨call', hc', houtputs, -⟩ := hwaited 1 call hc hqueued
  exact ⟨s, t₀, ht₀, by rw [hnow, hthen], hhanded, call', hc', by rw [houtputs, hempty]⟩

/-- Two registrations overlap on a new topic: the loop that lost its entry goes on after the stop. -/
theorem stray_loop_sends : ∃ (s : Shutdown ℚ) (t₀ : Tasks ℚ), system.Reachable s ∧ s.stopped = some t₀ ∧
    s.tasks.sends.length = t₀.sends.length + 1 ∧ s.tasks.calls.length = t₀.calls.length + 1 := by
  have hrun : ((Lts.exec step [.engine (.register "op" false ["out"]), .startLoop "in", .startLoop "in", .stop,
      .dispatch 0 "op", .engine (.processed 0 (.ok [∅])), .engine (.send 0 true)] (started : Shutdown ℚ)).bind fun s =>
        s.stopped.map fun t₀ => ((s.tasks.sends.length, t₀.sends.length), s.tasks.calls.length, t₀.calls.length)) =
      some ((1, 0), 1, 0) := by decide +kernel
  obtain ⟨s, hs, hrun⟩ := Option.bind_eq_some_iff.mp hrun
  obtain ⟨t₀, ht₀, hrun⟩ := Option.map_eq_some_iff.mp hrun
  obtain ⟨hsends, hcalls⟩ := Prod.mk.inj hrun
  obtain ⟨hnow, hthen⟩ := Prod.mk.inj hsends
  obtain ⟨hmade, hbefore⟩ := Prod.mk.inj hcalls
  exact ⟨s, t₀, Lts.reachable_of_exec rfl hs, ht₀, by rw [hnow, hthen], by rw [hmade, hbefore]⟩

end Shutdown
end Hea
end HybridStream
