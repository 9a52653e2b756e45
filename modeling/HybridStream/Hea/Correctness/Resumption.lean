import HybridStream.Hea.Correctness.PausedTopics
import HybridStream.Hea.Correctness.UnboundedQueues
import HybridStream.Hea.Metrics
import HybridStream.Lib.Fair
import HybridStream.Lib.Slots
import Mathlib.Data.Prod.Lex

/-!
# `Hea.Correctness.Resumption` — a paused topic is resumed

A topic that a CPU-bound operator has filled up is paused, and its consumer gets nothing any more. In every behaviour
in which each consume loop and each worker goes on, the loop finishes its batch, the worker takes the queue down, and
a check resumes the topic (`paused_topic_resumed`). The operator has to be the last one with a queue on the topic, so
that its reading is the one that counts, and on no other topic, which could go on filling its queue.
-/

namespace HybridStream
namespace Hea

open Lib Py

variable {F σ : Type}

/-! ## Coroutines

The loops and the workers are assumed to go on; nothing is assumed of deregistrations, which come from outside. -/

/-- What moves on its own: the loop of a topic, a worker. -/
inductive ThrottleCoroutine where
  | loop (topic : String)
  | worker (w : Nat)
  deriving DecidableEq

/-- The coroutine a step belongs to; deregistrations come from outside. -/
def ThrottleEvent.coroutine : ThrottleEvent F → Option ThrottleCoroutine
  | .getmany topic _  => some (.loop topic)
  | .next topic _     => some (.loop topic)
  | .dispatch topic _ => some (.loop topic)
  | .check topic      => some (.loop topic)
  | .work w _ _       => some (.worker w)
  | .deregister _     => none

/-- The operator stays registered. -/
def ThrottleEvent.keeps (oid : String) : ThrottleEvent F → Prop
  | .deregister oid' => oid' ≠ oid
  | _                => True

namespace Throttle

variable {config : ThrottleConfig} {deserialize : List UInt8 → Except PyError (Record F)} {e₀ : Engine F σ}
  {st st' : Throttle F σ} {oid topic : String} {q w : Nat}

/-- Every coroutine that can move does so eventually; in particular `getmany` and `process` return or raise. -/
def Fair {M : Lts (Throttle F σ) (ThrottleEvent F)} (b : M.Behaviour) : Prop :=
  ∀ coroutine, b.WeaklyFair (fun event => event.coroutine = some coroutine)

/-! ## What stays as it was registered

The bindings, the queue and its worker, as long as the operator itself is not deregistered; those of other operators
may go. -/

/-- The worker is on its way to the queue, or serves it. -/
def Serving (q : Nat) : WorkerState F → Prop
  | .created          => True
  | .polling q'       => q' = q
  | .executing q' _ _ => q' = q
  | .dead             => False

/-- The bindings and the queue of the operator are those of the registrations, its queue is served, and the loops
    dispatch to operators of their topics. -/
structure Fed (e₀ : Engine F σ) (oid : String) (q w : Nat) (st : Throttle F σ) : Prop where
  bindings  : ∀ topic, st.engine.bindings topic = e₀.bindings topic
  consumers : st.engine.consumers = e₀.consumers
  queues    : ∀ oid' q', st.engine.workerQueues.get oid' = some q' → e₀.workerQueues.get oid' = some q'
  queue     : st.engine.workerQueues.get oid = some q
  worker    : ∃ state, st.engine.workers[w]? = some ⟨oid, state⟩ ∧ Serving q state
  todo      : ∀ topic todo batch, st.loops topic = .handling todo batch → ∀ x ∈ todo, x.1 ∈ e₀.bindings topic
  running   : ∀ topic, st.loops topic ≠ .stopped

/-- Every queue in the table comes with a worker. -/
def Attended (e : Engine F σ) : Prop :=
  ∀ oid q, e.workerQueues.get oid = some q → ∃ w : Nat, e.workers[w]? = some ⟨oid, .created⟩

theorem attended_registerOperator {e : Engine F σ} (h : Attended e) (op : Nat)
    (inputTopics outputTopics : List String) : Attended (e.registerOperator op inputTopics outputTopics) := by
  let e₁ : Engine F σ :=
    { e with
      operators    := e.operators.set (e.operatorIdOf op) op
      outputRoutes := e.outputRoutes.set (e.operatorIdOf op) outputTopics }
  obtain ⟨bound, consumers, hfold⟩ := Engine.foldl_bindTopic (e.operatorIdOf op) inputTopics e₁
  unfold Engine.registerOperator
  dsimp only
  rw [hfold]
  split
  · intro oid q hq
    unfold Engine.addWorker at hq ⊢
    dsimp only at hq ⊢
    rw [Dict.get_set] at hq
    split at hq
    · rename_i heq
      rw [heq]
      exact ⟨_, getElem?_concat_self _ _⟩
    · obtain ⟨w, hw⟩ := h oid q hq
      exact ⟨w, getElem?_concat_of_some hw _⟩
  · exact h

theorem attended_of_registered {accepts : Nat → Bool} {heap : Nat → OperatorObject F σ} {e : Engine F σ}
    (h : ((Engine.system accepts heap).restrict Engine.Registers).Reachable e) : Attended e := by
  refine h.invariant ?_ ?_
  · rintro _ rfl oid q hq
    cases hq
  · rintro s event s' hs ⟨hstep, hregisters⟩
    cases event with
    | register oid op inputTopics outputTopics =>
        obtain ⟨-, rfl⟩ := Option.ite_none_right_eq_some.mp hstep |>.imp_right Option.some.inj
        exact attended_registerOperator hs op inputTopics outputTopics
    | deregister | consume | work => exact hregisters.elim

namespace Fed

/-- A step of a loop. -/
theorem withLoop (h : Fed e₀ oid q w st) {loop : Loop F}
    (htodo : ∀ todo batch, loop = .handling todo batch → ∀ x ∈ todo, x.1 ∈ e₀.bindings topic)
    (hrunning : loop ≠ .stopped) : Fed e₀ oid q w (st.withLoop topic loop) where
  bindings := h.bindings
  consumers := h.consumers
  queues := h.queues
  queue := h.queue
  worker := h.worker
  todo topic' todo batch hloop := by
    unfold Throttle.withLoop at hloop
    dsimp only at hloop
    by_cases heq : topic' = topic
    · subst heq
      rw [Function.update_self] at hloop
      exact htodo todo batch hloop
    · rw [Function.update_of_ne heq] at hloop
      exact h.todo topic' todo batch hloop
  running topic' := by
    unfold Throttle.withLoop
    dsimp only
    by_cases heq : topic' = topic
    · subst heq
      rw [Function.update_self]
      exact hrunning
    · rw [Function.update_of_ne heq]
      exact h.running topic'

/-- A step of the engine that leaves the registrations and the worker's way to the queue. -/
theorem withEngine (h : Fed e₀ oid q w st) {e : Engine F σ} (hregistry : Engine.SameRegistry st.engine e)
    (hconsumers : e.consumers = st.engine.consumers)
    (hworker : ∃ state, e.workers[w]? = some ⟨oid, state⟩ ∧ Serving q state) :
    Fed e₀ oid q w { st with engine := e } where
  bindings topic := by
    rw [← h.bindings topic]
    unfold Engine.bindings
    rw [hregistry.topicBindings]
  consumers := hconsumers.trans h.consumers
  queues := by
    rw [hregistry.workerQueues]
    exact h.queues
  queue := by
    rw [hregistry.workerQueues]
    exact h.queue
  worker := hworker
  todo := h.todo
  running := h.running

end Fed

/-! ## The worker of the queue

The work that is left to the worker of the queue, as a number that its own steps lower and the steps of the others do
not raise while nothing is dispatched. -/

/-- How many turns the worker takes before it polls. -/
def turns : WorkerState F → Nat
  | .polling _ => 0
  | _          => 1

/-- What is left to the worker: the items, and its way back to them. -/
def workLeft (q w : Nat) (e : Engine F σ) : ℕ ×ₗ ℕ :=
  toLex (e.depth q, (e.workers[w]?).elim 0 (fun worker => turns worker.state))

theorem workLeft_of_some {e : Engine F σ} {state : WorkerState F} (hw : e.workers[w]? = some ⟨oid, state⟩) :
    workLeft q w e = toLex (e.depth q, turns state) := by
  unfold workLeft
  rw [hw]
  rfl

section Work

variable {accepts : Nat → Bool} {e e' : Engine F σ} {state : WorkerState F}

/-- The worker's own step brings it nearer to the end of its queue. -/
theorem serving_of_own_step {event : Engine.WorkerEvent} (hw : e.workers[w]? = some ⟨oid, state⟩)
    (hserving : Serving q state) (hq : e.workerQueues.get oid = some q)
    (hstep : e.workerStep accepts w event = some e') :
    (∃ state', e'.workers[w]? = some ⟨oid, state'⟩ ∧ Serving q state') ∧ workLeft q w e' < workLeft q w e := by
  -- in each state the worker can do one thing; the steps of the other states are refused by `hw`
  cases event with
  | start =>
      obtain ⟨oid', state', hw', -, -⟩ := Engine.startWorker_eq_some hstep
      rw [hw] at hw'
      cases hw'
      have hstart : e.startWorker w = some { e with workers := e.workers.set w ⟨oid, .polling q⟩ } := by
        unfold Engine.startWorker
        rw [hw]
        simp [hq]
      obtain rfl := Option.some.inj (hstep.symm.trans hstart)
      have hself := (getElem?_set_eq_some (a := (⟨oid, .polling q⟩ : Worker F)) hw).mpr (Or.inl ⟨rfl, rfl⟩)
      refine ⟨⟨_, hself, rfl⟩, ?_⟩
      rw [workLeft_of_some hself, workLeft_of_some hw]
      exact Prod.Lex.toLex_lt_toLex.mpr (Or.inr ⟨rfl, Nat.zero_lt_one⟩)
  | take =>
      obtain ⟨oid', q', item, rest, hw', hq', rfl⟩ := Engine.takeItem_eq_some hstep
      rw [hw] at hw'
      cases hw'
      obtain rfl : q' = q := hserving
      have hself := (getElem?_set_eq_some (a := (⟨oid, .executing q' item
        (Engine.runOperatorSync (e.heap item.op) item.delivery)⟩ : Worker F)) hw).mpr (Or.inl ⟨rfl, rfl⟩)
      refine ⟨⟨_, hself, rfl⟩, ?_⟩
      rw [workLeft_of_some hself, workLeft_of_some hw]
      -- the queue is one shorter, which outweighs that the worker is now busy
      refine Prod.Lex.toLex_lt_toLex.mpr (Or.inl ?_)
      obtain ⟨hlt, heq⟩ := List.getElem?_eq_some_iff.mp hq'
      simp [Engine.depth, List.getD_eq_getElem?_getD, hlt, heq]
  | finish =>
      obtain ⟨oid', q', item, result, hw', rfl⟩ := Engine.finishItem_eq_some hstep
      rw [hw] at hw'
      cases hw'
      obtain rfl : q' = q := hserving
      have hself : (e.workers.set w ⟨oid, .polling q'⟩)[w]? = some ⟨oid, .polling q'⟩ :=
        (getElem?_set_eq_some hw).mpr (Or.inl ⟨rfl, rfl⟩)
      have hconcluded : (Engine.conclude accepts { e with workers := e.workers.set w ⟨oid, .polling q'⟩ } oid
          item.operatorId item.delivery.origin result).workers[w]? = some ⟨oid, .polling q'⟩ := by
        rw [Engine.workers_conclude]
        exact hself
      refine ⟨⟨_, hconcluded, rfl⟩, ?_⟩
      rw [workLeft_of_some hconcluded, workLeft_of_some hw]
      -- the queue is as long as before, and the worker is idle again
      refine Prod.Lex.toLex_lt_toLex.mpr (Or.inr ⟨?_, Nat.zero_lt_one⟩)
      unfold Engine.depth
      rw [Engine.queues_conclude]
  | fail =>
      obtain ⟨oid', q', item, result, hw', rfl⟩ := Engine.failItem_eq_some hstep
      rw [hw] at hw'
      cases hw'
      obtain rfl : q' = q := hserving
      have hself := (getElem?_set_eq_some (a := (⟨oid, .polling q'⟩ : Worker F)) hw).mpr (Or.inl ⟨rfl, rfl⟩)
      refine ⟨⟨_, hself, rfl⟩, ?_⟩
      rw [workLeft_of_some hself, workLeft_of_some hw]
      exact Prod.Lex.toLex_lt_toLex.mpr (Or.inr ⟨rfl, Nat.zero_lt_one⟩)

/-- The other workers leave it where it is. -/
theorem worker_of_other_step {w' : Nat} {event : Engine.WorkerEvent} {worker : Worker F} (hne : w ≠ w')
    (hw : e.workers[w]? = some worker) (hstep : e.workerStep accepts w' event = some e') :
    e'.workers[w]? = some worker := by
  cases event with
  | start =>
      obtain ⟨oid', state', hw', -, rfl⟩ := Engine.startWorker_eq_some hstep
      exact (getElem?_set_eq_some hw').mpr (Or.inr ⟨hne, hw⟩)
  | take =>
      obtain ⟨oid', q', item, rest, hw', -, rfl⟩ := Engine.takeItem_eq_some hstep
      exact (getElem?_set_eq_some hw').mpr (Or.inr ⟨hne, hw⟩)
  | finish =>
      obtain ⟨oid', q', item, result, hw', rfl⟩ := Engine.finishItem_eq_some hstep
      rw [Engine.workers_conclude]
      exact (getElem?_set_eq_some hw').mpr (Or.inr ⟨hne, hw⟩)
  | fail =>
      obtain ⟨oid', q', item, result, hw', rfl⟩ := Engine.failItem_eq_some hstep
      exact (getElem?_set_eq_some hw').mpr (Or.inr ⟨hne, hw⟩)

/-- A worker that has an item to come to, or is on its way back, can go on. -/
theorem enabled_of_serving (hw : e.workers[w]? = some ⟨oid, state⟩) (hserving : Serving q state)
    (hdepth : 0 < e.depth q) : ∃ event, (e.workerStep accepts w event).isSome = true := by
  cases state with
  | created =>
      refine ⟨.start, ?_⟩
      show (e.startWorker w).isSome = true
      unfold Engine.startWorker
      rw [hw]
      rfl
  | polling q' =>
      obtain rfl : q' = q := hserving
      refine ⟨.take, ?_⟩
      show (e.takeItem w).isSome = true
      cases hq : e.queues[q']? with
      | none =>
          rw [Engine.depth, List.getD_eq_getElem?_getD, hq] at hdepth
          cases hdepth
      | some items =>
          cases items with
          | nil =>
              rw [Engine.depth, List.getD_eq_getElem?_getD, hq] at hdepth
              cases hdepth
          | cons item rest =>
              unfold Engine.takeItem
              simp [hw, hq]
  | executing q' item result =>
      refine ⟨.fail, ?_⟩
      show (e.failItem w).isSome = true
      unfold Engine.failItem
      rw [hw]
      rfl
  | dead => exact hserving.elim

end Work

/-! ## What one step leaves

While a topic is paused and its last batch is dispatched, nothing of it is on its way to a queue; only its own check
can change that. -/

/-- **Every step but its deregistration keeps an operator fed.** -/
theorem Fed.step (h : Fed e₀ oid q w st) {event : ThrottleEvent F} (hkeeps : event.keeps oid)
    (hstep : st.step config deserialize event = some st') : Fed e₀ oid q w st' := by
  cases event with
  | getmany topic batch =>
      obtain ⟨-, -, -, -, rfl⟩ := getmany_eq_some hstep
      -- a new batch, of which nothing is to be dispatched yet
      refine h.withLoop (fun todo batch heq x hx => ?_) nofun
      cases heq
      cases hx
  | next topic clock =>
      obtain ⟨message, batch, -, ⟨record, -, rfl⟩ | ⟨err, -, rfl⟩⟩ := next_eq_some hstep
      -- the operators to dispatch to are those bound to the topic now
      · refine h.withLoop (fun todo batch heq x hx => ?_) nofun
        cases heq
        obtain ⟨oid', hoid', rfl⟩ := List.mem_map.mp hx
        rwa [← h.bindings topic]
      · exact h.withLoop nofun nofun
  | dispatch topic refusedAt =>
      obtain ⟨oid', d, todo, batch, hloop, rfl⟩ := dispatch_eq_some hstep
      have htodo := h.todo topic _ _ hloop
      have hloop' : Fed e₀ oid q w (st.withLoop topic (.handling todo batch)) := by
        refine h.withLoop (fun todo' batch' heq x hx => ?_) nofun
        cases heq
        exact htodo x (List.mem_cons_of_mem _ hx)
      refine hloop'.withEngine (Engine.SameRegistry.dispatch d) (Engine.consumers_dispatch d) ?_
      have hworkers : (st.engine.dispatch (acceptsBut refusedAt) oid' d).1.workers = st.engine.workers :=
        Engine.workers_dispatchAll d [oid'] st.engine
      rw [hworkers]
      exact h.worker
  | check topic =>
      obtain ⟨-, rfl⟩ := check_eq_some hstep
      have hloop : Fed e₀ oid q w (st.withLoop topic .polling) := h.withLoop nofun nofun
      exact ⟨hloop.bindings, hloop.consumers, hloop.queues, hloop.queue, hloop.worker, hloop.todo, hloop.running⟩
  | work w' event refusedAt =>
      obtain ⟨e, he, rfl⟩ := work_eq_some hstep
      refine h.withEngine (Engine.SameRegistry.workerStep he) (Engine.consumers_workerStep he) ?_
      obtain ⟨state, hw, hserving⟩ := h.worker
      -- the worker's own step keeps it at its queue; any other worker's step leaves it alone
      by_cases heq : w = w'
      · subst heq
        exact (serving_of_own_step hw hserving h.queue he).1
      · exact ⟨state, worker_of_other_step heq hw he, hserving⟩
  | deregister oid' =>
      obtain ⟨-, rfl⟩ := deregister_eq_some hstep
      have hne : oid ≠ oid' := Ne.symm hkeeps
      -- another operator, so the entries of this one stay
      rcases Engine.deregisterOperator_eq st.engine oid' with heq | heq
      · rw [heq]
        exact h
      · rw [heq]
        exact ⟨h.bindings, h.consumers, fun oid₁ q₁ hq₁ => h.queues oid₁ q₁ (Dict.get_of_get_pop hq₁).2,
          (Dict.get_pop_ne _ hne).trans h.queue, h.worker, h.todo, h.running⟩

/-- The topic is paused and nothing of it is on its way to the operators. -/
structure Quiet (topic : String) (st : Throttle F σ) : Prop where
  paused : topic ∈ st.paused.topics
  loop   : st.loops topic = .polling ∨ st.loops topic = .handling [] []

theorem Quiet.nothing (h : Quiet topic st) {todo : List (String × Delivery F)} {batch : List Message}
    (hloop : st.loops topic = .handling todo batch) : todo = [] ∧ batch = [] := by
  rcases h.loop with heq | heq
  · rw [hloop] at heq
    cases heq
  · rw [hloop] at heq
    cases heq
    exact ⟨rfl, rfl⟩

/-- A check of another topic leaves the topic's flag. -/
theorem paused_of_other_check {topic' : String} (hne : topic ≠ topic') (h : topic ∈ st.paused.topics) :
    topic ∈ ((st.engine.checkBackpressure config.api config.marks topic').exec st.paused).2.topics :=
  ((Engine.confined_checkBackpressure ..).others topic hne).mpr h

/-- The loop of another topic moves. -/
theorem loops_withLoop_of_ne {topic' : String} (hne : topic ≠ topic') (loop : Loop F) :
    (st.withLoop topic' loop).loops topic = st.loops topic := by
  unfold withLoop
  dsimp only
  rw [Function.update_of_ne hne]

theorem loops_withLoop_self (loop : Loop F) : (st.withLoop topic loop).loops topic = loop := by
  unfold withLoop
  dsimp only
  rw [Function.update_self]

/-- A step of another coroutine leaves the loop of a topic and its flag. -/
theorem loop_of_other_step {event : ThrottleEvent F} (hstep : st.step config deserialize event = some st')
    (hother : event.coroutine ≠ some (.loop topic)) :
    st'.loops topic = st.loops topic ∧ (topic ∈ st.paused.topics → topic ∈ st'.paused.topics) := by
  have hne : ∀ topic', event.coroutine = some (.loop topic') → topic ≠ topic' := by
    rintro topic' heq rfl
    exact hother heq
  cases event with
  | getmany topic' batch =>
      obtain ⟨-, -, -, -, rfl⟩ := getmany_eq_some hstep
      exact ⟨loops_withLoop_of_ne (hne topic' rfl) _, id⟩
  | next topic' clock =>
      obtain ⟨message, batch, -, ⟨record, -, rfl⟩ | ⟨err, -, rfl⟩⟩ := next_eq_some hstep
      all_goals exact ⟨loops_withLoop_of_ne (hne topic' rfl) _, id⟩
  | dispatch topic' refusedAt =>
      obtain ⟨oid', d, todo, batch, -, rfl⟩ := dispatch_eq_some hstep
      exact ⟨loops_withLoop_of_ne (hne topic' rfl) _, id⟩
  | check topic' =>
      obtain ⟨-, rfl⟩ := check_eq_some hstep
      exact ⟨loops_withLoop_of_ne (hne topic' rfl) _, paused_of_other_check (hne topic' rfl)⟩
  | work w' event refusedAt =>
      obtain ⟨e, -, rfl⟩ := work_eq_some hstep
      exact ⟨rfl, id⟩
  | deregister oid' =>
      obtain ⟨-, rfl⟩ := deregister_eq_some hstep
      exact ⟨rfl, id⟩

/-- A paused topic with no batch stays so until it is resumed. -/
theorem Quiet.step (h : Quiet topic st) {event : ThrottleEvent F}
    (hstep : st.step config deserialize event = some st') : Quiet topic st' ∨ topic ∉ st'.paused.topics := by
  by_cases hother : event.coroutine = some (.loop topic)
  · refine or_iff_not_imp_right.mpr fun hpaused => ⟨not_not.mp hpaused, ?_⟩
    cases event with
    | getmany topic' batch =>
        cases hother
        obtain ⟨-, -, -, hnothing, rfl⟩ := getmany_eq_some hstep
        rw [hnothing h.paused]
        exact Or.inr (loops_withLoop_self _)
    | next topic' clock =>
        cases hother
        obtain ⟨message, batch, hloop, -⟩ := next_eq_some hstep
        cases (h.nothing hloop).2
    | dispatch topic' refusedAt =>
        cases hother
        obtain ⟨oid', d, todo, batch, hloop, -⟩ := dispatch_eq_some hstep
        cases (h.nothing hloop).1
    | check topic' =>
        cases hother
        obtain ⟨-, rfl⟩ := check_eq_some hstep
        exact Or.inl (loops_withLoop_self _)
    | work | deregister => cases hother
  · obtain ⟨hloop, hpaused⟩ := loop_of_other_step hstep hother
    exact Or.inl ⟨hpaused h.paused, by rw [hloop]; exact h.loop⟩

/-- Nothing is put into the queue of the operator while its only topic is quiet. -/
theorem Quiet.depth_le (h : Quiet topic st) (hfed : Fed e₀ oid q w st) (hwired : e₀.Wired)
    (honly : ∀ topic' ≠ topic, oid ∉ e₀.bindings topic') {event : ThrottleEvent F}
    (hstep : st.step config deserialize event = some st') : st'.engine.depth q ≤ st.engine.depth q := by
  cases event with
  | getmany topic' batch =>
      obtain ⟨-, -, -, -, rfl⟩ := getmany_eq_some hstep
      exact le_rfl
  | next topic' clock =>
      obtain ⟨message, batch, -, ⟨record, -, rfl⟩ | ⟨err, -, rfl⟩⟩ := next_eq_some hstep
      all_goals exact le_rfl
  | dispatch topic' refusedAt =>
      obtain ⟨oid', d, todo, batch, hloop, rfl⟩ := dispatch_eq_some hstep
      have hne : topic' ≠ topic := by
        rintro rfl
        cases (h.nothing hloop).1
      -- the operator it goes to is another one, with another queue
      have hqueue : st.engine.workerQueues.get oid' ≠ some q := by
        intro hq
        obtain rfl := hwired.apart oid' oid q (hfed.queues _ _ hq) (hfed.queues _ _ hfed.queue)
        exact honly topic' hne (hfed.todo topic' _ _ hloop _ List.mem_cons_self)
      have hdepth : (st.engine.dispatch (acceptsBut refusedAt) oid' d).1.depth q ≤ _ := Engine.depth_dispatch d q
      rwa [if_neg hqueue, Nat.add_zero] at hdepth
  | check topic' =>
      obtain ⟨-, rfl⟩ := check_eq_some hstep
      exact le_rfl
  | work w' event refusedAt =>
      obtain ⟨e, he, rfl⟩ := work_eq_some hstep
      exact Engine.depth_workerStep he q
  | deregister oid' =>
      obtain ⟨-, rfl⟩ := deregister_eq_some hstep
      exact le_of_eq (Engine.depth_deregisterOperator oid' q)

/-- A step of another coroutine leaves a worker where it is. -/
theorem worker_of_other_coroutine {event : ThrottleEvent F} (hstep : st.step config deserialize event = some st')
    (hother : event.coroutine ≠ some (.worker w)) {worker : Worker F} (hw : st.engine.workers[w]? = some worker) :
    st'.engine.workers[w]? = some worker := by
  cases event with
  | getmany topic' batch =>
      obtain ⟨-, -, -, -, rfl⟩ := getmany_eq_some hstep
      exact hw
  | next topic' clock =>
      obtain ⟨message, batch, -, ⟨record, -, rfl⟩ | ⟨err, -, rfl⟩⟩ := next_eq_some hstep
      all_goals exact hw
  | dispatch topic' refusedAt =>
      obtain ⟨oid', d, todo, batch, -, rfl⟩ := dispatch_eq_some hstep
      have hworkers : (st.engine.dispatch (acceptsBut refusedAt) oid' d).1.workers = st.engine.workers :=
        Engine.workers_dispatchAll d [oid'] st.engine
      rw [hworkers]
      exact hw
  | check topic' =>
      obtain ⟨-, rfl⟩ := check_eq_some hstep
      exact hw
  | work w' event refusedAt =>
      obtain ⟨e, he, rfl⟩ := work_eq_some hstep
      exact worker_of_other_step (fun heq => hother (by rw [heq]; rfl)) hw he
  | deregister oid' =>
      obtain ⟨-, rfl⟩ := deregister_eq_some hstep
      rcases Engine.deregisterOperator_eq st.engine oid' with heq | heq
      all_goals rwa [heq]

/-- The reading of an empty queue resumes the topic: it is the last one that counts. -/
theorem resumed_of_check (hfed : Fed e₀ oid q w st) (hmarks : config.marks.low ≤ config.marks.high)
    (hlow : 0 < config.marks.low) (hlast : e₀.LastQueued oid) (hbound : oid ∈ e₀.bindings topic)
    (hresumes : e₀.resumes config.api topic = true) (hempty : st.engine.depth q = 0) :
    topic ∉ ((st.engine.checkBackpressure config.api config.marks topic).exec st.paused).2.topics := by
  apply of_decide_eq_false
  rw [Engine.flag_checkBackpressure, Engine.resumes_congr hfed.consumers, hresumes]
  obtain ⟨before, after, hsplit, hafter⟩ := hlast topic hbound
  have hdepth : st.engine.queueDepth oid = some 0 := by
    unfold Engine.queueDepth
    rw [hfed.queue]
    exact congrArg some hempty
  unfold Engine.depths
  rw [hfed.bindings, hsplit, List.map_append, List.map_cons, hdepth]
  have hbelow : config.marks.Below (some 0) := by simpa [WaterMarks.Below] using hlow
  refine latch_eq_false (fun depth (hover : config.marks.Over depth) => hover.not_below hmarks) _ hbelow
    (fun depth hmem => ?_) _ _
  obtain ⟨oid', hoid', rfl⟩ := List.mem_map.mp hmem
  have hnone : st.engine.workerQueues.get oid' = none := by
    cases hget : st.engine.workerQueues.get oid' with
    | none    => rfl
    | some q' =>
        rw [← hafter oid' hoid', hfed.queues oid' q' hget]
  unfold Engine.queueDepth
  rw [hnone]
  exact id

/-! ## What a fair behaviour comes to

The leads-to rules of the library, one for each thing that has to happen: the batch ends, the queue empties, and the
next check resumes the topic. -/

section Liveness

variable {b : ((system config deserialize e₀).restrict (fun _ event => event.keeps oid)).Behaviour}

/-- What is left of a batch: its messages, and the dispatches of the one in hand. -/
def batchLeft (topic : String) (st : Throttle F σ) : ℕ ×ₗ ℕ :=
  match st.loops topic with
  | .handling todo batch => toLex (batch.length, todo.length)
  | _                    => toLex (0, 0)

/-- The loop of a paused topic finishes its batch. -/
theorem batch_ends [Inhabited F] (hfair : Fair b) : b.LeadsTo
    (fun st => topic ∈ st.paused.topics ∧ ∃ todo batch, st.loops topic = .handling todo batch)
    (fun st => Quiet topic st ∨ topic ∉ st.paused.topics) := by
  refine .of_rank (batchLeft topic) (hfair (.loop topic)) ?_ ?_ ?_
  -- the others: the loop stands where it was, and nobody else resumes the topic
  · rintro st event st' - ⟨hpaused, todo, batch, hloop⟩ hother ⟨hstep, -⟩
    obtain ⟨hloop', hpaused'⟩ := loop_of_other_step hstep hother
    refine Or.inl ⟨⟨hpaused' hpaused, todo, batch, hloop'.trans hloop⟩, le_of_eq ?_⟩
    unfold batchLeft
    rw [hloop']
  -- its own steps: the messages left in the batch, and then the operators left for one, get fewer
  · rintro st event st' - ⟨hpaused, todo, batch, hloop⟩ hown ⟨hstep, -⟩
    cases event with
    | getmany topic' batch' =>
        cases hown
        obtain ⟨hpolling, -⟩ := getmany_eq_some hstep
        rw [hloop] at hpolling
        cases hpolling
    | next topic' clock =>
        cases hown
        obtain ⟨message, rest, hloop', ⟨record, -, rfl⟩ | ⟨err, -, rfl⟩⟩ := next_eq_some hstep
        · refine Or.inl ⟨⟨hpaused, _, _, loops_withLoop_self _⟩, ?_⟩
          unfold batchLeft
          rw [loops_withLoop_self, hloop']
          exact Prod.Lex.toLex_lt_toLex.mpr (Or.inl (Nat.lt_succ_self _))
        · exact Or.inr (Or.inl ⟨hpaused, Or.inl (loops_withLoop_self _)⟩)
    | dispatch topic' refusedAt =>
        cases hown
        obtain ⟨oid', d, rest, batch', hloop', rfl⟩ := dispatch_eq_some hstep
        have hself : (st.withLoop topic (.handling rest batch')).loops topic = .handling rest batch' :=
          loops_withLoop_self _
        refine Or.inl ⟨⟨hpaused, _, _, hself⟩, ?_⟩
        unfold batchLeft
        dsimp only
        rw [hself, hloop']
        exact Prod.Lex.toLex_lt_toLex.mpr (Or.inr ⟨rfl, Nat.lt_succ_self _⟩)
    | check topic' =>
        cases hown
        obtain ⟨-, rfl⟩ := check_eq_some hstep
        right
        by_cases hstill :
            topic ∈ ((st.engine.checkBackpressure config.api config.marks topic).exec st.paused).2.topics
        · exact Or.inl ⟨hstill, Or.inl (loops_withLoop_self _)⟩
        · exact Or.inr hstill
    | work | deregister => cases hown
  -- the loop can always go on: it has a message, an operator to dispatch to, or the check
  · rintro st - ⟨hpaused, todo, batch, hloop⟩
    cases todo with
    | nil =>
        cases batch with
        | nil => exact Lts.enabled_of_isSome (a := .check topic) (by simp [step, hloop]) rfl trivial
        | cons message batch =>
            refine Lts.enabled_of_isSome (a := .next topic ⟨default, fun _ => default⟩) ?_ rfl trivial
            simp only [step, hloop]
            split <;> rfl
    | cons x todo =>
        exact Lts.enabled_of_isSome (a := .dispatch topic none) (by simp [step, hloop]) rfl trivial

/-- What holds of all states of the behaviour. -/
theorem fed_of_reachable (hfed : Fed e₀ oid q w (start e₀)) {st : Throttle F σ}
    (h : ((system config deserialize e₀).restrict (fun _ event => event.keeps oid)).Reachable st) :
    Fed e₀ oid q w st := by
  refine h.invariant (I := Fed e₀ oid q w) ?_ ?_
  · rintro _ rfl
    exact hfed
  · rintro st event st' hst ⟨hstep, hkeeps⟩
    exact hst.step hkeeps hstep

/-- While the topic is paused, the worker takes its queue down. -/
theorem queue_empties (hfed : Fed e₀ oid q w (start e₀)) (hwired : e₀.Wired)
    (honly : ∀ topic' ≠ topic, oid ∉ e₀.bindings topic') (hfair : Fair b) : b.LeadsTo
    (Quiet topic) (fun st => (Quiet topic st ∧ st.engine.depth q = 0) ∨ topic ∉ st.paused.topics) := by
  have hpositive : b.LeadsTo (fun st => Quiet topic st ∧ 0 < st.engine.depth q)
      (fun st => (Quiet topic st ∧ st.engine.depth q = 0) ∨ topic ∉ st.paused.topics) := by
    -- the rank is what the worker has left, the worker being the one whose turn is waited for
    refine .of_rank (fun st => workLeft q w st.engine) (hfair (.worker w)) ?_ ?_ ?_
    · rintro st event st' hreach ⟨hquiet, hdepth⟩ hother ⟨hstep, -⟩
      have hfed := fed_of_reachable hfed hreach
      have hle := hquiet.depth_le hfed hwired honly hstep
      rcases hquiet.step hstep with hquiet' | hresumed
      · rcases Nat.eq_zero_or_pos (st'.engine.depth q) with hzero | hpos
        · exact Or.inr (Or.inl ⟨hquiet', hzero⟩)
        · obtain ⟨state, hw, -⟩ := hfed.worker
          -- others add nothing to the queue and leave the worker alone
          refine Or.inl ⟨⟨hquiet', hpos⟩, ?_⟩
          rw [workLeft_of_some hw, workLeft_of_some (worker_of_other_coroutine hstep hother hw)]
          exact Prod.Lex.toLex_mono ⟨hle, le_rfl⟩
      · exact Or.inr (Or.inr hresumed)
    · rintro st event st' hreach ⟨hquiet, hdepth⟩ hown ⟨hstep, -⟩
      have hfed := fed_of_reachable hfed hreach
      rcases hquiet.step hstep with hquiet' | hresumed
      · rcases Nat.eq_zero_or_pos (st'.engine.depth q) with hzero | hpos
        · exact Or.inr (Or.inl ⟨hquiet', hzero⟩)
        · refine Or.inl ⟨⟨hquiet', hpos⟩, ?_⟩
          cases event with
          | work w' event refusedAt =>
              cases hown
              obtain ⟨state, hw, hserving⟩ := hfed.worker
              obtain ⟨e, he, rfl⟩ := work_eq_some hstep
              exact (serving_of_own_step hw hserving hfed.queue he).2
          | getmany | next | dispatch | check | deregister => cases hown
      · exact Or.inr (Or.inr hresumed)
    -- with an item in its queue the worker can go on, whatever state it is in
    · rintro st hreach ⟨hquiet, hdepth⟩
      have hfed := fed_of_reachable hfed hreach
      obtain ⟨state, hw, hserving⟩ := hfed.worker
      obtain ⟨event, hevent⟩ : ∃ event, (st.engine.workerStep (acceptsBut none) w event).isSome = true :=
        enabled_of_serving hw hserving hdepth
      exact Lts.enabled_of_isSome (a := .work w event none) (by simpa [step] using hevent) rfl trivial
  refine (Lts.Behaviour.LeadsTo.or (.of_imp fun _ _ h => Or.inl h) hpositive).mono (fun st _ hquiet => ?_) fun _ h => h
  rcases Nat.eq_zero_or_pos (st.engine.depth q) with hzero | hpos
  · exact Or.inl ⟨hquiet, hzero⟩
  · exact Or.inr ⟨hquiet, hpos⟩

/-- Whether the check of a quiet topic comes after another `getmany`. -/
def pollsLeft (topic : String) (st : Throttle F σ) : Nat :=
  match st.loops topic with
  | .polling => 1
  | _        => 0

/-- With the queue empty, the next check resumes the topic. -/
theorem empty_resumes (hfed : Fed e₀ oid q w (start e₀)) (hwired : e₀.Wired)
    (hmarks : config.marks.low ≤ config.marks.high) (hlow : 0 < config.marks.low) (hlast : e₀.LastQueued oid)
    (hbound : oid ∈ e₀.bindings topic) (honly : ∀ topic' ≠ topic, oid ∉ e₀.bindings topic')
    (hresumes : e₀.resumes config.api topic = true) (hfair : Fair b) :
    b.LeadsTo (fun st => Quiet topic st ∧ st.engine.depth q = 0) (fun st => topic ∉ st.paused.topics) := by
  have hconsumer : topic ∈ e₀.consumers := hwired.consumed topic (List.ne_nil_of_mem hbound)
  refine .of_rank (pollsLeft topic) (hfair (.loop topic)) ?_ ?_ ?_
  -- the others: nothing is put into the queue as long as the topic is paused
  · rintro st event st' hreach ⟨hquiet, hzero⟩ hother ⟨hstep, -⟩
    have hfed := fed_of_reachable hfed hreach
    have hle := hquiet.depth_le hfed hwired honly hstep
    rcases hquiet.step hstep with hquiet' | hresumed
    · refine Or.inl ⟨⟨hquiet', by omega⟩, le_of_eq ?_⟩
      unfold pollsLeft
      rw [(loop_of_other_step hstep hother).1]
    · exact Or.inr hresumed
  · rintro st event st' hreach ⟨hquiet, hzero⟩ hown ⟨hstep, -⟩
    have hfed := fed_of_reachable hfed hreach
    cases event with
    -- its own steps: from a poll to a check, and the check finds no depth that is not below the mark
    | getmany topic' batch =>
        cases hown
        obtain ⟨hpolling, -, -, hnothing, rfl⟩ := getmany_eq_some hstep
        obtain rfl := hnothing hquiet.paused
        refine Or.inl ⟨⟨⟨hquiet.paused, Or.inr (loops_withLoop_self _)⟩, hzero⟩, ?_⟩
        unfold pollsLeft
        rw [loops_withLoop_self, hpolling]
        exact Nat.zero_lt_one
    | next topic' clock =>
        cases hown
        obtain ⟨message, batch, hloop, -⟩ := next_eq_some hstep
        cases (hquiet.nothing hloop).2
    | dispatch topic' refusedAt =>
        cases hown
        obtain ⟨oid', d, todo, batch, hloop, -⟩ := dispatch_eq_some hstep
        cases (hquiet.nothing hloop).1
    | check topic' =>
        cases hown
        obtain ⟨-, rfl⟩ := check_eq_some hstep
        exact Or.inr (resumed_of_check hfed hmarks hlow hlast hbound hresumes hzero)
    | work | deregister => cases hown
  · rintro st hreach ⟨hquiet, -⟩
    have hfed := fed_of_reachable hfed hreach
    -- it polls or it checks, and can do either at any time
    rcases hquiet.loop with hloop | hloop
    · refine Lts.enabled_of_isSome (a := .getmany topic []) ?_ rfl trivial
      simp [step, hloop, hfed.consumers, hconsumer]
    · exact Lts.enabled_of_isSome (a := .check topic) (by simp [step, hloop]) rfl trivial

end Liveness

/-! ### A queue that fills up and is worked off

A behaviour that pauses the topic and goes on for ever, so that the result is about something: from some time on it
idles, and its states repeat. -/

/-- Two records pause the topic, the worker takes them, and the loop goes on polling. -/
def fillAndDrain : List (ThrottleEvent ℚ) :=
  let message : Message := ⟨0, 0, []⟩
  [.getmany "raw" [message, message], .next "raw" ⟨0, fun _ => 0⟩, .dispatch "raw" none, .next "raw" ⟨0, fun _ => 0⟩,
    .dispatch "raw" none, .check "raw", .work 0 .start none, .work 0 .take none, .work 0 .finish none,
    .work 0 .take none, .work 0 .finish none, .getmany "raw" [], .check "raw"]

/-- The labels: then `getmany` and the check in turn. -/
def fillAndDrainAt (n : Nat) : ThrottleEvent ℚ :=
  (fillAndDrain[n]?).getD (if n % 2 = 1 then .getmany "raw" [] else .check "raw")

def oneOverOne : ThrottleConfig := ⟨2, ⟨1, 1⟩, .accepting⟩

/-- The states of the behaviour. -/
def fillAndDrainTo : Nat → Option (Throttle ℚ Nat) :=
  Lts.Behaviour.follow (step oneOverOne (fun _ => .ok ∅)) (start countingQueue) fillAndDrainAt

/-- The loop polls, the topic runs, the queue is empty and the worker polls it. -/
structure Idling (st : Throttle ℚ Nat) : Prop where
  loop     : st.loops "raw" = .polling
  worker   : ∃ oid, st.engine.workers = [⟨oid, .polling 0⟩]
  paused   : st.paused.topics = ∅
  consumer : st.engine.consumers = ["raw"]
  bindings : st.engine.bindings "raw" = ["op"]
  depth    : st.engine.queueDepth "op" = some 0
  queue    : st.engine.queues = [[]]

/-- The test for it. -/
def idles (st : Throttle ℚ Nat) : Bool :=
  (match st.loops "raw" with
    | .polling => true
    | _        => false) &&
  (match st.engine.workers with
    | [⟨_, .polling 0⟩] => true
    | _                 => false) &&
  decide (st.paused.topics = ∅ ∧ st.engine.consumers = ["raw"] ∧ st.engine.bindings "raw" = ["op"] ∧
    st.engine.queueDepth "op" = some 0 ∧ st.engine.queues.map List.length = [0])

theorem idling_of_idles {st : Throttle ℚ Nat} (h : idles st = true) : Idling st := by
  unfold idles at h
  simp only [Bool.and_eq_true, decide_eq_true_eq] at h
  obtain ⟨⟨hloop, hworker⟩, hpaused, hconsumer, hbindings, hdepth, hqueues⟩ := h
  refine ⟨?_, ?_, hpaused, hconsumer, hbindings, hdepth, ?_⟩
  · split at hloop
    · assumption
    · cases hloop
  · split at hworker
    · rename_i oid hworkers
      exact ⟨oid, hworkers⟩
    · cases hworker
  · obtain ⟨queue, rest, hcons, hlength, hrest⟩ := List.map_eq_cons_iff.mp hqueues
    rw [hcons, List.eq_nil_of_length_eq_zero hlength, List.map_eq_nil_iff.mp hrest]

/-- After the worker's last item the engine idles. -/
theorem idling_thirteen : ∃ st, fillAndDrainTo 13 = some st ∧ Idling st := by
  have hidles : (fillAndDrainTo 13).any idles = true := by decide +kernel
  obtain ⟨st, h13, hst⟩ := (Option.any_eq_true _ _).mp hidles
  exact ⟨st, h13, idling_of_idles hst⟩

theorem idling_cycle {st : Throttle ℚ Nat} (h : Idling st) : ∃ st₁,
    st.step oneOverOne (fun _ => .ok ∅) (.getmany "raw" []) = some st₁ ∧
      st₁.step oneOverOne (fun _ => .ok ∅) (.check "raw") = some st := by
  have hcheck : (st.engine.checkBackpressure oneOverOne.api oneOverOne.marks "raw").exec st.paused =
      (.ok ⟨⟩, st.paused) := by
    unfold Engine.checkBackpressure
    have hover : ¬ (oneOverOne.marks.Over (some 0) ∧ "raw" ∉ st.paused.topics) :=
      fun hover => absurd hover.1 (by decide)
    have hbelow : ¬ (oneOverOne.marks.Below (some 0) ∧ "raw" ∈ st.paused.topics) := by simp [h.paused]
    rw [h.bindings, Proc.exec_forM_cons, Engine.exec_checkOperator, h.depth, if_neg hover, if_neg hbelow]
    rfl
  refine ⟨st.withLoop "raw" (.handling [] []), by simp [step, h.loop, h.consumer], ?_⟩
  have hback : Function.update (Function.update st.loops "raw" (.handling [] [])) "raw" .polling = st.loops := by
    rw [Function.update_idem, ← h.loop, Function.update_eq_self]
  have hstep : (st.withLoop "raw" (.handling [] [])).step oneOverOne (fun _ => .ok ∅) (.check "raw") =
      some ⟨st.engine, Function.update (Function.update st.loops "raw" (.handling [] [])) "raw" .polling,
        ((st.engine.checkBackpressure oneOverOne.api oneOverOne.marks "raw").exec st.paused).2⟩ := by
    simp [step, withLoop]
  rw [hstep, hback, hcheck]

theorem fillAndDrainAt_of_le {n : Nat} (h : 13 ≤ n) :
    fillAndDrainAt n = if n % 2 = 1 then .getmany "raw" [] else .check "raw" := by
  have hlength : fillAndDrain.length ≤ n := h
  unfold fillAndDrainAt
  rw [List.getElem?_eq_none hlength]
  rfl

theorem fillAndDrainTo_succ (n : Nat) : fillAndDrainTo (n + 1) =
    (fillAndDrainTo n).bind (fun st => st.step oneOverOne (fun _ => .ok ∅) (fillAndDrainAt n)) := rfl

/-- From then on it idles at every odd time. -/
theorem fillAndDrainTo_cycle {st : Throttle ℚ Nat} (h13 : fillAndDrainTo 13 = some st) (h : Idling st) (k : Nat) :
    fillAndDrainTo (13 + 2 * k) = some st ∧ ∃ st₁, fillAndDrainTo (13 + 2 * k + 1) = some st₁ := by
  obtain ⟨st₁, hgetmany, hcheck⟩ := idling_cycle h
  have hnext : ∀ k, fillAndDrainTo (13 + 2 * k) = some st → fillAndDrainTo (13 + 2 * k + 1) = some st₁ := by
    intro k hk
    rw [fillAndDrainTo_succ, hk, fillAndDrainAt_of_le (Nat.le_add_right _ _), if_pos (by omega)]
    exact hgetmany
  induction k with
  | zero => exact ⟨h13, st₁, hnext 0 h13⟩
  | succ k ih =>
      have hagain : fillAndDrainTo (13 + 2 * k + 1 + 1) = some st := by
        rw [fillAndDrainTo_succ, hnext k ih.1, fillAndDrainAt_of_le (by omega), if_neg (by omega)]
        exact hcheck
      exact ⟨hagain, st₁, hnext (k + 1) hagain⟩

/-- The labels can be followed for ever. -/
theorem fillAndDrainTo_isSome (n : Nat) : (fillAndDrainTo n).isSome = true := by
  obtain ⟨st, h13, hidling⟩ := idling_thirteen
  have hcycle := fillAndDrainTo_cycle h13 hidling
  rcases Nat.lt_or_ge n 13 with hlt | hge
  · have hprefix : ∀ n < 13, (fillAndDrainTo n).isSome = true := by decide +kernel
    exact hprefix n hlt
  · obtain ⟨k, rfl | rfl⟩ : ∃ k, n = 13 + 2 * k ∨ n = 13 + 2 * k + 1 := ⟨(n - 13) / 2, by omega⟩
    · rw [(hcycle k).1]
      rfl
    · obtain ⟨st₁, hst₁⟩ := (hcycle k).2
      rw [hst₁]
      rfl

/-- They are all of the one loop and the one worker. -/
theorem coroutine_fillAndDrainAt (n : Nat) : (fillAndDrainAt n).coroutine = some (.loop "raw") ∨
    (fillAndDrainAt n).coroutine = some (.worker 0) := by
  rcases Nat.lt_or_ge n 13 with hlt | hge
  · have hprefix : ∀ n < 13, (fillAndDrainAt n).coroutine = some (.loop "raw") ∨
        (fillAndDrainAt n).coroutine = some (.worker 0) := by decide +kernel
    exact hprefix n hlt
  · rw [fillAndDrainAt_of_le hge]
    left
    split <;> rfl

theorem keeps_of_coroutine {event : ThrottleEvent F} (h : event.coroutine ≠ none) : event.keeps oid := by
  cases event with
  | deregister => exact absurd rfl h
  | getmany | next | dispatch | check | work => trivial

def fillingAndDraining : ((system oneOverOne (fun _ => .ok ∅) countingQueue).restrict
    (fun _ event => event.keeps "op")).Behaviour :=
  Lts.Behaviour.along rfl fillAndDrainTo_isSome fun n _ _ => by
    rcases coroutine_fillAndDrainAt n with h | h
    all_goals exact keeps_of_coroutine (by rw [h]; nofun)

theorem state_fillingAndDraining {n : Nat} {st : Throttle ℚ Nat} (h : fillAndDrainTo n = some st) :
    fillingAndDraining.state n = st := by
  have hstate : some (fillingAndDraining.state n) = fillAndDrainTo n := Option.some_get (fillAndDrainTo_isSome n)
  exact Option.some.inj (hstate.trans h)

/-- The loops of other topics stay where they are. -/
theorem loops_fillAndDrainTo {topic : String} (hne : topic ≠ "raw") (n : Nat) {st : Throttle ℚ Nat}
    (h : fillAndDrainTo n = some st) : st.loops topic = .polling := by
  induction n generalizing st with
  | zero =>
      cases h
      rfl
  | succ n ih =>
      obtain ⟨st₁, hst₁, hstep⟩ := Option.bind_eq_some_iff.mp h
      rw [(loop_of_other_step hstep ?_).1]
      · exact ih hst₁
      · rcases coroutine_fillAndDrainAt n with heq | heq
        · rw [heq]
          exact fun h => hne (ThrottleCoroutine.loop.inj (Option.some.inj h)).symm
        · rw [heq]
          nofun

theorem fair_fillingAndDraining : Fair fillingAndDraining := by
  obtain ⟨st, h13, hidling⟩ := idling_thirteen
  intro coroutine n henabled
  have hcycle := (fillAndDrainTo_cycle h13 hidling n).1
  have hlate : 13 + 2 * n ≥ n := by omega
  -- the loop of the topic is due again and again, as the cycle ends in its polls
  by_cases hraw : coroutine = .loop "raw"
  · have hlabel : fillAndDrainAt (13 + 2 * n) = .getmany "raw" [] := by
      rw [fillAndDrainAt_of_le (Nat.le_add_right _ _), if_pos (by omega)]
    exact ⟨_, hlate, _, congrArg some hlabel, hraw ▸ rfl⟩
  · -- nothing else can move while the engine idles
    exfalso
    obtain ⟨event, st', hevent, hstep, -⟩ := henabled _ hlate
    rw [state_fillingAndDraining hcycle] at hstep
    have hpolling : ∀ topic, st.loops topic = .polling := by
      intro topic
      by_cases hne : topic = "raw"
      · rw [hne]
        exact hidling.loop
      · exact loops_fillAndDrainTo hne _ hcycle
    cases event with
    | getmany topic batch =>
        obtain ⟨-, hconsumer, -⟩ := getmany_eq_some hstep
        rw [hidling.consumer, List.mem_singleton] at hconsumer
        subst hconsumer
        exact hraw (Option.some.inj hevent).symm
    | next topic clock =>
        obtain ⟨message, batch, hloop, -⟩ := next_eq_some hstep
        rw [hpolling] at hloop
        cases hloop
    | dispatch topic refusedAt =>
        obtain ⟨oid', d, todo, batch, hloop, -⟩ := dispatch_eq_some hstep
        rw [hpolling] at hloop
        cases hloop
    | check topic =>
        obtain ⟨hloop, -⟩ := check_eq_some hstep
        rw [hpolling] at hloop
        cases hloop
    | work w event refusedAt =>
        obtain ⟨e, he, -⟩ := work_eq_some hstep
        obtain ⟨oid, hworkers⟩ := hidling.worker
        have hpolls : ∀ oid' state, st.engine.workers[w]? = some ⟨oid', state⟩ → state = .polling 0 := by
          intro oid' state hw
          rw [hworkers] at hw
          cases List.mem_singleton.mp (List.mem_of_getElem? hw)
          rfl
        cases event with
        | start =>
            obtain ⟨oid', state, hw, -⟩ := Engine.startWorker_eq_some he
            cases hpolls _ _ hw
        | take =>
            obtain ⟨oid', q, item, rest, hw, hq, -⟩ := Engine.takeItem_eq_some he
            rw [hidling.queue] at hq
            cases List.mem_singleton.mp (List.mem_of_getElem? hq)
        | finish =>
            obtain ⟨oid', q, item, result, hw, -⟩ := Engine.finishItem_eq_some he
            cases hpolls _ _ hw
        | fail =>
            obtain ⟨oid', q, item, result, hw, -⟩ := Engine.failItem_eq_some he
            cases hpolls _ _ hw
    | deregister oid => cases hevent

end Throttle

end Hea
end HybridStream
