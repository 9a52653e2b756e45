import HybridStream.Hea.Consume
import HybridStream.Py.Exact

/-!
# `Hea.Correctness.AtLeastOnce` — when committed records have been processed

The loop commits what it has *dispatched*. For an operator that works inline that is what has been processed;
for a CPU-bound one it is what has been put into a queue, and a crash empties the queues. The invariant
(`Accounted`) says where a fetched record is for each operator bound to its topic: done, in a queue, in a
worker, or still in the loop's hands. It survives every step that loses no work, and a commit made while
nothing of the topic is queued or in a worker commits finished work only (`at_least_once`).
-/

namespace HybridStream
namespace Hea

open Lib Py

variable {F σ : Type}

namespace Engine

/-! ## Where work is

The work of an operator on a record is in the operator's queue, with its worker, or done. Dispatching and the steps of
the workers move it along, and take none away as long as nothing raises. -/

/-- The item is in one of the queues. -/
def Queued (queues : List (List (QueueItem F))) (item : QueueItem F) : Prop :=
  ∃ (q : Nat) (queue : List (QueueItem F)), queues[q]? = some queue ∧ item ∈ queue

/-- One of the workers has handed the item to the pool. -/
def InWorker (workers : List (Worker F)) (item : QueueItem F) : Prop :=
  ∃ (w : Nat) (oid : String) (q : Nat) (result : Except PyError (List (Record F))),
    workers[w]? = some ⟨oid, .executing q item result⟩

/-- The operator's work on a record is done, or is still to be done by a worker. -/
def Kept (e : Engine F σ) (oid : String) (origin : Origin) : Prop :=
  (oid, origin) ∈ e.handled ∨
    ∃ item, (Queued e.queues item ∨ InWorker e.workers item) ∧ item.operatorId = oid ∧
      item.delivery.origin = origin

section Work

variable {accepts : Nat → Bool} {e e' : Engine F σ} {oid oid' : String} {origin : Origin} {w : Nat}

theorem conclude_kept (accepts : Nat → Bool) (oid worked : String) (origin' : Origin)
    (result : Except PyError (List (Record F))) (h : e.Kept oid' origin) :
    (e.conclude accepts oid worked origin' result).Kept oid' origin := by
  obtain ⟨sends, done, -, heq⟩ := conclude_eq accepts e oid worked origin' result
  rw [heq]
  rcases h with h | h
  · exact Or.inl (List.mem_append_left _ h)
  · exact Or.inr h

/-- Replacing a queue by one that has the item keeps the item. -/
theorem Queued.set {queues : List (List (QueueItem F))} {item : QueueItem F} (h : Queued queues item)
    {q : Nat} {queue' : List (QueueItem F)} (hq : ∀ queue, queues[q]? = some queue → item ∈ queue → item ∈ queue') :
    Queued (queues.set q queue') item := by
  obtain ⟨q', queue, hq', hmem⟩ := h
  have hlt : q' < queues.length := (List.getElem?_eq_some_iff.mp hq').1
  by_cases hqq : q = q'
  · subst hqq
    exact ⟨q, queue', List.getElem?_set_self hlt, hq queue hq' hmem⟩
  · exact ⟨q', queue, (List.getElem?_set_ne hqq).trans hq', hmem⟩

/-- Replacing a worker that does not have the item keeps the item. -/
theorem InWorker.set {workers : List (Worker F)} {item : QueueItem F} (h : InWorker workers item)
    {worker : Worker F} (hw : workers[w]? = some worker)
    (hother : ∀ q result, worker.state ≠ .executing q item result) (worker' : Worker F) :
    InWorker (workers.set w worker') item := by
  obtain ⟨w', oid, q, result, hw'⟩ := h
  have hne : w ≠ w' := by
    intro heq
    rw [heq, hw'] at hw
    cases hw
    exact hother q result rfl
  exact ⟨w', oid, q, result, (List.getElem?_set_ne hne).trans hw'⟩

/-- Dispatching takes no work away. -/
theorem dispatch_kept (accepts : Nat → Bool) (oid : String) (d : Delivery F) (h : e.Kept oid' origin) :
    (e.dispatch accepts oid d).1.Kept oid' origin := by
  unfold dispatch
  split
  · exact h
  · split
    · split
      · rcases h with h | ⟨item, hqueued | hworker, hid⟩
        · exact Or.inl h
        · -- the new item goes behind those that are queued
          refine Or.inr ⟨item, Or.inl (hqueued.set fun queue hq hmem => ?_), hid⟩
          rw [List.getD_eq_getElem?_getD, hq]
          exact List.mem_append_left _ hmem
        · exact Or.inr ⟨item, Or.inr hworker, hid⟩
      · exact h
    · exact conclude_kept _ _ _ _ _ h

/-- Finished work stays finished. -/
theorem dispatch_handled (accepts : Nat → Bool) (oid : String) (d : Delivery F) {x : String × Origin}
    (h : x ∈ e.handled) : x ∈ (e.dispatch accepts oid d).1.handled := by
  unfold dispatch
  split
  · exact h
  · split
    · split <;> exact h
    · unfold processInline
      dsimp only
      obtain ⟨sends, done, -, heq⟩ := conclude_eq accepts { e with heap := _ } oid oid d.origin _
      rw [heq]
      exact List.mem_append_left _ h

theorem workerStep_handled {event : WorkerEvent} (hstep : e.workerStep accepts w event = some e')
    {x : String × Origin} (h : x ∈ e.handled) : x ∈ e'.handled := by
  cases event with
  | start =>
      obtain ⟨oid', state, -, -, rfl⟩ := startWorker_eq_some hstep
      exact h
  | take =>
      obtain ⟨oid', q, item, rest, -, -, rfl⟩ := takeItem_eq_some hstep
      exact h
  | finish =>
      obtain ⟨oid', q, item, result, -, rfl⟩ := finishItem_eq_some hstep
      obtain ⟨sends, done, -, heq⟩ := conclude_eq accepts
        { e with workers := e.workers.set w ⟨oid', .polling q⟩ } oid' item.operatorId item.delivery.origin result
      rw [heq]
      exact List.mem_append_left _ h
  | fail =>
      obtain ⟨oid', q, item, result, -, rfl⟩ := failItem_eq_some hstep
      exact h

/-- Dispatching a record to a registered operator does the work or puts it into the operator's queue. -/
theorem dispatch_does (haccepts : ∀ n, accepts n = true) (hserved : e.served oid = true)
    (hreg : (e.operators.get oid).isSome) (d : Delivery F) :
    (e.dispatch accepts oid d).1.Kept oid d.origin := by
  obtain ⟨op, hop⟩ := Option.isSome_iff_exists.mp hreg
  unfold dispatch
  unfold served at hserved
  rw [hop] at hserved ⊢
  dsimp only
  cases hcpu : (e.heap op).cpuBound with
  | true =>
      obtain ⟨q, hq, hlt⟩ : ∃ q, e.workerQueues.get oid = some q ∧ q < e.queues.length := by
        simpa [hcpu, Option.any_eq_true] using hserved
      rw [if_pos rfl, hq]
      refine Or.inr ⟨⟨oid, op, d⟩, Or.inl ⟨q, e.queues.getD q [] ++ [⟨oid, op, d⟩], ?_, ?_⟩, rfl, rfl⟩
      · simp [enqueue, hlt]
      · simp
  | false =>
      rw [if_neg (by simp)]
      unfold processInline
      dsimp only
      obtain ⟨sends, heq⟩ := conclude_accepted haccepts
        { e with heap := Function.update e.heap op { e.heap op with
          state := (((e.heap op).cls.process d.clock d.record).exec (e.heap op).state).2 } }
        oid oid d.origin (((e.heap op).cls.process d.clock d.record).exec (e.heap op).state).1
      rw [heq]
      exact Or.inl (List.mem_append_right _ List.mem_cons_self)

/-- A step of a worker, its pool working and the bridge accepting, takes no work away. -/
theorem workerStep_kept {event : WorkerEvent} (haccepts : ∀ n, accepts n = true) (hevent : event ≠ .fail)
    (hstep : e.workerStep accepts w event = some e') (h : e.Kept oid origin) : e'.Kept oid origin := by
  cases event with
  | start =>
      obtain ⟨oid', state, hw, -, rfl⟩ := startWorker_eq_some hstep
      -- a record that is kept is done, or in a queue, or with a worker, and the step moves one item at most
      rcases h with h | ⟨item, hqueued | hworker, hid⟩
      · exact Or.inl h
      · exact Or.inr ⟨item, Or.inl hqueued, hid⟩
      · exact Or.inr ⟨item, Or.inr (hworker.set hw (fun _ _ h => by cases h) _), hid⟩
  | take =>
      obtain ⟨oid', q, item', rest, hw, hq, rfl⟩ := takeItem_eq_some hstep
      have hlt : w < e.workers.length := (List.getElem?_eq_some_iff.mp hw).1
      rcases h with h | ⟨item, hqueued | hworker, hid⟩
      · exact Or.inl h
      · -- the item taken has moved to the worker
        by_cases hitem : item = item'
        · subst hitem
          exact Or.inr ⟨item, Or.inr ⟨w, oid', q, _, List.getElem?_set_self hlt⟩, hid⟩
        · refine Or.inr ⟨item, Or.inl (hqueued.set fun queue hq' hmem => ?_), hid⟩
          rw [hq] at hq'
          cases hq'
          exact (List.mem_cons.mp hmem).resolve_left hitem
      · exact Or.inr ⟨item, Or.inr (hworker.set hw (fun _ _ h => by cases h) _), hid⟩
  | finish =>
      obtain ⟨oid', q, item', result, hw, rfl⟩ := finishItem_eq_some hstep
      obtain ⟨sends, heq⟩ := conclude_accepted haccepts
        { e with workers := e.workers.set w ⟨oid', .polling q⟩ } oid' item'.operatorId
        item'.delivery.origin result
      rw [heq]
      rcases h with h | ⟨item, hqueued | hworker, rfl, rfl⟩
      · exact Or.inl (List.mem_append_left _ h)
      · exact Or.inr ⟨item, Or.inl hqueued, rfl, rfl⟩
      · by_cases hitem : item = item'
        · -- the item finished is work done
          rw [hitem]
          exact Or.inl (List.mem_append_right _ List.mem_cons_self)
        · refine Or.inr ⟨item, Or.inr (hworker.set hw (fun _ _ h => ?_) _), rfl, rfl⟩
          cases h
          exact hitem rfl
  | fail => exact absurd rfl hevent

end Work

end Engine

namespace Consumption

/-! ## The property and its invariant

Committed offsets are promised to be processed. The invariant is about the positions, which run ahead of the commits:
every record below one has been done, is with a worker or in a queue, or is still in the hands of the loop. -/

/-- The operator is registered, and bound to the topic. -/
def Bound (e : Engine F σ) (topic oid : String) : Prop :=
  oid ∈ e.bindings topic ∧ (e.operators.get oid).isSome

/-- Every record below a committed offset has been processed by every operator bound to its topic. -/
def AtLeastOnce (log : String → Log) (start : String → Nat → Nat) (st : Consumption F σ) : Prop :=
  ∀ topic partition offset, (log topic partition offset).isSome → start topic partition ≤ offset →
    offset < st.committed topic partition → ∀ oid, Bound st.engine topic oid →
      (oid, ⟨topic, partition, offset⟩) ∈ st.engine.handled

/-- The loop still has to dispatch the record to the operator, or has ended. -/
def InHand (loop : Loop F) (oid : String) (origin : Origin) : Prop :=
  match loop with
  | .polling             => False
  | .handling todo batch => (∃ d, (oid, d) ∈ todo ∧ d.origin = origin) ∨
      ∃ message ∈ batch, message.partition = origin.partition ∧ message.offset = origin.offset
  | .stopped             => True

/-- Every record below a position is somewhere, for every operator bound to its topic. -/
def Accounted (log : String → Log) (start : String → Nat → Nat) (st : Consumption F σ) : Prop :=
  ∀ topic partition offset, (log topic partition offset).isSome → start topic partition ≤ offset →
    offset < st.position topic partition → ∀ oid, Bound st.engine topic oid →
      st.engine.Kept oid ⟨topic, partition, offset⟩ ∨ InHand (st.loops topic) oid ⟨topic, partition, offset⟩

structure Invariant (log : String → Log) (start : String → Nat → Nat) (st : Consumption F σ) : Prop where
  accounted   : Accounted log start st
  atLeastOnce : AtLeastOnce log start st

/-! ## Steps that lose no work

The ways in which the engine loses a record, each excluded by a condition on the state before the step: a message that
does not decode, an operator without its queue, a send or a pool that raises, a commit with work still under way, and
so on. -/

/-- No record of the topic is in a queue or with a worker. -/
def workedOff (e : Engine F σ) (topic : String) : Bool :=
  e.queues.all (fun queue => queue.all (fun item => item.delivery.origin.topic ≠ topic)) &&
    e.workers.all (fun worker => match worker.state with
      | .executing _ item _ => item.delivery.origin.topic ≠ topic
      | _                   => true)

/-- Messages decode wherever an operator is bound, a record that needs a queue finds it, no send raises, the pool works,
    and a commit is carried out only when the topic's work is done. -/
def careful (deserialize : List UInt8 → Except PyError (Record F)) (st : Consumption F σ) :
    ConsumeEvent F σ → Bool
  | .next topic _ =>
      match st.loops topic with
      | .handling [] (message :: _) =>
          (deserialize message.value).isOk ||
            (st.engine.bindings topic).all (fun oid => (st.engine.operators.get oid).isNone)
      | _ => true
  | .dispatch topic refusedAt  =>
      refusedAt.isNone && match st.loops topic with
        | .handling ((oid, _) :: _) _ => st.engine.served oid
        | _                           => true
  | .commit topic carriedOut   => !carriedOut || workedOff st.engine topic
  | .work _ event refusedAt    => event ≠ .fail && refusedAt.isNone
  | _                          => true

/-! ## What the steps keep

One lemma for each kind of step. A commit is where the invariant becomes the property: it may only happen where the
topic is worked off. -/

section Steps

variable {log : String → Log} {deserialize : List UInt8 → Except PyError (Record F)}
variable {start : String → Nat → Nat} {st st' : Consumption F σ} {topic oid : String}

/-- What `getmany` moves the positions past, it returns. -/
theorem fetch_covers {log : Log} (upto : List (Nat × Nat)) {position : Nat → Nat} {partition offset : Nat}
    (hlog : (log partition offset).isSome) (hlt : offset < (fetch log upto position).2 partition) :
    offset < position partition ∨
      ∃ message ∈ (fetch log upto position).1, message.partition = partition ∧ message.offset = offset := by
  induction upto generalizing position with
  | nil => exact Or.inl hlt
  | cons x rest ih =>
      obtain ⟨p, u⟩ := x
      rcases ih hlt with hpos | ⟨message, hmem, hid⟩
      · by_cases hp : partition = p
        · subst hp
          change offset < Function.update position partition (max (position partition) u) partition at hpos
          rw [Function.update_self] at hpos
          by_cases hbelow : offset < position partition
          · exact Or.inl hbelow
          · obtain ⟨value, hvalue⟩ := Option.isSome_iff_exists.mp hlog
            refine Or.inr ⟨⟨partition, offset, value⟩, List.mem_append_left _ ?_, rfl, rfl⟩
            refine List.mem_filterMap.mpr ⟨offset, List.mem_range'_1.mpr ?_, by rw [hvalue]; rfl⟩
            omega
        · change offset < Function.update position p (max (position p) u) partition at hpos
          rw [Function.update_of_ne hp] at hpos
          exact Or.inl hpos
      · exact Or.inr ⟨message, List.mem_append_right _ hmem, hid⟩

theorem acceptsBut_none (n : Nat) : acceptsBut none n = true := rfl

theorem Bound.of_sameRegistry {e e' : Engine F σ} (h : e.SameRegistry e') (hb : Bound e' topic oid) :
    Bound e topic oid := by
  unfold Bound Engine.bindings at hb ⊢
  rw [h.operators, h.topicBindings] at hb
  exact hb

/-- A step of the engine that keeps work keeps the invariant. -/
theorem Invariant.of_engine {e' : Engine F σ} (h : Invariant log start st)
    (hsame : st.engine.SameRegistry e')
    (hkept : ∀ oid origin, st.engine.Kept oid origin → e'.Kept oid origin)
    (hdone : ∀ x ∈ st.engine.handled, x ∈ e'.handled) : Invariant log start { st with engine := e' } where
  accounted topic partition offset hlog hstart hlt oid hbound :=
    (h.accounted topic partition offset hlog hstart hlt oid (hbound.of_sameRegistry hsame)).imp_left (hkept _ _)
  atLeastOnce topic partition offset hlog hstart hlt oid hbound :=
    hdone _ (h.atLeastOnce topic partition offset hlog hstart hlt oid (hbound.of_sameRegistry hsame))

/-- A loop that moves on keeps the invariant if nothing is dropped from its hands. -/
theorem Invariant.of_loop {loop : Loop F} (h : Invariant log start st)
    (hloop : ∀ partition offset oid, Bound st.engine topic oid →
      InHand (st.loops topic) oid ⟨topic, partition, offset⟩ →
        st.engine.Kept oid ⟨topic, partition, offset⟩ ∨ InHand loop oid ⟨topic, partition, offset⟩) :
    Invariant log start (st.withLoop topic loop) where
  atLeastOnce := h.atLeastOnce
  accounted topic' partition offset hlog hstart hlt oid hbound := by
    have hwhere := h.accounted topic' partition offset hlog hstart hlt oid hbound
    by_cases htopic : topic' = topic
    · subst htopic
      show _ ∨ InHand (Function.update st.loops topic' loop topic') oid _
      rw [Function.update_self]
      exact hwhere.elim Or.inl (hloop partition offset oid hbound)
    · refine hwhere.imp_right fun hhand => ?_
      show InHand (Function.update st.loops topic loop topic') oid _
      rw [Function.update_of_ne htopic]
      exact hhand

theorem Invariant.getmany (h : Invariant log start st) {upto : List (Nat × Nat)}
    (hstep : st.step log deserialize (.getmany topic upto) = some st') : Invariant log start st' := by
  obtain ⟨hloop, rfl⟩ := getmany_eq_some hstep
  refine ⟨fun topic' partition offset hlog hstart hlt oid hbound => ?_, h.atLeastOnce⟩
  have hbefore := h.accounted topic' partition offset hlog hstart
  by_cases htopic : topic' = topic
  · subst htopic
    show _ ∨ InHand (Function.update st.loops topic' (.handling [] _) topic') oid _
    rw [Function.update_self]
    change offset < Function.update st.position topic' (fetch (log topic') upto (st.position topic')).2 topic'
      partition at hlt
    rw [Function.update_self] at hlt
    rcases fetch_covers upto hlog hlt with hold | hfetched
    · -- a record below the old position is not in the hands of a polling loop
      have hwhere := hbefore hold oid hbound
      rw [hloop] at hwhere
      exact Or.inl (hwhere.resolve_right id)
    · exact Or.inr (Or.inr hfetched)
  · show _ ∨ InHand (Function.update st.loops topic (.handling [] _) topic') oid _
    rw [Function.update_of_ne htopic]
    change offset < Function.update st.position topic (fetch (log topic) upto (st.position topic)).2 topic'
      partition at hlt
    rw [Function.update_of_ne htopic] at hlt
    exact hbefore hlt oid hbound

theorem Invariant.next (h : Invariant log start st) {clock : Clock F}
    (hcareful : careful deserialize st (.next topic clock) = true)
    (hstep : st.step log deserialize (.next topic clock) = some st') : Invariant log start st' := by
  obtain ⟨message, batch, hloop, ⟨record, -, rfl⟩ | ⟨err, herr, rfl⟩⟩ := next_eq_some hstep
  · refine h.of_loop fun partition offset oid hbound hhand => Or.inr ?_
    rw [hloop] at hhand
    obtain ⟨_, ⟨⟩, -⟩ | ⟨message', hmem, hpartition, hoffset⟩ := hhand
    rcases List.mem_cons.mp hmem with rfl | hmem
    · -- the record turned to is dispatched to every bound operator
      obtain rfl : message'.partition = partition := hpartition
      obtain rfl : message'.offset = offset := hoffset
      exact Or.inl ⟨_, List.mem_map.mpr ⟨oid, hbound.1, rfl⟩, rfl⟩
    · exact Or.inr ⟨message', hmem, hpartition, hoffset⟩
  · refine h.of_loop fun partition offset oid hbound _ => ?_
    -- nobody waits for a message that does not decode
    have hnone : (st.engine.operators.get oid).isNone = true := by
      unfold careful at hcareful
      dsimp only at hcareful
      rw [hloop] at hcareful
      dsimp only at hcareful
      rw [herr] at hcareful
      exact List.all_eq_true.mp hcareful oid hbound.1
    have hsome := hbound.2
    rw [Option.isNone_iff_eq_none.mp hnone] at hsome
    cases hsome

theorem Invariant.dispatch (h : Invariant log start st) {refusedAt : Option Nat}
    (hcareful : careful deserialize st (.dispatch topic refusedAt) = true)
    (hstep : st.step log deserialize (.dispatch topic refusedAt) = some st') : Invariant log start st' := by
  obtain ⟨oid, d, todo, batch, hloop, rfl⟩ := dispatch_eq_some hstep
  unfold careful at hcareful
  dsimp only at hcareful
  rw [hloop] at hcareful
  obtain ⟨hrefused, hserved⟩ := (Bool.and_eq_true _ _).mp hcareful
  obtain rfl := Option.isNone_iff_eq_none.mp hrefused
  have hengine : Invariant log start
      { st with engine := (st.engine.dispatch (acceptsBut none) oid d).1 } :=
    h.of_engine (.dispatch d) (fun _ _ => Engine.dispatch_kept _ oid d)
      (fun _ hx => Engine.dispatch_handled _ oid d hx)
  refine hengine.of_loop fun partition offset oid' hbound hhand => ?_
  change InHand (st.loops topic) oid' _ at hhand
  rw [hloop] at hhand
  rcases hhand with ⟨d', hmem, horigin⟩ | hmem
  · rcases List.mem_cons.mp hmem with heq | hmem
    · cases heq
      have hreg : (st.engine.operators.get oid).isSome := (hbound.of_sameRegistry (.dispatch d)).2
      exact Or.inl (horigin ▸ Engine.dispatch_does acceptsBut_none hserved hreg d)
    · exact Or.inr (Or.inl ⟨d', hmem, horigin⟩)
  · exact Or.inr (Or.inr hmem)

/-- Where a topic is worked off, what is kept of it is done. -/
theorem handled_of_workedOff {e : Engine F σ} (h : workedOff e topic = true) {partition offset : Nat}
    (hkept : e.Kept oid ⟨topic, partition, offset⟩) : (oid, ⟨topic, partition, offset⟩) ∈ e.handled := by
  unfold workedOff at h
  simp only [Bool.and_eq_true, List.all_eq_true] at h
  obtain ⟨hqueues, hworkers⟩ := h
  rcases hkept with hdone | ⟨item, ⟨q, queue, hq, hmem⟩ | ⟨w, oid', q, result, hw⟩, -, horigin⟩
  · exact hdone
  · have hitem := hqueues queue (List.mem_of_getElem? hq) item hmem
    rw [horigin] at hitem
    simp at hitem
  · have hitem := hworkers _ (List.mem_of_getElem? hw)
    simp [horigin] at hitem

theorem Invariant.commit (h : Invariant log start st) {carriedOut : Bool}
    (hcareful : careful deserialize st (.commit topic carriedOut) = true)
    (hstep : st.step log deserialize (.commit topic carriedOut) = some st') : Invariant log start st' := by
  obtain ⟨hloop, rfl⟩ := commit_eq_some hstep
  have hempty : ∀ partition offset oid, ¬ InHand (st.loops topic) oid ⟨topic, partition, offset⟩ := by
    intro partition offset oid hhand
    rw [hloop] at hhand
    obtain ⟨_, ⟨⟩, -⟩ | ⟨_, ⟨⟩, -⟩ := hhand
  have hpolling : Invariant log start (st.withLoop topic .polling) :=
    h.of_loop fun partition offset oid _ hhand => absurd hhand (hempty partition offset oid)
  refine ⟨hpolling.accounted, ?_⟩
  intro topic' partition offset hlog hstart hlt oid hbound
  cases carriedOut with
  | false => exact h.atLeastOnce topic' partition offset hlog hstart hlt oid hbound
  | true =>
      by_cases htopic : topic' = topic
      · subst htopic
        change offset < Function.update st.committed topic' (st.position topic') topic' partition at hlt
        rw [Function.update_self] at hlt
        -- below the position, and neither with the loop nor with a worker
        have hwhere := h.accounted topic' partition offset hlog hstart hlt oid hbound
        exact handled_of_workedOff hcareful (hwhere.resolve_right (hempty partition offset oid))
      · change offset < Function.update st.committed topic (st.position topic) topic' partition at hlt
        rw [Function.update_of_ne htopic] at hlt
        exact h.atLeastOnce topic' partition offset hlog hstart hlt oid hbound

theorem Invariant.crash (h : Invariant log start st) (states : Nat → σ) :
    Invariant log start ⟨restarted st.engine states, fun _ => .polling, st.committed, st.committed⟩ where
  accounted topic partition offset hlog hstart hlt oid hbound :=
    Or.inl (Or.inl (h.atLeastOnce topic partition offset hlog hstart hlt oid hbound))
  atLeastOnce := h.atLeastOnce

theorem Invariant.step (h : Invariant log start st) {event : ConsumeEvent F σ}
    (hstep : st.step log deserialize event = some st') (hcareful : careful deserialize st event = true) :
    Invariant log start st' := by
  cases event with
  | getmany topic upto => exact h.getmany hstep
  | next topic clock => exact h.next hcareful hstep
  | dispatch topic refusedAt => exact h.dispatch hcareful hstep
  | commit topic carriedOut => exact h.commit hcareful hstep
  | stop topic =>
      cases hstep
      exact h.of_loop fun _ _ _ _ _ => Or.inr trivial
  | work w event refusedAt =>
      obtain ⟨hevent, hrefused⟩ := (Bool.and_eq_true _ _).mp hcareful
      obtain rfl := Option.isNone_iff_eq_none.mp hrefused
      obtain ⟨e, he, rfl⟩ := Option.map_eq_some_iff.mp hstep
      exact h.of_engine (.workerStep he)
        (fun _ _ => Engine.workerStep_kept acceptsBut_none (of_decide_eq_true hevent) he)
        (fun _ hx => Engine.workerStep_handled he hx)
  | crash states =>
      cases hstep
      exact h.crash states

end Steps

/-! ## The result

The property along every run of such steps, one run in which it has something to say, and the run of the claim that
breaks it: queue, commit, crash. -/

/-- One operator that counts the records of `raw`, registered. -/
def countingRaw (cpuBound : Bool) : Engine ℚ Nat :=
  (Engine.started (fun _ => ⟨BaseOperator.counting "op", cpuBound, 0⟩)).registerOperator 0 ["raw"] []

/-- Its consumption from the beginning of `raw`, which has one record. -/
def countingStart (cpuBound : Bool) : Consumption ℚ Nat :=
  ⟨countingRaw cpuBound, fun _ => .polling, fun _ _ => 0, fun _ _ => 0⟩

def oneRecord : String → Log := fun topic partition offset =>
  if topic = "raw" ∧ partition = 0 ∧ offset = 0 then some [] else none

theorem init_countingStart (cpuBound : Bool) : Init (fun _ _ => 0) (countingStart cpuBound) where
  loops _ := rfl
  position := rfl
  committed := rfl

/-- A run that commits the record once it has been processed, and crashes. -/
def processThenCommit : List (ConsumeEvent ℚ Nat) :=
  [.work 0 .start none, .getmany "raw" [(0, 1)], .next "raw" ⟨0, fun _ => 0⟩, .dispatch "raw" none,
    .work 0 .take none, .work 0 .finish none, .commit "raw" true, .crash (fun _ => 0)]

end Consumption

end Hea
end HybridStream
