import HybridStream.Hea.Throttle
import HybridStream.Py.Exact
import Mathlib.Algebra.BigOperators.Group.Finset.Basic
import Mathlib.Algebra.Order.BigOperators.Group.Finset

/-!
# `Hea.Correctness.QueueBound` — how long the queue of a CPU-bound operator gets

The check comes after the batch, so the high water mark does not bound a queue. What does is the mark and a batch of
every topic of the operator (`depth_le_of_pauses`), provided that on each of them the operator is the last one with a
queue (`LastQueued`), so that its reading is the one that counts, that the topics can be paused, and that every message
can be read, so that every batch ends with a check. `credit` is what the loops may still put into the queue before
their next check; the queue and the credit of all loops together never get past the bound.
-/

namespace HybridStream
namespace Hea

open Lib Py

variable {F σ : Type}

/-! ## The queues of an engine

How the depth of one queue changes: a dispatch raises it by one at most, and the workers only lower it. -/

namespace Engine

variable {accepts : Nat → Bool} {e e' : Engine F σ} {oid : String} {q : Nat}

/-- `q.qsize()` -/
def depth (e : Engine F σ) (q : Nat) : Nat := (e.queues.getD q []).length

@[simp] theorem queues_conclude (worked : String) (origin : Origin) (result : Except PyError (List (Record F))) :
    (e.conclude accepts oid worked origin result).queues = e.queues := by
  obtain ⟨sends, done, -, heq⟩ := conclude_eq accepts e oid worked origin result
  rw [heq]

@[simp] theorem consumers_conclude (worked : String) (origin : Origin) (result : Except PyError (List (Record F))) :
    (e.conclude accepts oid worked origin result).consumers = e.consumers := by
  obtain ⟨sends, done, -, heq⟩ := conclude_eq accepts e oid worked origin result
  rw [heq]

theorem consumers_dispatch (d : Delivery F) : (e.dispatch accepts oid d).1.consumers = e.consumers := by
  unfold dispatch
  split
  · rfl
  · split
    · split <;> rfl
    · exact consumers_conclude oid d.origin _

theorem consumers_workerStep {w : Nat} {event : WorkerEvent} (h : e.workerStep accepts w event = some e') :
    e'.consumers = e.consumers := by
  cases event with
  | start =>
      obtain ⟨oid, state, -, -, rfl⟩ := startWorker_eq_some h
      rfl
  | take =>
      obtain ⟨oid, q, item, rest, -, -, rfl⟩ := takeItem_eq_some h
      rfl
  | finish =>
      obtain ⟨oid, q, item, result, -, rfl⟩ := finishItem_eq_some h
      exact consumers_conclude item.operatorId item.delivery.origin result
  | fail =>
      obtain ⟨oid, q, item, result, -, rfl⟩ := failItem_eq_some h
      rfl

theorem depth_enqueue (e : Engine F σ) (q' : Nat) (item : QueueItem F) (q : Nat) :
    (e.enqueue q' item).depth q = if q' = q ∧ q < e.queues.length then e.depth q + 1 else e.depth q := by
  unfold depth enqueue
  dsimp only
  rw [List.getD_eq_getElem?_getD, List.getElem?_set]
  by_cases hqq : q' = q
  · subst hqq
    by_cases hlt : q' < e.queues.length
    · simp [hlt]
    · simp [hlt, List.getD_eq_getElem?_getD]
  · simp [hqq, List.getD_eq_getElem?_getD]

/-- A dispatch puts at most one item into the operator's own queue. -/
theorem depth_dispatch (d : Delivery F) (q : Nat) :
    (e.dispatch accepts oid d).1.depth q ≤ e.depth q + if e.workerQueues.get oid = some q then 1 else 0 := by
  unfold dispatch
  split
  · exact Nat.le_add_right _ _
  · split
    · split
      · rename_i q' hq'
        rw [depth_enqueue]
        by_cases hqq : q' = q
        · subst hqq
          simp only [hq', ↓reduceIte]
          split <;> omega
        · rw [if_neg fun h => hqq h.1]
          exact Nat.le_add_right _ _
      · exact Nat.le_add_right _ _
    · unfold processInline depth
      dsimp only
      rw [queues_conclude]
      exact Nat.le_add_right _ _

/-- An operator that is registered as CPU-bound, with its queue. -/
structure HasQueue (e : Engine F σ) (oid : String) (q : Nat) : Prop where
  operator : ∃ op, e.operators.get oid = some op ∧ (e.heap op).cpuBound = true
  queue    : e.workerQueues.get oid = some q
  inside   : q < e.queues.length

theorem HasQueue.of_sameRegistry (h : e.HasQueue oid q) (hsame : SameRegistry e e') : e'.HasQueue oid q where
  operator := by
    obtain ⟨op, hop, hcpu⟩ := h.operator
    exact ⟨op, by rw [hsame.operators]; exact hop, by rw [hsame.cpuBound]; exact hcpu⟩
  queue := by
    rw [hsame.workerQueues]
    exact h.queue
  inside := by
    rw [hsame.queues]
    exact h.inside

/-- The operator gets what is dispatched to it, and no dispatch takes anything out of a queue. -/
theorem le_depth_dispatch (h : e.HasQueue oid q) (oid' : String) (d : Delivery F) :
    e.depth q + (if oid' = oid then 1 else 0) ≤ (e.dispatch accepts oid' d).1.depth q := by
  obtain ⟨op, hop, hcpu⟩ := h.operator
  by_cases hself : oid' = oid
  · subst hself
    unfold dispatch
    simp only [hop, hcpu, h.queue, ↓reduceIte, depth_enqueue, h.inside, and_self, le_refl]
  · rw [if_neg hself, Nat.add_zero]
    unfold dispatch
    split
    · exact le_rfl
    · split
      · split
        · rw [depth_enqueue]
          split <;> omega
        · exact le_rfl
      · unfold processInline depth
        dsimp only
        rw [queues_conclude]

/-- The workers make queues shorter only. -/
theorem depth_workerStep {w : Nat} {event : WorkerEvent} (h : e.workerStep accepts w event = some e') (q : Nat) :
    e'.depth q ≤ e.depth q := by
  cases event with
  | start =>
      obtain ⟨oid, state, -, -, rfl⟩ := startWorker_eq_some h
      exact le_rfl
  | take =>
      obtain ⟨oid, q', item, rest, -, hq', rfl⟩ := takeItem_eq_some h
      unfold depth
      dsimp only
      by_cases hqq : q' = q
      · subst hqq
        obtain ⟨hlt, heq⟩ := List.getElem?_eq_some_iff.mp hq'
        simp [List.getD_eq_getElem?_getD, hlt, heq]
      · rw [List.getD_eq_getElem?_getD, List.getElem?_set_ne hqq, ← List.getD_eq_getElem?_getD]
  | finish =>
      obtain ⟨oid, q', item, result, -, rfl⟩ := finishItem_eq_some h
      unfold depth
      rw [queues_conclude]
  | fail =>
      obtain ⟨oid, q', item, result, -, rfl⟩ := failItem_eq_some h
      exact le_rfl

/-- A queue that is joined is empty. -/
theorem depth_of_joined (h : e.joined q = true) : e.depth q = 0 := by
  unfold joined at h
  rw [Bool.and_eq_true] at h
  exact List.length_eq_zero_iff.mpr (List.isEmpty_iff.mp h.1)

/-! ### Registered engines

What an engine has after registrations alone: a queue for each CPU-bound operator that no other operator has, and a
consumer for each topic that is bound. -/

/-- Nothing but registrations. -/
def Registers (_ : Engine F σ) : Event F → Prop
  | .register _ _ _ _ => True
  | _                  => False

/-- What an engine has got after registrations: queues of their own for the operators, all of them empty, and a
    consumer for every topic in use. -/
structure Wired (e : Engine F σ) : Prop where
  inside   : ∀ oid q, e.workerQueues.get oid = some q → q < e.queues.length
  apart    : ∀ oid oid' q, e.workerQueues.get oid = some q → e.workerQueues.get oid' = some q → oid = oid'
  consumed : ∀ topic, e.bindings topic ≠ [] → topic ∈ e.consumers
  idle     : ∀ q, e.depth q = 0

theorem mem_consumers_foldl_bindTopic (oid : String) (topics : List String) (e : Engine F σ) (topic : String) :
    topic ∈ (topics.foldl (bindTopic oid) e).consumers ↔ topic ∈ e.consumers ∨ topic ∈ topics := by
  induction topics generalizing e with
  | nil => simp
  | cons t topics ih =>
      rw [List.foldl_cons, ih, List.mem_cons]
      unfold bindTopic
      dsimp only
      split
      · rename_i hin
        constructor
        · tauto
        · rintro (h | rfl | h)
          · exact Or.inl h
          · exact Or.inl hin
          · exact Or.inr h
      · rw [List.mem_append, List.mem_singleton]
        tauto

theorem mem_consumers_registerOperator {op : Nat} {inputTopics outputTopics : List String} {topic : String} :
    topic ∈ (e.registerOperator op inputTopics outputTopics).consumers ↔ topic ∈ e.consumers ∨ topic ∈ inputTopics := by
  have hfold := mem_consumers_foldl_bindTopic (e.operatorIdOf op) inputTopics
    { e with
      operators    := e.operators.set (e.operatorIdOf op) op
      outputRoutes := e.outputRoutes.set (e.operatorIdOf op) outputTopics } topic
  unfold registerOperator
  dsimp only
  split <;> exact hfold

theorem Wired.registerOperator (h : e.Wired) (op : Nat) (inputTopics outputTopics : List String) :
    (e.registerOperator op inputTopics outputTopics).Wired := by
  have hconsumed : ∀ topic, (e.registerOperator op inputTopics outputTopics).bindings topic ≠ [] →
      topic ∈ (e.registerOperator op inputTopics outputTopics).consumers := by
    intro topic hbound
    rw [bindings_registerOperator] at hbound
    rw [mem_consumers_registerOperator]
    by_cases hold : e.bindings topic = []
    · right
      rw [hold, List.nil_append, Ne, List.replicate_eq_nil_iff] at hbound
      exact List.count_pos_iff.mp (Nat.pos_of_ne_zero hbound)
    · exact Or.inl (h.consumed topic hold)
  obtain ⟨e₂, -, -, htable, hqueues, -, heq⟩ := registerOperator_eq e op inputTopics outputTopics
  cases hcpu : (e.heap op).cpuBound with
  | false =>
      rw [hcpu] at heq
      rw [heq] at hconsumed ⊢
      refine ⟨?_, ?_, hconsumed, ?_⟩
      · show ∀ oid q, e₂.workerQueues.get oid = some q → q < e₂.queues.length
        rw [htable, hqueues]
        exact h.inside
      · show ∀ oid oid' q, e₂.workerQueues.get oid = some q → e₂.workerQueues.get oid' = some q → oid = oid'
        rw [htable]
        exact h.apart
      · intro q
        show (e₂.queues.getD q []).length = 0
        rw [hqueues]
        exact h.idle q
  | true =>
      rw [hcpu] at heq
      rw [heq] at hconsumed ⊢
      have hget : ∀ oid q, (e.workerQueues.set (e.operatorIdOf op) e.queues.length).get oid = some q →
          (oid = e.operatorIdOf op ∧ q = e.queues.length) ∨ (e.workerQueues.get oid = some q) := by
        intro oid q hq
        rw [Dict.get_set] at hq
        split at hq
        · exact Or.inl ⟨‹_›, (Option.some.inj hq).symm⟩
        · exact Or.inr hq
      refine ⟨?_, ?_, hconsumed, ?_⟩
      · intro oid q hq
        simp only [↓reduceIte, addWorker, htable, hqueues, List.length_append, List.length_singleton] at hq ⊢
        rcases hget oid q hq with ⟨-, rfl⟩ | hq
        · omega
        · have hlt := h.inside oid q hq
          omega
      · intro oid oid' q hq hq'
        simp only [↓reduceIte, addWorker, htable, hqueues] at hq hq'
        -- the new queue is nobody else's
        rcases hget oid q hq with ⟨rfl, rfl⟩ | hq
        · rcases hget oid' _ hq' with ⟨rfl, -⟩ | hq'
          · rfl
          · exact absurd (h.inside oid' _ hq') (lt_irrefl _)
        · rcases hget oid' q hq' with ⟨rfl, rfl⟩ | hq'
          · exact absurd (h.inside oid _ hq) (lt_irrefl _)
          · exact h.apart oid oid' q hq hq'
      · intro q
        have hidle := h.idle q
        unfold depth at hidle ⊢
        simp only [↓reduceIte, addWorker, hqueues]
        rw [List.getD_eq_getElem?_getD] at hidle ⊢
        rcases Nat.lt_trichotomy q e.queues.length with hlt | rfl | hgt
        · rwa [List.getElem?_append_left hlt]
        · simp
        · rw [List.getElem?_eq_none (by simp; omega)]
          rfl

theorem wired_of_registered {heap : Nat → OperatorObject F σ}
    (h : ((system accepts heap).restrict Registers).Reachable e) : e.Wired := by
  refine h.invariant (I := Wired) ?_ ?_
  · rintro _ rfl
    refine ⟨?_, ?_, ?_, fun _ => rfl⟩
    · intro oid q hq
      cases hq
    · intro oid oid' q hq
      cases hq
    · intro topic hbound
      exact absurd rfl hbound
  · rintro s event s' hs ⟨hstep, hregisters⟩
    cases event with
    | register oid op inputTopics outputTopics =>
        obtain ⟨-, rfl⟩ := Option.ite_none_right_eq_some.mp hstep |>.imp_right Option.some.inj
        exact hs.registerOperator op inputTopics outputTopics
    | deregister | consume | work => exact hregisters.elim

/-! ### Deregistrations

Taking an operator away takes its queue out of the table, and leaves the depths of the others. -/

theorem deregisterOperator_eq (e : Engine F σ) (oid : String) :
    e.deregisterOperator oid = e ∨ e.deregisterOperator oid =
      { e with
        operators    := e.operators.pop oid
        workerQueues := e.workerQueues.pop oid
        outputRoutes := e.outputRoutes.pop oid } := by
  unfold deregisterOperator
  split
  · exact Or.inr rfl
  · exact Or.inl rfl

/-- An operator loses its queue, and nothing else is changed about the queues. -/
theorem queueOf_deregisterOperator (e : Engine F σ) (oid oid' : String) :
    (e.deregisterOperator oid').workerQueues.get oid = e.workerQueues.get oid ∨
      oid = oid' ∧ (e.deregisterOperator oid').workerQueues.get oid = none := by
  rcases deregisterOperator_eq e oid' with heq | heq
  · rw [heq]
    exact Or.inl rfl
  · rw [heq]
    dsimp only
    rw [Dict.get_pop]
    split
    · exact Or.inr ⟨‹_›, rfl⟩
    · exact Or.inl rfl

@[simp] theorem depth_deregisterOperator (oid : String) (q : Nat) : (e.deregisterOperator oid).depth q = e.depth q := by
  rcases deregisterOperator_eq e oid with heq | heq
  · rw [heq]
  · rw [heq]
    rfl

@[simp] theorem consumers_deregisterOperator (oid : String) : (e.deregisterOperator oid).consumers = e.consumers := by
  rcases deregisterOperator_eq e oid with heq | heq <;> rw [heq]

end Engine

/-! ## The credit of the loops

Between two checks a loop may put a batch into a queue without being stopped. So the bound is on the queue together
with what the loops may still put into it: a dispatch moves one from the credit to the queue, and a check renews the
credit only of a topic that stays open, which its queue then is not over the high mark. -/

/-- On every topic of the operator no operator after it has a queue. -/
def Engine.LastQueued (e : Engine F σ) (oid : String) : Prop :=
  ∀ topic, oid ∈ e.bindings topic → ∃ before after, e.bindings topic = before ++ oid :: after ∧
    ∀ oid' ∈ after, e.workerQueues.get oid' = none

/-- How often a topic hands each record to the operator. -/
def Engine.share (e : Engine F σ) (oid topic : String) : Nat := (e.bindings topic).count oid

/-- A sum changes by what one of its terms changes. -/
theorem sum_change {topics : Finset String} {f g : String → Nat} {t : String} (ht : t ∈ topics)
    (h : ∀ t' ≠ t, g t' = f t') : topics.sum g + f t = topics.sum f + g t := by
  have hf : f t + (topics.erase t).sum f = topics.sum f := Finset.add_sum_erase topics f ht
  have hg : g t + (topics.erase t).sum g = topics.sum g := Finset.add_sum_erase topics g ht
  have hrest : (topics.erase t).sum g = (topics.erase t).sum f :=
    Finset.sum_congr rfl fun t' ht' => h t' (Finset.ne_of_mem_erase ht')
  omega

namespace Throttle

variable {config : ThrottleConfig} {deserialize : List UInt8 → Except PyError (Record F)} {e₀ : Engine F σ}
  {st st' : Throttle F σ} {oid : String} {q : Nat}

/-- What the loop of a topic may still put into the operator's queue before the next check. -/
def credit (config : ThrottleConfig) (oid : String) (st : Throttle F σ) (topic : String) : Nat :=
  match st.loops topic with
  | .polling             => if topic ∈ st.paused.topics then 0 else config.batchSize * st.engine.share oid topic
  | .handling todo batch => (todo.map Prod.fst).count oid + batch.length * st.engine.share oid topic
  | .stopped             => 0

/-- Every message that is taken up can be read. -/
def Readable (deserialize : List UInt8 → Except PyError (Record F)) (st : Throttle F σ) : ThrottleEvent F → Prop
  | .next topic _ => ∀ message batch, st.loops topic = .handling [] (message :: batch) →
      (deserialize message.value).isOk = true
  | _             => True

/-- The queue and the credit of all loops stay within the high water mark and a batch of every topic. -/
structure Within (config : ThrottleConfig) (e₀ : Engine F σ) (oid : String) (q : Nat) (st : Throttle F σ) : Prop where
  bindings  : ∀ topic, st.engine.bindings topic = e₀.bindings topic
  consumers : st.engine.consumers = e₀.consumers
  queues    : ∀ oid' q', st.engine.workerQueues.get oid' = some q' → e₀.workerQueues.get oid' = some q'
  present   : st.engine.workerQueues.get oid = some q ∨
    st.engine.workerQueues.get oid = none ∧ st.engine.depth q = 0
  busy      : ∀ topic, st.loops topic ≠ .polling → topic ∈ e₀.consumers
  limited   : ∀ topic, st.credit config oid topic ≤ config.batchSize * e₀.share oid topic
  total     : st.engine.depth q + e₀.consumers.toFinset.sum (st.credit config oid) ≤
    config.marks.high.toNat + e₀.consumers.toFinset.sum (fun topic => config.batchSize * e₀.share oid topic)

namespace Within

theorem share (h : Within config e₀ oid q st) (topic : String) : st.engine.share oid topic = e₀.share oid topic := by
  unfold Engine.share
  rw [h.bindings]

/-- The step of a loop, in which the engine may get an item for the queue out of the loop's credit. -/
theorem of_step (h : Within config e₀ oid q st) {topic : String} {loop : Loop F} {e : Engine F σ}
    (hbusy : topic ∈ e₀.consumers) (hregistry : Engine.SameRegistry st.engine e)
    (hconsumers : e.consumers = st.engine.consumers)
    (hcredit : (st.withLoop topic loop).credit config oid topic ≤ st.credit config oid topic)
    (htotal : e.depth q + (st.withLoop topic loop).credit config oid topic ≤
      st.engine.depth q + st.credit config oid topic)
    (hgone : st.engine.workerQueues.get oid = none → e.depth q ≤ st.engine.depth q) :
    Within config e₀ oid q { st.withLoop topic loop with engine := e } := by
  -- the registry is the old one, so bindings, shares and credits can be read off either engine
  have hbindings : ∀ topic, e.bindings topic = st.engine.bindings topic := by
    intro topic
    unfold Engine.bindings
    rw [hregistry.topicBindings]
  have hengine : credit config oid { st.withLoop topic loop with engine := e } =
      (st.withLoop topic loop).credit config oid := by
    funext topic'
    unfold credit Engine.share
    simp only [hbindings]
    rfl
  have hothers : ∀ topic' ≠ topic,
      (st.withLoop topic loop).credit config oid topic' = st.credit config oid topic' := by
    intro topic' hne
    unfold credit withLoop
    dsimp only
    rw [Function.update_of_ne hne]
  -- all credits but that of the topic are what they were
  refine ⟨fun topic' => (hbindings topic').trans (h.bindings topic'), hconsumers.trans h.consumers, ?_, ?_, ?_, ?_, ?_⟩
  · dsimp only
    rw [hregistry.workerQueues]
    exact h.queues
  · dsimp only
    rw [hregistry.workerQueues]
    refine h.present.imp_right fun hnone => ⟨hnone.1, ?_⟩
    have hle := hgone hnone.1
    omega
  · intro topic' hloop
    by_cases hne : topic' = topic
    · rwa [hne]
    · apply h.busy topic'
      unfold withLoop at hloop
      dsimp only at hloop
      rwa [Function.update_of_ne hne] at hloop
  · intro topic'
    rw [hengine]
    by_cases hne : topic' = topic
    · subst hne
      exact hcredit.trans (h.limited topic')
    · rw [hothers topic' hne]
      exact h.limited topic'
  · have hsum := sum_change (List.mem_toFinset.mpr hbusy) hothers
    have hbefore := h.total
    rw [hengine]
    dsimp only
    omega

/-- A step of one loop that leaves the engine alone and does not raise the credit. -/
theorem of_loop (h : Within config e₀ oid q st) {topic : String} {loop : Loop F} (hbusy : topic ∈ e₀.consumers)
    (hcredit : (st.withLoop topic loop).credit config oid topic ≤ st.credit config oid topic) :
    Within config e₀ oid q (st.withLoop topic loop) :=
  h.of_step hbusy (Engine.SameRegistry.refl _) rfl hcredit (Nat.add_le_add_left hcredit _) fun _ => le_rfl

theorem getmany (h : Within config e₀ oid q st) {topic : String} {batch : List Message}
    (hstep : st.step config deserialize (.getmany topic batch) = some st') : Within config e₀ oid q st' := by
  obtain ⟨hloop, hconsumer, hsize, hpaused, rfl⟩ := getmany_eq_some hstep
  rw [h.consumers] at hconsumer
  refine h.of_loop hconsumer ?_
  unfold credit withLoop
  rw [hloop]
  simp only [Function.update_self, List.map_nil, List.count_nil, Nat.zero_add]
  split
  · rename_i hp
    simp [hpaused hp]
  · exact Nat.mul_le_mul_right _ hsize

theorem next (h : Within config e₀ oid q st) {topic : String} {clock : Clock F}
    (hreadable : Readable deserialize st (.next topic clock))
    (hstep : st.step config deserialize (.next topic clock) = some st') : Within config e₀ oid q st' := by
  obtain ⟨message, batch, hloop, ⟨record, -, rfl⟩ | ⟨err, herr, -⟩⟩ := next_eq_some hstep
  · refine h.of_loop (h.busy topic (by rw [hloop]; nofun)) ?_
    unfold credit withLoop Engine.share
    rw [hloop]
    simp only [Function.update_self, List.map_map, Function.comp_def, List.map_id', List.map_nil, List.count_nil,
      List.length_cons, Nat.add_mul, Nat.one_mul]
    omega
  · have hok := hreadable message batch hloop
    rw [herr] at hok
    cases hok

/-- What is dispatched moves from the credit into the queue. -/
theorem dispatch (h : Within config e₀ oid q st) (hwired : e₀.Wired) (hq : e₀.workerQueues.get oid = some q)
    {topic : String} {refusedAt : Option Nat}
    (hstep : st.step config deserialize (.dispatch topic refusedAt) = some st') : Within config e₀ oid q st' := by
  obtain ⟨oid', d, todo, batch, hloop, rfl⟩ := dispatch_eq_some hstep
  have hdepth : (st.engine.dispatch (acceptsBut refusedAt) oid' d).1.depth q ≤
      st.engine.depth q + if st.engine.workerQueues.get oid' = some q then 1 else 0 := Engine.depth_dispatch d q
  have hbefore : st.credit config oid topic =
      (oid' :: todo.map Prod.fst).count oid + batch.length * st.engine.share oid topic := by
    unfold credit
    rw [hloop]
    rfl
  have hafter : (st.withLoop topic (.handling todo batch)).credit config oid topic =
      (todo.map Prod.fst).count oid + batch.length * st.engine.share oid topic := by
    unfold credit withLoop
    simp only [Function.update_self]
  have hle : (todo.map Prod.fst).count oid ≤ (oid' :: todo.map Prod.fst).count oid := List.count_le_count_cons
  apply h.of_step (h.busy topic (by rw [hloop]; nofun)) (Engine.SameRegistry.dispatch d) (Engine.consumers_dispatch d)
  · omega
  · by_cases howner : st.engine.workerQueues.get oid' = some q
    · -- only the operator itself has this queue
      have hself : oid' = oid := hwired.apart oid' oid q (h.queues oid' q howner) hq
      rw [if_pos howner] at hdepth
      rw [hself, List.count_cons_self] at hbefore
      omega
    · rw [if_neg howner] at hdepth
      omega
  · intro hnone
    rw [if_neg] at hdepth
    · exact hdepth
    · intro howner
      rw [hwired.apart oid' oid q (h.queues oid' q howner) hq, hnone] at howner
      cases howner

theorem work (h : Within config e₀ oid q st) {w : Nat} {event : Engine.WorkerEvent} {refusedAt : Option Nat}
    (hstep : st.step config deserialize (.work w event refusedAt) = some st') : Within config e₀ oid q st' := by
  obtain ⟨e, he, rfl⟩ := work_eq_some hstep
  have hregistry := Engine.SameRegistry.workerStep he
  have hdepth := Engine.depth_workerStep he q
  have hbindings : ∀ topic, e.bindings topic = st.engine.bindings topic := by
    intro topic
    unfold Engine.bindings
    rw [hregistry.topicBindings]
  have hcredit : credit config oid { st with engine := e } = st.credit config oid := by
    funext topic
    unfold credit Engine.share
    simp only [hbindings]
  refine ⟨fun topic => (hbindings topic).trans (h.bindings topic),
    (Engine.consumers_workerStep he).trans h.consumers, ?_, ?_, h.busy, ?_, ?_⟩
  · dsimp only
    rw [hregistry.workerQueues]
    exact h.queues
  · dsimp only
    rw [hregistry.workerQueues]
    exact h.present.imp_right fun hgone => ⟨hgone.1, by omega⟩
  · rw [hcredit]
    exact h.limited
  · have htotal := h.total
    rw [hcredit]
    dsimp only
    omega

theorem deregister (h : Within config e₀ oid q st) {oid' : String}
    (hstep : st.step config deserialize (.deregister oid') = some st') : Within config e₀ oid q st' := by
  obtain ⟨hjoined, rfl⟩ := deregister_eq_some hstep
  have hcredit : credit config oid { st with engine := st.engine.deregisterOperator oid' } = st.credit config oid := by
    funext topic
    unfold credit Engine.share
    simp only [Engine.bindings_deregisterOperator]
  refine ⟨fun topic => ?_, ?_, ?_, ?_, h.busy, ?_, ?_⟩
  · exact (Engine.bindings_deregisterOperator oid' topic).trans (h.bindings topic)
  · exact (Engine.consumers_deregisterOperator oid').trans h.consumers
  · intro oid₂ q₂ hq₂
    rcases Engine.queueOf_deregisterOperator st.engine oid₂ oid' with hsame | ⟨-, hnone⟩
    · exact h.queues oid₂ q₂ (hsame ▸ hq₂)
    · dsimp only at hq₂
      rw [hnone] at hq₂
      cases hq₂
  · dsimp only
    rw [Engine.depth_deregisterOperator]
    rcases Engine.queueOf_deregisterOperator st.engine oid oid' with hsame | ⟨heq, hnone⟩
    · rw [hsame]
      exact h.present
    · -- the queue has been worked off
      refine Or.inr ⟨hnone, ?_⟩
      rcases h.present with hq | ⟨-, hzero⟩
      · exact Engine.depth_of_joined (hjoined q (heq ▸ hq))
      · exact hzero
  · rw [hcredit]
    exact h.limited
  · rw [hcredit]
    dsimp only
    rw [Engine.depth_deregisterOperator]
    exact h.total

/-- The operator's reading is the one that counts: a queue over the high mark leaves its topics paused, where the
    consumers can be. -/
theorem pauses (h : Within config e₀ oid q st) (hmarks : config.marks.low ≤ config.marks.high)
    (hlast : e₀.LastQueued oid) {topic : String} (hpauses : e₀.pauses config.api topic = true)
    (hbound : oid ∈ e₀.bindings topic) (hq : st.engine.workerQueues.get oid = some q)
    (hover : config.marks.high < st.engine.depth q) :
    topic ∈ ((st.engine.checkBackpressure config.api config.marks topic).exec st.paused).2.topics := by
  apply of_decide_eq_true
  rw [Engine.flag_checkBackpressure, latch_eq_true_iff (fun depth hup => hup.not_below hmarks)]
  refine Or.inl ⟨(Engine.pauses_congr h.consumers topic).trans hpauses, Or.inl ?_⟩
  obtain ⟨before, after, hsplit, hafter⟩ := hlast topic hbound
  refine ⟨before.map st.engine.queueDepth, some (st.engine.depth q), after.map st.engine.queueDepth, ?_, hover, ?_⟩
  · have hdepth : st.engine.queueDepth oid = some (st.engine.depth q) := by
      unfold Engine.queueDepth
      rw [hq]
      rfl
    unfold Engine.depths
    rw [h.bindings, hsplit, List.map_append, List.map_cons, hdepth]
  · intro depth hmem
    obtain ⟨oid', hoid', rfl⟩ := List.mem_map.mp hmem
    have hnone : st.engine.workerQueues.get oid' = none := by
      cases hget : st.engine.workerQueues.get oid' with
      | none    => rfl
      | some q' =>
          rw [← hafter oid' hoid', h.queues oid' q' hget]
    unfold Engine.queueDepth
    rw [hnone]
    exact id

/-- A check gives a loop credit again only if the queue is not over the high mark. -/
theorem check (h : Within config e₀ oid q st) (hmarks : config.marks.low ≤ config.marks.high)
    (hhigh : 0 ≤ config.marks.high) (hlast : e₀.LastQueued oid)
    (hpauses : ∀ topic, oid ∈ e₀.bindings topic → e₀.pauses config.api topic = true) {topic : String}
    (hstep : st.step config deserialize (.check topic) = some st') : Within config e₀ oid q st' := by
  obtain ⟨hloop, rfl⟩ := check_eq_some hstep
  -- the loop leaves the batch, so its topic is one of the consumers, and the check leaves the others alone
  have hbusy := h.busy topic (by rw [hloop]; nofun)
  have hpaused (hbound : oid ∈ e₀.bindings topic) := h.pauses hmarks hlast (hpauses topic hbound) hbound
  have hconfined := Engine.confined_checkBackpressure config.api st.engine config.marks topic st.paused
  generalize ((st.engine.checkBackpressure config.api config.marks topic).exec st.paused).2 = p' at hpaused hconfined ⊢
  generalize hst' : ({ st.withLoop topic .polling with paused := p' } : Throttle F σ) = st'
  have hengine : st'.engine = st.engine := by
    rw [← hst']
    rfl
  have hothers : ∀ topic' ≠ topic, st'.credit config oid topic' = st.credit config oid topic' := by
    intro topic' hne
    rw [← hst']
    unfold credit withLoop
    simp only [Function.update_of_ne hne, hconfined.others topic' hne]
  -- after the check the topic may bring a batch if it is open, and nothing if it is paused
  have hafter : st'.credit config oid topic =
      if topic ∈ p'.topics then 0 else config.batchSize * e₀.share oid topic := by
    rw [← hst', ← h.share topic]
    unfold credit withLoop
    simp only [Function.update_self]
  have hlimited : ∀ topic', st'.credit config oid topic' ≤ config.batchSize * e₀.share oid topic' := by
    intro topic'
    by_cases hne : topic' = topic
    · subst hne
      rw [hafter]
      split
      · exact Nat.zero_le _
      · exact le_rfl
    · rw [hothers topic' hne]
      exact h.limited topic'
  -- the registry is untouched; only what may still come, and the total, are left to be shown
  refine ⟨?_, ?_, ?_, ?_, ?_, hlimited, ?_⟩
  · rw [hengine]
    exact h.bindings
  · rw [hengine]
    exact h.consumers
  · rw [hengine]
    exact h.queues
  · rw [hengine]
    exact h.present
  · intro topic' hloop'
    by_cases hne : topic' = topic
    · rwa [hne]
    · rw [← hst'] at hloop'
      unfold withLoop at hloop'
      dsimp only at hloop'
      rw [Function.update_of_ne hne] at hloop'
      exact h.busy topic' hloop'
  · rw [hengine]
    by_cases hzero : st'.credit config oid topic = 0
    -- no credit for the topic: its part of the sum is gone, the others are what they were
    · have hsum := sum_change (List.mem_toFinset.mpr hbusy) hothers
      have htotal := h.total
      omega
    · -- the topic has credit again, so the queue has been found short enough
      have hnot : topic ∉ p'.topics := by
        intro hp
        rw [hafter, if_pos hp] at hzero
        exact hzero rfl
      have hshort : st.engine.depth q ≤ config.marks.high.toNat := by
        rcases h.present with hq | ⟨-, hgone⟩
        · by_contra hover
          refine hnot (hpaused ?_ hq (by omega))
          by_contra hbound
          have hshare : e₀.share oid topic = 0 := List.count_eq_zero.mpr hbound
          rw [hafter, hshare] at hzero
          simp at hzero
        · omega
      exact Nat.add_le_add hshort (Finset.sum_le_sum fun topic' _ => hlimited topic')

theorem of_start (hwired : e₀.Wired) (hq : e₀.workerQueues.get oid = some q) :
    Within config e₀ oid q (start e₀) where
  bindings _    := rfl
  consumers     := rfl
  queues _ _    := id
  present       := Or.inl hq
  busy _ h      := absurd rfl h
  limited topic := le_rfl
  total := by
    show e₀.depth q + _ ≤ _
    rw [hwired.idle q, Nat.zero_add]
    exact Nat.le_add_left _ _

end Within

/-- A queue stays within the high water mark and one batch of every topic of its operator, under every interleaving of
    consumers, workers and deregistrations, where the operator is the last one with a queue on its topics, the topics
    can be paused and every message can be read. -/
theorem depth_le_of_pauses {accepts : Nat → Bool} {heap : Nat → OperatorObject F σ}
    (hregistered : ((Engine.system accepts heap).restrict Engine.Registers).Reachable e₀)
    (hmarks : config.marks.low ≤ config.marks.high) (hhigh : 0 ≤ config.marks.high)
    (hq : e₀.workerQueues.get oid = some q) (hlast : e₀.LastQueued oid)
    (hpauses : ∀ topic, oid ∈ e₀.bindings topic → e₀.pauses config.api topic = true)
    (hst : ((system config deserialize e₀).restrict (Readable deserialize)).Reachable st) :
    st.engine.depth q ≤ config.marks.high.toNat +
      e₀.consumers.toFinset.sum (fun topic => config.batchSize * e₀.share oid topic) := by
  have hwired := Engine.wired_of_registered hregistered
  have hwithin : Within config e₀ oid q st := by
    refine hst.invariant (I := Within config e₀ oid q) ?_ ?_
    · rintro _ rfl
      exact Within.of_start hwired hq
    · rintro s event s' hs ⟨hstep, hreadable⟩
      cases event with
      | getmany topic batch => exact hs.getmany hstep
      | next topic clock => exact hs.next hreadable hstep
      | dispatch topic refusedAt => exact hs.dispatch hwired hq hstep
      | check topic => exact hs.check hmarks hhigh hlast hpauses hstep
      | work w event refusedAt => exact hs.work hstep
      | deregister oid' => exact hs.deregister hstep
  exact (Nat.le_add_right _ _).trans hwithin.total

end Throttle

end Hea
end HybridStream
