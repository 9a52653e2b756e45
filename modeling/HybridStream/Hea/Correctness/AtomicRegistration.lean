import HybridStream.Hea.Registration
import HybridStream.Py.Exact

/-!
# `Hea.Correctness.AtomicRegistration` — what a call that raises leaves in the tables

Nothing takes back what a registration or a deregistration has written before it raises. A registration binds each
topic before it starts the topic's consumer, so one that raises has bound at least its first topic; without topics
it has written its operator, its routes and its queue. `raising_atomic_iff` leaves one harmless case: an inline
operator without input topics that is registered again under the same routes.
-/

namespace HybridStream
namespace Hea
namespace Engine

open Lib Py

variable {F σ : Type}

/-- The tables of the registrations are the same. -/
structure SameTables (e e' : Engine F σ) : Prop where
  operators     : e'.operators = e.operators
  outputRoutes  : e'.outputRoutes = e.outputRoutes
  topicBindings : e'.topicBindings = e.topicBindings
  workerQueues  : e'.workerQueues = e.workerQueues
  consumers     : e'.consumers = e.consumers

/-- The queues in the table exist. -/
def Allocated (e : Engine F σ) : Prop := ∀ oid q, e.workerQueues.get oid = some q → q < e.queues.length

/-- A registration of what is registered already: an inline operator that reads no topic, with its routes. -/
def RegistryCall.Idle (e : Engine F σ) : RegistryCall → Prop
  | .register op inputTopics outputTopics _ =>
      inputTopics = [] ∧ (e.heap op).cpuBound = false ∧ e.operators.get (e.operatorIdOf op) = some op ∧
        e.outputRoutes.get (e.operatorIdOf op) = some outputTopics
  | .deregister _ _ => False

/-! ## Registrations

What a registration that raises has written by then. It binds a topic before it starts its consumer, and bindings are
only ever added, so the lengths of the bindings tell a registration that got to a topic from one that did not. -/

section Register

variable {e : Engine F σ} {answers : RegisterAnswers} {oid topic topic' : String} {n : Nat}

theorem length_bindings_bind (e : Engine F σ) (oid topic : String) :
    ((e.topicBindings.set topic (e.bindings topic ++ [oid])).getD topic []).length =
      (e.bindings topic).length + 1 := by
  rw [Dict.getD_set, if_pos rfl, List.length_append]
  rfl

/-- Bindings are only added. -/
theorem registerTopic_keeps :
    Proc.Keeps (fun e : Engine F σ => n ≤ (e.bindings topic).length) (registerTopic answers oid topic') := by
  refine Proc.keeps_write_bind (fun e hn => ?_) (Proc.keeps_get_bind fun e _ => Proc.keeps_ite (Proc.keeps_pure _)
    (Proc.keeps_lift_bind fun _ => Proc.keeps_modify fun _ hn => hn))
  show n ≤ ((e.topicBindings.set topic' (e.bindings topic' ++ [oid])).getD topic []).length
  by_cases heq : topic = topic'
  · rw [heq, length_bindings_bind, ← heq]
    exact Nat.le_succ_of_le hn
  · rw [Dict.getD_set, if_neg heq]
    exact hn

theorem registerTopics_keeps (topics : List String) :
    Proc.Keeps (fun e : Engine F σ => n ≤ (e.bindings topic).length) (registerTopics answers oid topics) := by
  induction topics with
  | nil => exact Proc.keeps_pure _
  | cons topic' topics ih => exact Proc.keeps_bind registerTopic_keeps fun _ => ih

/-- The topic of a turn is bound, whatever the turn is answered. -/
theorem lt_registerTopic :
    (e.bindings topic).length < ((Proc.exec (registerTopic answers oid topic) e).2.bindings topic).length := by
  have hbound : Proc.Keeps (fun e' : Engine F σ => (e.bindings topic).length + 1 ≤ (e'.bindings topic).length)
      (do let e ← get; if topic ∈ e.consumers then pure ⟨⟩ else startConsumer answers topic) :=
    Proc.keeps_get_bind fun e' _ => Proc.keeps_ite (Proc.keeps_pure _)
      (Proc.keeps_lift_bind fun _ => Proc.keeps_modify fun _ h => h)
  exact hbound _ (Nat.le_of_eq (length_bindings_bind e oid topic).symm)

/-- The operator and its routes are entered. -/
def enter (op : Nat) (outputTopics : List String) (e : Engine F σ) : Engine F σ :=
  { e with
    operators    := e.operators.set (e.operatorIdOf op) op
    outputRoutes := e.outputRoutes.set (e.operatorIdOf op) outputTopics }

/-- A registration binds its first topic. -/
theorem lt_register {op : Nat} {topics outputTopics : List String} : (e.bindings topic).length <
    ((Proc.exec (register answers op (topic :: topics) outputTopics) e).2.bindings topic).length := by
  have hturn : (e.bindings topic).length + 1 ≤ ((Proc.exec (registerTopic answers (e.operatorIdOf op) topic)
      (e.enter op outputTopics)).2.bindings topic).length :=
    lt_registerTopic (e := e.enter op outputTopics)
  have htopics : (e.bindings topic).length + 1 ≤ ((Proc.exec (registerTopics answers (e.operatorIdOf op)
      (topic :: topics)) (e.enter op outputTopics)).2.bindings topic).length :=
    Proc.exec_bind_keeps (I := fun e' : Engine F σ => _ ≤ (e'.bindings topic).length) hturn
      fun _ => registerTopics_keeps topics
  unfold register
  rw [Proc.exec_get_bind]
  dsimp only
  rw [Proc.exec_modify_bind]
  refine Proc.exec_bind_keeps (I := fun e' : Engine F σ => _ ≤ (e'.bindings topic).length) htopics
    fun _ => Proc.keeps_write_bind (fun e' h => ?_) (Proc.keeps_lift _)
  split
  · exact h
  · exact h

/-- A registration without topics raises in `on_start` only. -/
theorem exec_register_nil (answers : RegisterAnswers) (op : Nat) (outputTopics : List String) (e : Engine F σ) :
    Proc.exec (register answers op [] outputTopics) e = (answers.onStart, e.registerOperator op [] outputTopics) := rfl

/-- A registration without topics changes no table iff it finds what it writes. -/
theorem sameTables_register_nil (h : e.Allocated) (op : Nat) (outputTopics : List String) :
    SameTables e (e.registerOperator op [] outputTopics) ↔ (e.heap op).cpuBound = false ∧
      e.operators.get (e.operatorIdOf op) = some op ∧ e.outputRoutes.get (e.operatorIdOf op) = some outputTopics := by
  cases hcpu : (e.heap op).cpuBound with
  | true =>
      -- the new queue is none of the old ones
      refine iff_of_false (fun hsame => ?_) fun hidle => absurd hidle.1 (by simp)
      have hqueue : (e.registerOperator op [] outputTopics).workerQueues.get (e.operatorIdOf op) =
          some e.queues.length := by
        unfold registerOperator
        dsimp only [List.foldl_nil]
        rw [hcpu, if_pos rfl]
        exact Dict.get_set_self _ _ _
      rw [hsame.workerQueues] at hqueue
      exact Nat.lt_irrefl _ (h _ _ hqueue)
  | false =>
      have hrun : e.registerOperator op [] outputTopics = e.enter op outputTopics := by
        unfold registerOperator
        dsimp only [List.foldl_nil]
        rw [hcpu, if_neg Bool.false_ne_true]
        rfl
      rw [hrun, and_iff_right rfl]
      constructor
      · intro hsame
        constructor
        · rw [← hsame.operators]
          exact Dict.get_set_self _ _ _
        · rw [← hsame.outputRoutes]
          exact Dict.get_set_self _ _ _
      · rintro ⟨hoperator, hroutes⟩
        exact ⟨Dict.set_of_get hoperator, Dict.set_of_get hroutes, rfl, rfl, rfl⟩

/-- Whatever a registration is answered, it leaves the tables as they were iff it registers again what is
    registered. -/
theorem sameTables_register (h : e.Allocated) {op : Nat} {inputTopics outputTopics : List String} :
    SameTables e (Proc.exec (register answers op inputTopics outputTopics) e).2 ↔
      (RegistryCall.register op inputTopics outputTopics answers).Idle e := by
  cases inputTopics with
  | nil =>
      rw [exec_register_nil, sameTables_register_nil h]
      exact (and_iff_right rfl).symm
  | cons topic topics =>
      refine iff_of_false (fun hsame => ?_) fun hidle => absurd hidle.1 (List.cons_ne_nil _ _)
      have hlt : (e.bindings topic).length <
          ((Proc.exec (register answers op (topic :: topics) outputTopics) e).2.bindings topic).length := lt_register
      unfold bindings at hlt
      rw [hsame.topicBindings] at hlt
      exact Nat.lt_irrefl _ hlt

end Register

/-! ## The result

A deregistration takes its operator out of the table first, so one that raises has always changed something; of the
registrations only those are left that write what is there. -/

/-- A deregistration that raises has taken its operator out of the table. -/
theorem operators_deregister_of_error {e : Engine F σ} {onStop : Except PyError PUnit} {oid : String} {err : PyError}
    (h : (Proc.exec (deregister onStop oid) e).1 = .error err) : ∃ op, e.operators.get oid = some op ∧
      (Proc.exec (deregister onStop oid) e).2.operators = e.operators.pop oid := by
  unfold deregister at h ⊢
  rw [Proc.exec_get_bind] at h ⊢
  by_cases hin : e.operators.contains oid = true
  · rw [if_pos hin] at h ⊢
    obtain ⟨op, hop⟩ := Option.isSome_iff_exists.mp hin
    refine ⟨op, hop, ?_⟩
    cases onStop with
    | error err => rfl
    | ok _      => cases h
  · rw [if_neg hin] at h
    cases h

/-- **A call that raises leaves the tables as they were iff it is a registration of what is registered**: of an inline
    operator without input topics, under the same routes. What raises does so after the object and its routes are
    entered, or after the object is removed, so the tables are as before only where the entries were there already. -/
theorem raising_atomic_iff {e : Engine F σ} (h : e.Allocated) (call : RegistryCall) {err : PyError}
    (hraise : (Proc.exec call.run e).1 = .error err) : SameTables e (Proc.exec call.run e).2 ↔ call.Idle e := by
  cases call with
  | register op inputTopics outputTopics answers => exact sameTables_register h
  | deregister oid onStop =>
      obtain ⟨op, hop, hpop⟩ := operators_deregister_of_error hraise
      refine iff_of_false (fun hsame => ?_) id
      have hoperators : e.operators.pop oid = e.operators := hpop.symm.trans hsame.operators
      rw [← hoperators, Dict.get_pop_self] at hop
      cases hop

/-! ## In running engines

The one thing asked of the engine, that the queues in its table exist, holds of every engine that has come about by
its own steps. -/

section Runs

variable {accepts : Nat → Bool} {e e' : Engine F σ}

theorem allocated_started (heap : Nat → OperatorObject F σ) : (started heap).Allocated := by
  intro oid q hq
  cases hq

theorem Allocated.of_sameRegistry (h : e.Allocated) (hsame : SameRegistry e e') : e'.Allocated := by
  intro oid q hq
  rw [hsame.workerQueues] at hq
  rw [hsame.queues]
  exact h oid q hq

theorem Allocated.registerOperator (h : e.Allocated) (op : Nat) (inputTopics outputTopics : List String) :
    (e.registerOperator op inputTopics outputTopics).Allocated := by
  obtain ⟨e₂, -, -, hqueues, hlist, -, heq⟩ := registerOperator_eq e op inputTopics outputTopics
  have h₂ : e₂.Allocated := by
    intro oid q hq
    rw [hqueues] at hq
    rw [hlist]
    exact h oid q hq
  rw [heq]
  split
  · intro oid q hq
    have hq : (e₂.workerQueues.set (e.operatorIdOf op) e₂.queues.length).get oid = some q := hq
    have hlength : (e₂.addWorker (e.operatorIdOf op)).queues.length = e₂.queues.length + 1 := List.length_append
    rw [hlength]
    rw [Dict.get_set] at hq
    split at hq
    · cases hq
      exact Nat.lt_succ_self _
    · exact Nat.lt_succ_of_lt (h₂ oid q hq)
  · exact h₂

theorem Allocated.deregisterOperator (h : e.Allocated) (oid : String) : (e.deregisterOperator oid).Allocated := by
  unfold Engine.deregisterOperator
  split
  · exact fun oid' q hq => h oid' q (Dict.get_of_get_pop hq).2
  · exact h

/-- **In every run** of an engine the queues in the table exist. -/
theorem allocated_of_run {heap : Nat → OperatorObject F σ} {events : List (Event F)}
    (h : (system accepts heap).Run (started heap) events e) : e.Allocated := by
  refine h.invariant (I := Allocated) ?_ (allocated_started heap)
  intro s event s' hs hstep
  cases event with
  | register oid op inputTopics outputTopics =>
      obtain ⟨-, hsome⟩ := Option.ite_none_right_eq_some.mp hstep
      cases hsome
      exact hs.registerOperator op inputTopics outputTopics
  | deregister oid =>
      obtain ⟨-, hsome⟩ := Option.ite_none_right_eq_some.mp hstep
      cases hsome
      exact hs.deregisterOperator oid
  | consume d =>
      cases hstep
      exact hs.of_sameRegistry (SameRegistry.dispatchAll d _ s)
  | work w event => exact hs.of_sameRegistry (SameRegistry.workerStep hstep)

end Runs

/-! ## One operator

The harmless case, and a run to the other: the consumer of a topic does not start, and the registration that is then
repeated binds the operator a second time. -/

/-- `on_start` raises. -/
def onStartRaises : RegisterAnswers := ⟨fun _ => .ok ⟨⟩, .error ⟨.runtimeError, "no connection"⟩⟩

/-- The broker cannot be reached. -/
def brokerAway : RegisterAnswers := ⟨fun _ => .error ⟨.other, "KafkaConnectionError"⟩, .ok ⟨⟩⟩

/-- An engine with nothing registered, over one inline operator. -/
def oneInline : Engine ℚ Nat := started (fun _ => ⟨BaseOperator.counting "op", false, 0⟩)

theorem raising_atomic_iff_again :
    SameTables (oneInline.registerOperator 0 [] ["out"])
      (Proc.exec (register onStartRaises 0 [] ["out"]) (oneInline.registerOperator 0 [] ["out"])).2 := by
  have hrun : (system (fun _ => true) oneInline.heap).Run oneInline [.register "op" 0 [] ["out"]]
      (oneInline.registerOperator 0 [] ["out"]) := Lts.Run.head rfl .refl
  exact (raising_atomic_iff (allocated_of_run hrun) (.register 0 [] ["out"] onStartRaises) rfl).mpr
    ⟨rfl, rfl, rfl, rfl⟩

/-- The consumer of the one topic does not start: the operator stays registered and bound, and is bound twice once
    the registration is tried again. -/
theorem bound_twice :
    (Proc.exec (register brokerAway 0 ["raw"] ["out"]) oneInline).1 =
      .error ⟨.other, "KafkaConnectionError"⟩ ∧
    ¬ SameTables oneInline (Proc.exec (register brokerAway 0 ["raw"] ["out"]) oneInline).2 ∧
    ((Proc.exec (register brokerAway 0 ["raw"] ["out"]) oneInline).2.registerOperator 0 ["raw"] ["out"]).bindings
      "raw" = ["op", "op"] := by
  refine ⟨rfl, fun hsame => ?_, rfl⟩
  have hbound : (Proc.exec (register brokerAway 0 ["raw"] ["out"]) oneInline).2.bindings "raw" = ["op"] := rfl
  unfold bindings at hbound
  rw [hsame.topicBindings] at hbound
  cases hbound

end Engine
end Hea
end HybridStream
