import HybridStream.Hea.Engine

/-!
# `Hea.Registration` — registrations and deregistrations that may raise

`register_operator`, `deregister_operator` and `_start_consumer` with what they call: the start of a consumer,
`on_start` and `on_stop` may raise. The tables are written one after the other, and what has been written before a
raise stays written (`Lib.Proc`); `on_start` and `on_stop` write no table of the engine. Where nothing raises these are
the calls of `Hea.Engine` (`exec_register`, `exec_deregister`).
-/

namespace HybridStream
namespace Hea
namespace Engine

open Lib Py

variable {F σ : Type}

/-- What a registration is answered: by the start of a consumer, for each topic, and by `on_start`. -/
structure RegisterAnswers where
  startConsumer : String → Except PyError PUnit
  onStart       : Except PyError PUnit

/-- `_start_consumer`: the consumer is entered once it has started. -/
def startConsumer (answers : RegisterAnswers) (topic : String) : Proc PyError (Engine F σ) PUnit := do
  .lift (answers.startConsumer topic)
  modify (fun e => { e with consumers := e.consumers ++ [topic] })

/-- One turn of the loop over `input_topics`. -/
def registerTopic (answers : RegisterAnswers) (oid topic : String) : Proc PyError (Engine F σ) PUnit := do
  modify (fun e => { e with topicBindings := e.topicBindings.set topic (e.bindings topic ++ [oid]) })
  let e ← get
  if topic ∈ e.consumers then pure ⟨⟩ else startConsumer answers topic

/-- The loop over `input_topics`. -/
def registerTopics (answers : RegisterAnswers) (oid : String) : List String → Proc PyError (Engine F σ) PUnit
  | []              => pure ⟨⟩
  | topic :: topics => do
      registerTopic answers oid topic
      registerTopics answers oid topics

/-- `register_operator` -/
def register (answers : RegisterAnswers) (op : Nat) (inputTopics outputTopics : List String) :
    Proc PyError (Engine F σ) PUnit := do
  let e ← get
  let oid := e.operatorIdOf op
  modify (fun e => { e with
    operators    := e.operators.set oid op
    outputRoutes := e.outputRoutes.set oid outputTopics })
  registerTopics answers oid inputTopics
  modify (fun e => if (e.heap op).cpuBound then e.addWorker oid else e)
  .lift answers.onStart

/-- `deregister_operator`; its `q.join()` writes nothing. -/
def deregister (onStop : Except PyError PUnit) (oid : String) : Proc PyError (Engine F σ) PUnit := do
  let e ← get
  if e.operators.contains oid then do
    modify (fun e => { e with operators := e.operators.pop oid })
    .lift onStop
    modify (fun e => { e with workerQueues := e.workerQueues.pop oid, outputRoutes := e.outputRoutes.pop oid })
  else pure ⟨⟩

/-- A call that changes the registrations, with the answers it gets. -/
inductive RegistryCall where
  | register (op : Nat) (inputTopics outputTopics : List String) (answers : RegisterAnswers)
  | deregister (operatorId : String) (onStop : Except PyError PUnit)

/-- The call, carried out. -/
def RegistryCall.run : RegistryCall → Proc PyError (Engine F σ) PUnit
  | .register op inputTopics outputTopics answers => Engine.register answers op inputTopics outputTopics
  | .deregister oid onStop                        => Engine.deregister onStop oid

/-! ## Calls that do not raise

The connection with the engine, where a registration is one step: with answers that do not raise, the statements of
the method come to the same. -/

section Returning

variable {answers : RegisterAnswers} {e : Engine F σ} {oid : String}

theorem exec_registerTopic {topic : String} (h : answers.startConsumer topic = .ok ⟨⟩) :
    Proc.exec (registerTopic answers oid topic) e = (.ok ⟨⟩, e.bindTopic oid topic) := by
  unfold registerTopic startConsumer bindTopic
  rw [Proc.exec_modify_bind, Proc.exec_get_bind]
  dsimp only
  by_cases hmem : topic ∈ e.consumers
  · rw [if_pos hmem, if_pos hmem]
    rfl
  · rw [if_neg hmem, if_neg hmem, h]
    rfl

theorem exec_registerTopics {topics : List String} (h : ∀ topic, answers.startConsumer topic = .ok ⟨⟩) :
    Proc.exec (registerTopics answers oid topics) e = (.ok ⟨⟩, topics.foldl (bindTopic oid) e) := by
  induction topics generalizing e with
  | nil => rfl
  | cons topic topics ih =>
      unfold registerTopics
      rw [Proc.exec_bind_ok (exec_registerTopic (h topic)), ih]
      rfl

/-- A registration in which nothing raises. -/
theorem exec_register {op : Nat} {inputTopics outputTopics : List String}
    (hstart : ∀ topic, answers.startConsumer topic = .ok ⟨⟩) (honStart : answers.onStart = .ok ⟨⟩) :
    Proc.exec (register answers op inputTopics outputTopics) e =
      (.ok ⟨⟩, e.registerOperator op inputTopics outputTopics) := by
  unfold register registerOperator
  rw [Proc.exec_get_bind]
  dsimp only
  obtain ⟨bound, consumers, hfold⟩ := foldl_bindTopic (e.operatorIdOf op) inputTopics
    { e with
      operators    := e.operators.set (e.operatorIdOf op) op
      outputRoutes := e.outputRoutes.set (e.operatorIdOf op) outputTopics }
  rw [Proc.exec_modify_bind, Proc.exec_bind_ok (exec_registerTopics hstart), honStart, hfold]
  rfl

/-- A deregistration in which nothing raises. -/
theorem exec_deregister : Proc.exec (deregister (.ok ⟨⟩) oid) e = (.ok ⟨⟩, e.deregisterOperator oid) := by
  unfold deregister deregisterOperator
  rw [Proc.exec_get_bind]
  split <;> rfl

end Returning

end Engine
end Hea
end HybridStream
