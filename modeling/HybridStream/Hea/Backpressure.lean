import HybridStream.Hea.Engine
import HybridStream.Lib.Latch
import Mathlib.Data.Finset.Basic

/-!
# `Hea.Backpressure` — pausing and resuming the consumers

`OperatorEngine._check_backpressure`. After each batch a topic's consumer is paused if the queue of an operator
bound to the topic is too long, and resumed if one is short. The loop turns to the operators one by one, with
one flag for the topic: to the flag, the queue depths are the readings of a latch (`flag_checkBackpressure`).

The consumer is a third-party object. Its `pause` and `resume` take the partitions as separate arguments and are
given all of them as one set, so whether such a call returns is a parameter (`ConsumerApi`). An exception leaves
the check where it is, with the flag as it was and the operators behind unlooked at: the move of a latch that fails.
-/

namespace HybridStream
namespace Hea

open Lib Py

variable {F σ : Type}

/-- `backpressure_high_water` and `backpressure_low_water` of `HEAConfig`. -/
structure WaterMarks where
  high : Int
  low  : Int

/-- The defaults of `HEAConfig`. -/
def WaterMarks.default : WaterMarks := ⟨6, 2⟩

namespace WaterMarks

/-- A queue is over the high water mark. -/
def Over (marks : WaterMarks) : Option Nat → Prop
  | some depth => marks.high < depth
  | none       => False

/-- A queue is below the low water mark. -/
def Below (marks : WaterMarks) : Option Nat → Prop
  | some depth => depth < marks.low
  | none       => False

instance (marks : WaterMarks) : DecidablePred marks.Over
  | some depth => Int.decLt marks.high depth
  | none       => instDecidableFalse

instance (marks : WaterMarks) : DecidablePred marks.Below
  | some depth => Int.decLt depth marks.low
  | none       => instDecidableFalse

theorem Over.not_below {marks : WaterMarks} (hmarks : marks.low ≤ marks.high) {depth : Option Nat}
    (h : marks.Over depth) : ¬ marks.Below depth := by
  cases depth with
  | none => exact id
  | some depth =>
      unfold Over at h
      unfold Below
      omega

end WaterMarks

/-- What the consumer of each topic answers when `pause` and `resume` are called with `assignment()`, the set of
    its partitions, as their one argument. -/
structure ConsumerApi where
  pause  : String → Except PyError Unit
  resume : String → Except PyError Unit

/-- Consumers that take the set, as those of the tests do. -/
def ConsumerApi.accepting : ConsumerApi := ⟨fun _ => .ok (), fun _ => .ok ()⟩

/-- Consumers that want each partition as an argument of its own, and find a set in its place. -/
def ConsumerApi.perPartition : ConsumerApi :=
  let refusal : Except PyError Unit := .error ⟨.typeError, "partitions must be TopicPartition namedtuples"⟩
  ⟨fun _ => refusal, fun _ => refusal⟩

/-- A call of a topic's consumer, for all the partitions assigned to it. -/
inductive ConsumerCall where
  | pause (topic : String)
  | resume (topic : String)
  deriving DecidableEq

/-- `_paused_topics`, and the calls of the consumers that have returned. -/
structure Paused where
  topics : Finset String
  calls  : List ConsumerCall

/-- The topics whose consumers are paused after a list of calls. -/
def pausedBy (calls : List ConsumerCall) : Finset String :=
  calls.foldl (fun topics call => match call with
    | .pause topic  => insert topic topics
    | .resume topic => topics.erase topic) ∅

/-- The engine's set is what the consumers were told. -/
def Paused.Agrees (p : Paused) : Prop := p.topics = pausedBy p.calls

namespace Engine

/-- `q.qsize()` of an operator's queue; `none` if it has no queue. -/
def queueDepth (e : Engine F σ) (oid : String) : Option Nat :=
  (e.workerQueues.get oid).map (fun q => (e.queues.getD q []).length)

/-- `self._consumers[topic]`, and the answer of its method. -/
def consumerCall (e : Engine F σ) (method : String → Except PyError Unit) (topic : String) : Except PyError Unit :=
  if topic ∈ e.consumers then method topic else .error ⟨.keyError, s!"'{topic}'"⟩

/-- The topic's consumer is paused. -/
def pause (api : ConsumerApi) (e : Engine F σ) (topic : String) : Proc PyError Paused PUnit := do
  Proc.lift (e.consumerCall api.pause topic)
  modify (fun p => ⟨insert topic p.topics, p.calls ++ [.pause topic]⟩)

/-- The topic's consumer is resumed. -/
def resume (api : ConsumerApi) (e : Engine F σ) (topic : String) : Proc PyError Paused PUnit := do
  Proc.lift (e.consumerCall api.resume topic)
  modify (fun p => ⟨p.topics.erase topic, p.calls ++ [.resume topic]⟩)

/-- One turn of the loop of `_check_backpressure`. -/
def checkOperator (api : ConsumerApi) (e : Engine F σ) (marks : WaterMarks) (topic oid : String) :
    Proc PyError Paused PUnit :=
  match e.queueDepth oid with
  | none       => pure ⟨⟩
  | some depth => do
      let p ← get
      if marks.high < depth ∧ topic ∉ p.topics then e.pause api topic
      else if depth < marks.low ∧ topic ∈ p.topics then e.resume api topic
      else pure ⟨⟩

/-- `_check_backpressure` -/
def checkBackpressure (api : ConsumerApi) (e : Engine F σ) (marks : WaterMarks) (topic : String) :
    Proc PyError Paused PUnit :=
  (e.bindings topic).forM (e.checkOperator api marks topic)

/-! ## What a check does

A check touches its own topic only. What it does to the topic's flag is told by the depths of the queues and by
whether the two calls return. -/

/-- The queue depths of the operators bound to a topic, in the order of the loop. -/
def depths (e : Engine F σ) (topic : String) : List (Option Nat) := (e.bindings topic).map e.queueDepth

/-- `pause` returns when the check calls it for the topic. -/
def pauses (api : ConsumerApi) (e : Engine F σ) (topic : String) : Bool := (e.consumerCall api.pause topic).isOk

/-- `resume` returns when the check calls it for the topic. -/
def resumes (api : ConsumerApi) (e : Engine F σ) (topic : String) : Bool := (e.consumerCall api.resume topic).isOk

variable {api : ConsumerApi} {e : Engine F σ} {marks : WaterMarks} {topic : String}

/-- A topic with a consumer can be resumed where the consumer's call returns. -/
theorem resumes_of_ok (htopic : topic ∈ e.consumers) (h : api.resume topic = .ok ()) : e.resumes api topic = true := by
  unfold resumes consumerCall
  rw [if_pos htopic, h]
  rfl

theorem pauses_congr {e' : Engine F σ} (h : e'.consumers = e.consumers) (topic : String) :
    e'.pauses api topic = e.pauses api topic := by
  unfold pauses consumerCall
  rw [h]

theorem resumes_congr {e' : Engine F σ} (h : e'.consumers = e.consumers) (topic : String) :
    e'.resumes api topic = e.resumes api topic := by
  unfold resumes consumerCall
  rw [h]

/-- The other topics are as they were, and the consumers have been told what the set says. -/
structure Confined (topic : String) (p p' : Paused) : Prop where
  others : ∀ topic' ≠ topic, topic' ∈ p'.topics ↔ topic' ∈ p.topics
  agrees : p.Agrees → p'.Agrees

theorem Confined.refl (topic : String) (p : Paused) : Confined topic p p := ⟨fun _ _ => Iff.rfl, id⟩

theorem Confined.trans {p p' p'' : Paused} (h : Confined topic p p') (h' : Confined topic p' p'') :
    Confined topic p p'' :=
  ⟨fun topic' hne => (h'.others topic' hne).trans (h.others topic' hne), fun hagrees => h'.agrees (h.agrees hagrees)⟩

/-- What `pause` does: the topic is in the set if the call returns, and nothing has changed if it raises. -/
theorem exec_pause (api : ConsumerApi) (e : Engine F σ) (topic : String) (p : Paused) :
    (e.pauses api topic = true → ∃ p', (e.pause api topic).exec p = (.ok ⟨⟩, p') ∧
      topic ∈ p'.topics ∧ Confined topic p p') ∧
    (e.pauses api topic = false → ∃ err, (e.pause api topic).exec p = (.error err, p)) := by
  unfold pauses pause
  cases e.consumerCall api.pause topic with
  | error err => exact ⟨nofun, fun _ => ⟨err, rfl⟩⟩
  | ok _ =>
      refine ⟨fun _ => ⟨_, rfl, Finset.mem_insert_self .., fun topic' hne => by simp [hne], fun hagrees => ?_⟩, nofun⟩
      unfold Paused.Agrees pausedBy at hagrees ⊢
      rw [List.foldl_append, ← hagrees]
      rfl

/-- What `resume` does, likewise. -/
theorem exec_resume (api : ConsumerApi) (e : Engine F σ) (topic : String) (p : Paused) :
    (e.resumes api topic = true → ∃ p', (e.resume api topic).exec p = (.ok ⟨⟩, p') ∧
      topic ∉ p'.topics ∧ Confined topic p p') ∧
    (e.resumes api topic = false → ∃ err, (e.resume api topic).exec p = (.error err, p)) := by
  unfold resumes resume
  cases e.consumerCall api.resume topic with
  | error err => exact ⟨nofun, fun _ => ⟨err, rfl⟩⟩
  | ok _ =>
      refine ⟨fun _ => ⟨_, rfl, Finset.notMem_erase topic p.topics, fun topic' hne => by simp [hne],
        fun hagrees => ?_⟩, nofun⟩
      unfold Paused.Agrees pausedBy at hagrees ⊢
      rw [List.foldl_append, ← hagrees]
      rfl

/-- One operator: the depth of its queue asks for a pause, for a resume or for nothing. -/
theorem exec_checkOperator (p : Paused) (oid : String) :
    (e.checkOperator api marks topic oid).exec p =
      if marks.Over (e.queueDepth oid) ∧ topic ∉ p.topics then (e.pause api topic).exec p
      else if marks.Below (e.queueDepth oid) ∧ topic ∈ p.topics then (e.resume api topic).exec p
      else (.ok ⟨⟩, p) := by
  unfold checkOperator
  cases e.queueDepth oid with
  | none => rw [if_neg (fun h => h.1), if_neg (fun h => h.1)]; rfl
  | some depth =>
      rw [Proc.exec_get_bind]
      show _ = if marks.high < depth ∧ topic ∉ p.topics then _
        else if depth < marks.low ∧ topic ∈ p.topics then _ else _
      split
      · rfl
      · split <;> rfl

/-- The loop over any of the operators: by induction over them. -/
theorem flag_forM (oids : List String) (p : Paused) :
    decide (topic ∈ ((oids.forM (e.checkOperator api marks topic)).exec p).2.topics) =
        latch marks.Over marks.Below (e.pauses api topic) (e.resumes api topic) (decide (topic ∈ p.topics))
          (oids.map e.queueDepth) ∧
      Confined topic p ((oids.forM (e.checkOperator api marks topic)).exec p).2 := by
  induction oids generalizing p with
  | nil => exact ⟨rfl, .refl topic p⟩
  | cons oid oids ih =>
      rw [Proc.exec_forM_cons, exec_checkOperator, List.map_cons, latch]
      simp only [decide_eq_false_iff_not, decide_eq_true_eq]
      -- up, down, or neither: one step of the latch, by the depth of the first operator
      by_cases hover : marks.Over (e.queueDepth oid) ∧ topic ∉ p.topics
      · rw [if_pos hover, if_pos hover]
        obtain ⟨hok, herror⟩ := exec_pause api e topic p
        cases hpauses : e.pauses api topic with
        | false =>
            -- the call raises, which ends the loop and leaves the topics as they were
            obtain ⟨err, hexec⟩ := herror hpauses
            rw [hexec]
            exact ⟨rfl, .refl topic p⟩
        | true =>
            obtain ⟨p', hexec, hmem, hconfined⟩ := hok hpauses
            rw [hexec]
            have hrest := ih p'
            rw [decide_eq_true hmem, hpauses] at hrest
            exact ⟨hrest.1, hconfined.trans hrest.2⟩
      · rw [if_neg hover, if_neg hover]
        by_cases hbelow : marks.Below (e.queueDepth oid) ∧ topic ∈ p.topics
        · rw [if_pos hbelow, if_pos hbelow]
          obtain ⟨hok, herror⟩ := exec_resume api e topic p
          cases hresumes : e.resumes api topic with
          | false =>
              obtain ⟨err, hexec⟩ := herror hresumes
              rw [hexec]
              exact ⟨rfl, .refl topic p⟩
          | true =>
              obtain ⟨p', hexec, hmem, hconfined⟩ := hok hresumes
              rw [hexec]
              have hrest := ih p'
              rw [decide_eq_false hmem, hresumes] at hrest
              exact ⟨hrest.1, hconfined.trans hrest.2⟩
        · rw [if_neg hbelow, if_neg hbelow]
          exact ih p

/-- **A check is a latch** on the depths of the queues, whose moves work as far as the consumer's calls return. -/
theorem flag_checkBackpressure (api : ConsumerApi) (e : Engine F σ) (marks : WaterMarks) (topic : String) (p : Paused) :
    decide (topic ∈ ((e.checkBackpressure api marks topic).exec p).2.topics) =
      latch marks.Over marks.Below (e.pauses api topic) (e.resumes api topic) (decide (topic ∈ p.topics))
        (e.depths topic) :=
  (flag_forM (e.bindings topic) p).1

/-- It touches no other topic, and keeps the set what the consumers were told. -/
theorem confined_checkBackpressure (api : ConsumerApi) (e : Engine F σ) (marks : WaterMarks) (topic : String)
    (p : Paused) : Confined topic p ((e.checkBackpressure api marks topic).exec p).2 :=
  (flag_forM (e.bindings topic) p).2

end Engine

end Hea
end HybridStream
