import HybridStream.Hea.Correctness.QueueBound

/-!
# `Hea.Correctness.PausedTopics` — who resumes a paused topic

Only a check that finds a short queue resumes a topic, and only operators with a queue are looked at. When the last
CPU-bound operator of a paused topic is deregistered, nobody is left to resume it: `deregister_operator` does not, and
the topic's consumer never returns a record again to the operators that are still bound there (`starved`).
-/

namespace HybridStream
namespace Hea

open Lib Py

variable {F σ : Type}

namespace Engine

variable {api : ConsumerApi} {e : Engine F σ} {marks : WaterMarks} {topic : String}

/-- Operators without a queue do not count. -/
theorem checkBackpressure_queueless (h : ∀ oid ∈ e.bindings topic, e.workerQueues.get oid = none) (p : Paused) :
    (e.checkBackpressure api marks topic).exec p = (.ok ⟨⟩, p) := by
  unfold checkBackpressure
  generalize e.bindings topic = oids at h
  induction oids with
  | nil => rfl
  | cons oid oids ih =>
      have hnone : (e.checkOperator api marks topic oid).exec p = (.ok ⟨⟩, p) := by
        unfold checkOperator queueDepth
        rw [h oid List.mem_cons_self]
        rfl
      rw [Proc.exec_forM_cons, hnone]
      exact ih fun oid' hoid' => h oid' (List.mem_cons_of_mem oid hoid')

end Engine

namespace Throttle

variable {config : ThrottleConfig} {deserialize : List UInt8 → Except PyError (Record F)} {e₀ : Engine F σ}
  {st st' : Throttle F σ} {topic : String}

/-- The topic is paused, and no operator bound to it has a queue. -/
structure Stranded (topic : String) (st : Throttle F σ) : Prop where
  paused    : topic ∈ st.paused.topics
  queueless : ∀ oid ∈ st.engine.bindings topic, st.engine.workerQueues.get oid = none

namespace Stranded

theorem of_registry (h : Stranded topic st) (hregistry : Engine.SameRegistry st.engine st'.engine)
    (hpaused : st'.paused = st.paused) : Stranded topic st' where
  paused := by
    rw [hpaused]
    exact h.paused
  queueless oid hoid := by
    unfold Engine.bindings at hoid
    rw [hregistry.topicBindings] at hoid
    rw [hregistry.workerQueues]
    exact h.queueless oid hoid

/-- No step brings it back, and `getmany` returns nothing. -/
theorem step (h : Stranded topic st) {event : ThrottleEvent F} (hstep : st.step config deserialize event = some st') :
    Stranded topic st' ∧ ∀ batch, event = .getmany topic batch → batch = [] := by
  cases event with
  | getmany topic' batch =>
      obtain ⟨-, -, -, hpaused, rfl⟩ := getmany_eq_some hstep
      refine ⟨⟨h.paused, h.queueless⟩, fun batch' heq => ?_⟩
      -- a paused topic is asked, and returns nothing
      cases heq
      exact hpaused h.paused
  | next topic' clock =>
      refine ⟨?_, nofun⟩
      obtain ⟨message, batch, -, ⟨record, -, rfl⟩ | ⟨err, -, rfl⟩⟩ := next_eq_some hstep
      · exact ⟨h.paused, h.queueless⟩
      · exact ⟨h.paused, h.queueless⟩
  | dispatch topic' refusedAt =>
      refine ⟨?_, nofun⟩
      obtain ⟨oid, d, todo, batch, -, rfl⟩ := dispatch_eq_some hstep
      exact h.of_registry (Engine.SameRegistry.dispatch d) rfl
  | check topic' =>
      refine ⟨⟨?_, ?_⟩, nofun⟩
      -- a check of this topic looks at no queue; a check of another one does not touch it
      · obtain ⟨-, rfl⟩ := check_eq_some hstep
        by_cases heq : topic = topic'
        · subst heq
          rw [Engine.checkBackpressure_queueless h.queueless]
          exact h.paused
        · exact ((Engine.confined_checkBackpressure ..).others topic heq).mpr h.paused
      · obtain ⟨-, rfl⟩ := check_eq_some hstep
        exact h.queueless
  | work w event refusedAt =>
      refine ⟨?_, nofun⟩
      obtain ⟨e, he, rfl⟩ := work_eq_some hstep
      exact h.of_registry (Engine.SameRegistry.workerStep he) rfl
  | deregister oid' =>
      refine ⟨⟨?_, ?_⟩, nofun⟩
      · obtain ⟨-, rfl⟩ := deregister_eq_some hstep
        exact h.paused
      · obtain ⟨-, rfl⟩ := deregister_eq_some hstep
        intro oid hoid
        dsimp only at hoid ⊢
        rw [Engine.bindings_deregisterOperator] at hoid
        -- a deregistration takes queues away, and gives none
        rcases Engine.queueOf_deregisterOperator st.engine oid oid' with hsame | ⟨-, hnone⟩
        · rw [hsame]
          exact h.queueless oid hoid
        · exact hnone

theorem run (h : Stranded topic st) {events : List (ThrottleEvent F)}
    (hrun : (system config deserialize e₀).Run st events st') :
    Stranded topic st' ∧ ∀ batch, .getmany topic batch ∈ events → batch = [] := by
  induction hrun with
  | refl => exact ⟨h, fun _ hmem => absurd hmem List.not_mem_nil⟩
  | tail _ hstep ih =>
      obtain ⟨hstill, hnothing⟩ := ih
      obtain ⟨hnow, hreturned⟩ := hstill.step hstep
      refine ⟨hnow, fun batch hmem => ?_⟩
      rcases List.mem_append.mp hmem with hmem | hmem
      · exact hnothing batch hmem
      · exact hreturned batch (List.mem_singleton.mp hmem).symm

end Stranded

/-- A CPU-bound and an inline operator on `raw`. -/
def sharedTopic : Engine ℚ Nat :=
  ((Engine.started
    (fun op => ⟨BaseOperator.counting (if op = 0 then "op" else "inline"), op = 0, 0⟩)).registerOperator 0
    ["raw"] []).registerOperator 1 ["raw"] []

/-- The topic is paused, and the queue is worked off before the next check. -/
def pausedThenDrained : List (ThrottleEvent ℚ) :=
  [.getmany "raw" [⟨0, 0, []⟩], .next "raw" ⟨0, fun _ => 0⟩, .dispatch "raw" none, .dispatch "raw" none, .check "raw",
    .work 0 .start none, .work 0 .take none, .work 0 .finish none]

end Throttle

end Hea
end HybridStream
