import HybridStream.Hea.Correctness.QueueBound

/-!
# `Hea.Correctness.UnboundedQueues` — what the bound on a queue rests on

Two things stand between a filled queue and a bound: that the check is reached, and that the consumer does what the
check asks for. If the consumer's `pause` raises, the topic stays open, and the loop goes on fetching: a queue is
bounded exactly if the topics of its operator can be paused (`queue_bounded_iff`). And a message that cannot be read
takes its loop past the check, whatever the consumer would answer (`unchecked_queue_grows`). Both are shown by a round
that can be repeated: a batch is fetched, its record goes into the queue, and the loop polls the open topic again.
-/

namespace HybridStream
namespace Hea

open Lib Py

variable {F σ : Type}

namespace Throttle

variable {config : ThrottleConfig} {deserialize : List UInt8 → Except PyError (Record F)} {e₀ : Engine F σ}
  {st st' : Throttle F σ} {oid topic : String} {q : Nat}

/-! ## One round of a loop

The rounds are runs of the system restricted to any guard that lets the loop's own steps pass, so that the same round
serves a run without unreadable messages and a run without checks. -/

/-- The loop of a topic stands at `loop`, the topic is not paused, and the engine is as it was registered. -/
structure Standing (e₀ : Engine F σ) (topic : String) (loop : Loop F) (st : Throttle F σ) : Prop where
  loop      : st.loops topic = loop
  running   : topic ∉ st.paused.topics
  registry  : Engine.SameRegistry e₀ st.engine
  consumers : st.engine.consumers = e₀.consumers

theorem standing_start (e₀ : Engine F σ) (topic : String) : Standing e₀ topic .polling (start e₀) :=
  ⟨rfl, Finset.notMem_empty topic, .refl e₀, rfl⟩

theorem Standing.withLoop {loop : Loop F} (h : Standing e₀ topic loop st) (loop' : Loop F) :
    Standing e₀ topic loop' (st.withLoop topic loop') :=
  ⟨Function.update_self .., h.running, h.registry, h.consumers⟩

theorem Standing.bindings {loop : Loop F} (h : Standing e₀ topic loop st) (topic' : String) :
    st.engine.bindings topic' = e₀.bindings topic' := by
  unfold Engine.bindings
  rw [h.registry.topicBindings]

section Round

variable {G : Throttle F σ → ThrottleEvent F → Prop}

/-- A record is dispatched to the operators left, and the queue gets what it is due. -/
theorem run_dispatches (config : ThrottleConfig) (deserialize : List UInt8 → Except PyError (Record F))
    (hdispatch : ∀ st, G st (.dispatch topic none)) (hq : e₀.HasQueue oid q)
    {todo : List (String × Delivery F)} {batch : List Message} (h : Standing e₀ topic (.handling todo batch) st) :
    ∃ events st', ((system config deserialize e₀).restrict G).Run st events st' ∧
      Standing e₀ topic (.handling [] batch) st' ∧
      st.engine.depth q + (todo.map Prod.fst).count oid ≤ st'.engine.depth q := by
  induction todo generalizing st with
  | nil => exact ⟨[], st, .refl, h, le_rfl⟩
  | cons x todo ih =>
      obtain ⟨oid', d⟩ := x
      let st₁ : Throttle F σ := { st.withLoop topic (.handling todo batch) with
        engine := (st.engine.dispatch (acceptsBut none) oid' d).1 }
      have hstep : step config deserialize st (.dispatch topic none) = some st₁ := by
        unfold step
        simp only [h.loop]
        rfl
      have hregistry : Engine.SameRegistry st.engine st₁.engine := Engine.SameRegistry.dispatch d
      have h₁ : Standing e₀ topic (.handling todo batch) st₁ :=
        ⟨Function.update_self .., h.running, h.registry.trans hregistry,
          (Engine.consumers_dispatch d).trans h.consumers⟩
      obtain ⟨events, st', hrun, h', hdepth⟩ := ih h₁
      refine ⟨_, st', .head ⟨hstep, hdispatch st⟩ hrun, h', ?_⟩
      have hgets : st.engine.depth q + (if oid' = oid then 1 else 0) ≤ st₁.engine.depth q :=
        Engine.le_depth_dispatch (hq.of_sameRegistry h.registry) oid' d
      rw [List.map_cons, List.count_cons]
      simp only [beq_iff_eq]
      omega

/-- A loop that polls an open topic fetches a batch and works through its first, readable message. -/
theorem run_fetches (G : Throttle F σ → ThrottleEvent F → Prop) (hdispatch : ∀ st, G st (.dispatch topic none))
    (hq : e₀.HasQueue oid q) (h : Standing e₀ topic .polling st) (hconsumer : topic ∈ e₀.consumers)
    (message : Message) (batch : List Message) (hsize : (message :: batch).length ≤ config.batchSize)
    {record : Record F} (clock : Clock F)
    (hreads : deserialize message.value = .ok record) (hgetmany : G st (.getmany topic (message :: batch)))
    (hnext : G (st.withLoop topic (.handling [] (message :: batch))) (.next topic clock)) :
    ∃ events st', ((system config deserialize e₀).restrict G).Run st events st' ∧
      Standing e₀ topic (.handling [] batch) st' ∧ st.engine.depth q + e₀.share oid topic ≤ st'.engine.depth q := by
  let d : Delivery F := ⟨⟨topic, message.partition, message.offset⟩, clock, record⟩
  let todo := (st.engine.bindings topic).map (fun oid => (oid, d))
  let st₁ := st.withLoop topic (.handling [] (message :: batch))
  let st₂ := st₁.withLoop topic (.handling todo batch)
  have h₁ : Standing e₀ topic (.handling [] (message :: batch)) st₁ := h.withLoop _
  have hfetch : step config deserialize st (.getmany topic (message :: batch)) = some st₁ := by
    unfold step
    simp only [h.loop]
    rw [if_pos ⟨h.consumers ▸ hconsumer, hsize, fun hpaused => absurd hpaused h.running⟩]
  have hread : step config deserialize st₁ (.next topic clock) = some st₂ := by
    unfold step
    simp only [h₁.loop, hreads]
    rfl
  obtain ⟨events, st₃, hrun, h₃, hdepth⟩ :=
    run_dispatches config deserialize hdispatch hq (h₁.withLoop (.handling todo batch))
  refine ⟨_, st₃, (Lts.Run.head ⟨hfetch, hgetmany⟩ (.head ⟨hread, hnext⟩ hrun)), h₃, ?_⟩
  have hshare : (todo.map Prod.fst).count oid = e₀.share oid topic := by
    rw [Engine.share, ← h.bindings]
    simp [todo, Function.comp_def]
  rw [← hshare]
  exact hdepth

end Round

/-! ## A topic that cannot be paused

The check is made and raises; nothing has changed, and the loop fetches the next batch. -/

/-- A check leaves a topic open whose consumer's `pause` raises. -/
theorem check_open {loop : Loop F} (h : Standing e₀ topic loop st) (hpauses : e₀.pauses config.api topic = false) :
    topic ∉ ((st.engine.checkBackpressure config.api config.marks topic).exec st.paused).2.topics := by
  have hflag := Engine.flag_checkBackpressure config.api st.engine config.marks topic st.paused
  rw [Engine.pauses_congr h.consumers, hpauses, decide_eq_false h.running] at hflag
  apply of_decide_eq_false
  rw [hflag]
  clear hflag
  generalize st.engine.depths topic = depths
  -- a latch that cannot be set stays down
  induction depths with
  | nil => rfl
  | cons depth depths ih =>
      unfold latch
      split
      · rfl
      · rw [if_neg (fun h => absurd h.2 Bool.false_ne_true)]
        exact ih

theorem unpaused_queue_grows (hq : e₀.HasQueue oid q) (hbound : oid ∈ e₀.bindings topic)
    (hconsumer : topic ∈ e₀.consumers) (hpauses : e₀.pauses config.api topic = false)
    (hbatch : 1 ≤ config.batchSize) {value : List UInt8} {record : Record F} (hreads : deserialize value = .ok record)
    (clock : Clock F) (n : Nat) :
    ∃ st, ((system config deserialize e₀).restrict (Readable deserialize)).Reachable st ∧ n ≤ st.engine.depth q := by
  refine Lts.exists_reachable_ge (I := Standing e₀ topic .polling) ⟨start e₀, rfl, standing_start e₀ topic⟩ ?_ n
  intro st h
  have hshare : 0 < e₀.share oid topic := List.count_pos_iff.mpr hbound
  have hreadable : Readable deserialize (st.withLoop topic (.handling [] [⟨0, 0, value⟩])) (.next topic clock) := by
    intro message batch hloop
    rw [(h.withLoop _).loop] at hloop
    cases hloop
    rw [hreads]
    rfl
  obtain ⟨events, st₁, hrun, h₁, hdepth⟩ := run_fetches (Readable deserialize) (fun _ => trivial) hq h hconsumer
    ⟨0, 0, value⟩ [] hbatch clock hreads trivial hreadable
  let st₂ : Throttle F σ := { st₁.withLoop topic .polling with
    paused := ((st₁.engine.checkBackpressure config.api config.marks topic).exec st₁.paused).2 }
  have hcheck : step config deserialize st₁ (.check topic) = some st₂ := by
    unfold step
    simp only [h₁.loop]
    rfl
  have h₂ : Standing e₀ topic .polling st₂ :=
    ⟨Function.update_self .., check_open h₁ hpauses, h₁.registry, h₁.consumers⟩
  refine ⟨_, st₂, hrun.tail ⟨hcheck, trivial⟩, h₂, ?_⟩
  show st.engine.depth q < st₁.engine.depth q
  omega

/-- One operator on `raw`. -/
def countingQueue : Engine ℚ Nat :=
  (Engine.started (fun _ => ⟨BaseOperator.counting "op", true, 0⟩)).registerOperator 0 ["raw"] []

theorem registered_countingQueue : ((Engine.system (fun _ => true)
    (fun _ => ⟨BaseOperator.counting "op", true, 0⟩)).restrict Engine.Registers).Reachable countingQueue := by
  have hstep : (Engine.started (fun _ => ⟨BaseOperator.counting "op", true, 0⟩) : Engine ℚ Nat).step
      (fun _ => true) (.register "op" 0 ["raw"] []) = some countingQueue := rfl
  exact (Lts.Reachable.of_init rfl).tail ⟨hstep, trivial⟩

theorem bindings_countingQueue (topic : String) :
    countingQueue.bindings topic = if topic = "raw" then ["op"] else [] := by
  show Dict.getD (Dict.set _ _ _) topic [] = _
  rw [Dict.getD_set]
  split <;> rfl

theorem lastQueued_countingQueue : countingQueue.LastQueued "op" := by
  intro topic hbound
  rw [bindings_countingQueue] at hbound ⊢
  split at hbound
  · exact ⟨[], [], by rw [if_pos ‹_›]; rfl, fun _ h => absurd h List.not_mem_nil⟩
  · cases hbound

theorem hasQueue_countingQueue : countingQueue.HasQueue "op" 0 := ⟨⟨0, rfl, rfl⟩, rfl, by decide⟩

/-- A batch of one leaves the topic running, and a batch of two follows. -/
def twoBatches : List (ThrottleEvent ℚ) :=
  let message : Message := ⟨0, 0, []⟩
  [.getmany "raw" [message], .next "raw" ⟨0, fun _ => 0⟩, .dispatch "raw" none, .check "raw",
    .getmany "raw" [message, message], .next "raw" ⟨0, fun _ => 0⟩, .dispatch "raw" none,
    .next "raw" ⟨0, fun _ => 0⟩, .dispatch "raw" none]

/-- The batch ends in a message that cannot be read. -/
def EndsUnreadable (deserialize : List UInt8 → Except PyError (Record F)) (batch : List Message) : Prop :=
  ∃ front last err, batch = front ++ [last] ∧ deserialize last.value = .error err

/-- All that happens is that the topic's loop fetches such batches and works through them: no check, no worker, no other
    topic. -/
def OnlyUnreadable (deserialize : List UInt8 → Except PyError (Record F)) (topic : String) : ThrottleEvent F → Prop
  | .getmany topic' batch  => topic' = topic ∧ EndsUnreadable deserialize batch
  | .next topic' _         => topic' = topic
  | .dispatch topic' _     => topic' = topic
  | .check _               => False
  | .work _ _ _            => False
  | .deregister _          => False

/-- The topic's loop polls, or has an unreadable message in front of it. -/
def Unreadable (deserialize : List UInt8 → Except PyError (Record F)) (topic : String) (st : Throttle F σ) : Prop :=
  ∀ todo batch, st.loops topic = .handling todo batch → EndsUnreadable deserialize batch

theorem unreadable_withLoop {loop : Loop F} (h : Unreadable deserialize topic st) (topic' : String)
    (hloop : topic' = topic → ∀ todo batch, loop = .handling todo batch → EndsUnreadable deserialize batch) :
    Unreadable deserialize topic (st.withLoop topic' loop) := by
  intro todo batch heq
  unfold withLoop at heq
  dsimp only at heq
  by_cases hsame : topic = topic'
  · rw [hsame, Function.update_self] at heq
    exact hloop hsame.symm todo batch heq
  · rw [Function.update_of_ne hsame] at heq
    exact h todo batch heq

/-- What is left of such a batch after a message that could be read is such a batch. -/
theorem EndsUnreadable.of_cons {message : Message} {batch : List Message} {record : Record F}
    (h : EndsUnreadable deserialize (message :: batch)) (hreads : deserialize message.value = .ok record) :
    EndsUnreadable deserialize batch := by
  obtain ⟨front, last, err, heq, hlast⟩ := h
  cases front with
  | nil =>
      cases heq
      rw [hreads] at hlast
      cases hlast
  | cons first front =>
      cases heq
      exact ⟨front, last, err, rfl, hlast⟩

/-- One step keeps it where the topic's batches end in unreadable messages, and it is not the topic's check. -/
theorem Unreadable.step (h : Unreadable deserialize topic st) {event : ThrottleEvent F}
    (hbatch : ∀ batch, event = .getmany topic batch → EndsUnreadable deserialize batch)
    (hstep : st.step config deserialize event = some st') :
    Unreadable deserialize topic st' ∧ event ≠ .check topic := by
  cases event with
  -- what the loop has of the topic ends in an unreadable message: so it was fetched
  | getmany topic' batch =>
      obtain ⟨-, -, -, -, rfl⟩ := getmany_eq_some hstep
      refine ⟨unreadable_withLoop h topic' fun hsame todo batch' heq => ?_, nofun⟩
      cases heq
      exact hbatch batch (hsame ▸ rfl)
  | next topic' clock =>
      refine ⟨?_, nofun⟩
      obtain ⟨message, batch, hloop, ⟨record, hreads, rfl⟩ | ⟨err, -, rfl⟩⟩ := next_eq_some hstep
      · refine unreadable_withLoop h topic' fun hsame todo batch' heq => ?_
        cases heq
        -- a message that was read was not the last one
        exact (h [] (message :: batch) (hsame ▸ hloop)).of_cons hreads
      · exact unreadable_withLoop h topic' fun _ _ _ => nofun
  | dispatch topic' refusedAt =>
      refine ⟨?_, nofun⟩
      obtain ⟨oid, d, todo, batch, hloop, rfl⟩ := dispatch_eq_some hstep
      refine unreadable_withLoop h topic' fun hsame todo' batch' heq => ?_
      cases heq
      exact h ((oid, d) :: todo) batch (hsame ▸ hloop)
  | check topic' =>
      obtain ⟨hloop, rfl⟩ := check_eq_some hstep
      refine ⟨unreadable_withLoop h topic' fun _ _ _ => nofun, fun heq => ?_⟩
      cases heq
      -- a check would mean that the loop had come to the end of its batch
      obtain ⟨front, last, err, heq, -⟩ := h [] [] hloop
      exact List.append_ne_nil_of_right_ne_nil front (List.cons_ne_nil last []) heq.symm
  | work w event refusedAt =>
      obtain ⟨e, -, rfl⟩ := work_eq_some hstep
      exact ⟨h, nofun⟩
  | deregister oid =>
      obtain ⟨-, rfl⟩ := deregister_eq_some hstep
      exact ⟨h, nofun⟩

/-- A topic whose batches all end in an unreadable message is never checked, whatever the other loops, the workers and
    the consumers do. -/
theorem not_checked {events : List (ThrottleEvent F)} (hrun : (system config deserialize e₀).Run (start e₀) events st)
    (hbatches : ∀ batch, .getmany topic batch ∈ events → EndsUnreadable deserialize batch) :
    .check topic ∉ events := by
  suffices h : Unreadable deserialize topic st ∧ .check topic ∉ events from h.2
  induction hrun with
  | refl => exact ⟨nofun, List.not_mem_nil⟩
  | @tail _ _ event _ _ hstep ih =>
      obtain ⟨h, hnone⟩ := ih (fun batch hmem => hbatches batch (List.mem_append_left _ hmem))
      obtain ⟨h', hevent⟩ := h.step (fun batch heq => hbatches batch (by simp [heq])) hstep
      exact ⟨h', by simpa using ⟨hnone, fun heq => hevent heq.symm⟩⟩

/-- **Unreadable messages lift the bound**: a topic whose batches each end in one is never checked, and such batches
    alone fill the queue of an operator of the topic to any length, whatever the water marks and the consumers. The
    exception of such a message leaves the loop over the batch before the check, and the loop then polls again. -/
theorem unchecked_queue_grows (hq : e₀.HasQueue oid q) (hbound : oid ∈ e₀.bindings topic)
    (hconsumer : topic ∈ e₀.consumers) (hbatch : 2 ≤ config.batchSize) {value value' : List UInt8}
    {record : Record F} {err : PyError} (hreads : deserialize value = .ok record)
    (hfails : deserialize value' = .error err) (clock : Clock F) :
    (∀ events st, (system config deserialize e₀).Run (start e₀) events st →
      (∀ batch, .getmany topic batch ∈ events → EndsUnreadable deserialize batch) → .check topic ∉ events) ∧
    ∀ n, ∃ st, ((system config deserialize e₀).restrict (fun _ => OnlyUnreadable deserialize topic)).Reachable st ∧
      n ≤ st.engine.depth q := by
  refine ⟨fun events st => not_checked, fun n => ?_⟩
  refine Lts.exists_reachable_ge (I := Standing e₀ topic .polling) ⟨start e₀, rfl, standing_start e₀ topic⟩ ?_ n
  intro st h
  have hshare : 0 < e₀.share oid topic := List.count_pos_iff.mpr hbound
  have hends : EndsUnreadable deserialize [⟨0, 0, value⟩, ⟨0, 1, value'⟩] :=
    ⟨[⟨0, 0, value⟩], ⟨0, 1, value'⟩, err, rfl, hfails⟩
  obtain ⟨events, st₁, hrun, h₁, hdepth⟩ := run_fetches
    (fun _ => OnlyUnreadable deserialize topic) (fun _ => rfl) hq h hconsumer ⟨0, 0, value⟩ [⟨0, 1, value'⟩] hbatch
    clock hreads ⟨rfl, hends⟩ rfl
  have hskip : step config deserialize st₁ (.next topic clock) = some (st₁.withLoop topic .polling) := by
    unfold step
    simp only [h₁.loop, hfails]
  refine ⟨_, _, hrun.tail ⟨hskip, rfl⟩, h₁.withLoop .polling, ?_⟩
  show st.engine.depth q < st₁.engine.depth q
  omega

theorem unchecked_queue_grows_hundred :
    ∃ st : Throttle ℚ Nat, ((system (.default .accepting)
      (fun value => if value = [] then .ok ∅ else .error ⟨.valueError, ""⟩) countingQueue).restrict (fun _ =>
        OnlyUnreadable (fun value => if value = [] then .ok ∅ else .error ⟨.valueError, ""⟩) "raw")).Reachable st ∧
      100 ≤ st.engine.depth 0 :=
  (unchecked_queue_grows hasQueue_countingQueue (by decide) (by decide) (by decide) (if_pos rfl)
    (if_neg (by decide : ([0] : List UInt8) ≠ [])) ⟨0, fun _ => 0⟩).2 100

end Throttle

end Hea
end HybridStream
