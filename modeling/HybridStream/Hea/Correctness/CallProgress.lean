import HybridStream.Hea.Tasks
import HybridStream.Lib.Fair

/-!
# `Hea.Correctness.CallProgress` — a call goes on as long as its coroutine does

What a step does to a call (`call_of_step`), and that a call in `process` or in `_emit` ends in every behaviour in
which each coroutine that can move does so eventually, `process` and the sends included (`processing_ends`).

The phases of a call come in a fixed order and each of them ends by a step of the call's own coroutine. `LetsCallsGo`
is what a guard on steps has to leave possible for that, so the result can be used under the guards of other results.
-/

namespace HybridStream
namespace Hea
namespace Tasks

open Lib Py

variable {F : Type}

/-! ## Coroutines

Liveness needs that what can move does so eventually, and what can move are coroutines: a call, a worker between two
items, a deregistration. A step of the environment belongs to none of them. -/

/-- What moves on its own: the work on a call, a worker between two items, a deregistration. -/
inductive Coroutine where
  | call (c : Nat)
  | worker (w : Nat)
  | deregistration (d : Nat)

/-- The coroutine a step belongs to; registrations and dispatches come from outside. -/
def Event.coroutine : Event F → Option Coroutine
  | .processed c _ => some (.call c)
  | .send c _      => some (.call c)
  | .startWorker w => some (.worker w)
  | .takeItem w    => some (.worker w)
  | .taskDone w    => some (.worker w)
  | .joined d      => some (.deregistration d)
  | _              => none

/-- Every coroutine that can move does so eventually; in particular `process` and the sends return or raise. -/
def Fair {G : Tasks F → Event F → Prop} (b : (system.restrict G).Behaviour) : Prop :=
  ∀ coroutine, b.WeaklyFair (fun event => event.coroutine = some coroutine)

/-! ## What a step does to a call

A call is moved by its own coroutine and by nobody else, but for the worker that takes it from its queue. So a call
that is under way is still there, and still enabled, after a step of anything else. -/

section Steps

variable {st st' : Tasks F} {event : Event F} {c : Nat} {call : Call F}

/-- A step of the call's own coroutine: `process` ends, or a send. -/
theorem call_of_coroutine (hc : st.calls[c]? = some call) (hstep : st.step event = some st')
    (hevent : event.coroutine = some (.call c)) :
    (∃ emitAs result, call.phase = .processing emitAs ∧ st'.calls[c]? = some
      { call with
        outputs := emitted result
        phase   := .emit (Engine.payloads (st.outputRoutes.getD emitAs []) (emitted result)) }) ∨
    ∃ payload pending accepted, call.phase = .emitting (payload :: pending) ∧ event = .send c accepted ∧
      st'.calls[c]? = some { call with phase := if accepted then .emit pending else .ended } := by
  cases event with
  | processed c' result =>
      cases hevent
      obtain ⟨oid, r, outputs, emitAs, hc', rfl⟩ := processed_eq_some hstep
      rw [hc] at hc'
      cases hc'
      exact Or.inl ⟨emitAs, result, rfl, (getElem?_set_eq_some hc).mpr (Or.inl ⟨rfl, rfl⟩)⟩
  | send c' accepted =>
      cases hevent
      obtain ⟨oid, r, outputs, payload, pending, hc', hcases⟩ := send_eq_some hstep
      rw [hc] at hc'
      cases hc'
      refine Or.inr ⟨payload, pending, accepted, rfl, rfl, ?_⟩
      rcases hcases with ⟨rfl, rfl⟩ | ⟨rfl, rfl⟩
      · exact (getElem?_set_eq_some hc).mpr (Or.inl ⟨rfl, rfl⟩)
      · exact (getElem?_set_eq_some hc).mpr (Or.inl ⟨rfl, rfl⟩)
  | register | makeQueue | dispatch | startWorker | takeItem | taskDone | deregister | joined => cases hevent

/-- A call is left alone, or taken by a worker, or moved by its own coroutine. -/
theorem call_of_step (howned : Owned st) (hc : st.calls[c]? = some call) (hstep : st.step event = some st') :
    st'.calls[c]? = some call ∨
    (call.phase = .queued ∧ (∃ w, event = .takeItem w) ∧
      st'.calls[c]? = some { call with phase := .processing call.operatorId }) ∨
    event.coroutine = some (.call c) := by
  cases event with
  | register oid cpuBound outputTopics =>
      cases hstep
      exact Or.inl hc
  | makeQueue r =>
      obtain ⟨oid, topics, -, -, rfl⟩ := makeQueue_eq_some hstep
      exact Or.inl hc
  | dispatch oid =>
      cases hstep
      rcases calls_dispatch st oid with heq | ⟨call', -, heq⟩
      · rw [heq]
        exact Or.inl hc
      · rw [heq]
        exact Or.inl (getElem?_concat_of_some hc _)
  | processed c' result =>
      -- the step is the call's own, or it is another call's and sets another entry
      by_cases heq : c = c'
      · exact Or.inr (Or.inr (by rw [heq]; rfl))
      · obtain ⟨oid, r, outputs, emitAs, hc', rfl⟩ := processed_eq_some hstep
        exact Or.inl ((getElem?_set_eq_some hc').mpr (Or.inr ⟨heq, hc⟩))
  | send c' accepted =>
      by_cases heq : c = c'
      · exact Or.inr (Or.inr (by rw [heq]; rfl))
      · obtain ⟨oid, r, outputs, payload, pending, hc', ⟨-, rfl⟩ | ⟨-, rfl⟩⟩ := send_eq_some hstep
        · exact Or.inl ((getElem?_set_eq_some hc').mpr (Or.inr ⟨heq, hc⟩))
        · exact Or.inl ((getElem?_set_eq_some hc').mpr (Or.inr ⟨heq, hc⟩))
  | startWorker w =>
      obtain ⟨oid, -, ⟨q, -, rfl⟩ | ⟨-, rfl⟩⟩ := startWorker_eq_some hstep
      · exact Or.inl hc
      · exact Or.inl hc
  | takeItem w =>
      obtain ⟨oid, q, queue, c', items, call', hw, hq, hitems, hc', rfl⟩ := takeItem_eq_some hstep
      by_cases heq : c = c'
      · subst heq
        rw [hc] at hc'
        cases hc'
        -- the item belongs to the queue and the queue to the worker, so the id of the call is the worker's
        obtain ⟨call₁, hc₁, hid, hqueued⟩ := howned.item q queue c hq (by rw [hitems]; exact List.mem_cons_self)
        rw [hc] at hc₁
        cases hc₁
        obtain ⟨queue₁, hq₁, hworker⟩ := howned.worker w q _ hw rfl
        rw [hq] at hq₁
        cases hq₁
        have hoid : oid = call.operatorId := hworker.symm.trans hid.symm
        rw [hoid]
        exact Or.inr (Or.inl ⟨hqueued, ⟨w, rfl⟩, (getElem?_set_eq_some hc).mpr (Or.inl ⟨rfl, rfl⟩)⟩)
      · exact Or.inl ((getElem?_set_eq_some hc').mpr (Or.inr ⟨heq, hc⟩))
  | taskDone w =>
      obtain ⟨oid, q, c', queue, oid', r, outputs, -, -, -, rfl⟩ := taskDone_eq_some hstep
      exact Or.inl hc
  | deregister oid =>
      cases hstep
      exact Or.inl (by rwa [calls_deregister])
  | joined d =>
      obtain ⟨oid, r, q, -, -, rfl⟩ := joined_eq_some hstep
      exact Or.inl hc

/-- A call that is not queued is moved by its own coroutine only. -/
theorem call_of_other_step (howned : Owned st) (hc : st.calls[c]? = some call) (hphase : call.phase ≠ .queued)
    (hstep : st.step event = some st') (hevent : event.coroutine ≠ some (.call c)) : st'.calls[c]? = some call := by
  rcases call_of_step howned hc hstep with h | ⟨h, -⟩ | h
  · exact h
  · exact absurd h hphase
  · exact absurd h hevent

/-- An ended call stays as it is. -/
theorem ended_of_step (howned : Owned st) (hc : st.calls[c]? = some call) (hphase : call.phase = .ended)
    (hstep : st.step event = some st') : st'.calls[c]? = some call := by
  by_cases hevent : event.coroutine = some (.call c)
  · rcases call_of_coroutine hc hstep hevent with ⟨_, _, h, -⟩ | ⟨_, _, _, h, -⟩
    · rw [hphase] at h; cases h
    · rw [hphase] at h; cases h
  · exact call_of_other_step howned hc (by rw [hphase]; exact nofun) hstep hevent

end Steps

/-! ## A call ends

By fairness and the phases in order: `process` ends, then one send after the other. What the outputs are is not known
before `process` has ended, so the outcome is existential there. -/

section Progress

/-- A guard that lets calls go on. -/
structure LetsCallsGo (G : Tasks F → Event F → Prop) : Prop where
  processed : ∀ st c result, G st (.processed c result)
  send      : ∀ st c, G st (.send c true)

variable {G : Tasks F → Event F → Prop} {b : (system.restrict G).Behaviour}

/-- The call has ended with the given outputs. -/
def EndedWith (c r : Nat) (outputs : List (Record F)) (st : Tasks F) : Prop :=
  ∃ oid, st.calls[c]? = some ⟨oid, r, outputs, .ended⟩

theorem emitting_ends (hG : LetsCallsGo G) (hfair : Fair b) (c r : Nat) (oid : String) (outputs : List (Record F))
    (pending : List (String × Record F)) :
    b.LeadsTo (fun st => st.calls[c]? = some ⟨oid, r, outputs, .emit pending⟩) (EndedWith c r outputs) := by
  induction pending with
  | nil => exact .of_imp fun st _ hc => ⟨oid, hc⟩
  | cons payload pending ih =>
      have hsend : b.LeadsTo (fun st => st.calls[c]? = some ⟨oid, r, outputs, .emit (payload :: pending)⟩)
          (fun st => st.calls[c]? = some ⟨oid, r, outputs, .emit pending⟩ ∨ EndedWith c r outputs st) := by
        refine Lts.Behaviour.ensures (hfair (.call c)) ?_ ?_ ?_
        · exact fun st event st' hreach hc hevent hstep =>
            Or.inl (call_of_other_step (owned_of_reachable hreach.of_restrict) hc nofun hstep.1 hevent)
        · intro st event st' _ hc hevent hstep
          rcases call_of_coroutine hc hstep.1 hevent with ⟨_, _, h, -⟩ | ⟨_, _, accepted, h, -, hc'⟩
          · cases h
          · cases h
            cases accepted with
            | true => exact Or.inl hc'
            | false => exact Or.inr ⟨oid, hc'⟩
        · intro st _ hc
          have hsome : (st.send c true).isSome := by
            unfold Tasks.send
            rw [hc]
            rfl
          exact Lts.enabled_of_isSome (a := .send c true) hsome rfl (hG.send st c)
      exact hsend.trans (ih.or (.of_imp fun _ _ h => h))

/-- What `process` is given ends, with whatever outputs. -/
theorem processing_ends (hG : LetsCallsGo G) (hfair : Fair b) (c r : Nat) (oid : String) (outputs : List (Record F))
    (emitAs : String) :
    b.LeadsTo (fun st => st.calls[c]? = some ⟨oid, r, outputs, .processing emitAs⟩)
      (fun st => ∃ outputs, EndedWith c r outputs st) := by
  have hprocessed : b.LeadsTo (fun st => st.calls[c]? = some ⟨oid, r, outputs, .processing emitAs⟩)
      (fun st => ∃ outputs pending, st.calls[c]? = some ⟨oid, r, outputs, .emit pending⟩) := by
    refine Lts.Behaviour.ensures (hfair (.call c)) ?_ ?_ ?_
    · exact fun st event st' hreach hc hevent hstep =>
        Or.inl (call_of_other_step (owned_of_reachable hreach.of_restrict) hc nofun hstep.1 hevent)
    · intro st event st' _ hc hevent hstep
      rcases call_of_coroutine hc hstep.1 hevent with ⟨_, result, _, hc'⟩ | ⟨_, _, _, h, -⟩
      · exact ⟨_, _, hc'⟩
      · cases h
    · intro st _ hc
      have hsome : (st.processed c (.ok [])).isSome := by
        unfold Tasks.processed
        rw [hc]
        rfl
      exact Lts.enabled_of_isSome (a := .processed c (.ok [])) hsome rfl (hG.processed st c _)
  refine hprocessed.trans (.of_exists fun outputs => .of_exists fun pending => ?_)
  exact (emitting_ends hG hfair c r oid outputs pending).mono (fun _ _ h => h) fun _ h => ⟨outputs, h⟩

end Progress

end Tasks
end Hea
end HybridStream
