import HybridStream.Hea.Correctness.CallProgress
import HybridStream.Py.Exact

/-!
# `Hea.Correctness.OutputRoutes` — where the outputs of a call are sent

`_emit` looks the routes up by operator id when `process` has returned, which may be long after the record was
dispatched. In between a deregistration may have removed the routes, or a registration replaced them. The invariant
(`RoutesKept`) is that the routes of an id are those of every registration a call in progress was dispatched under;
it survives every step that takes no routes away from such a call, and then each call sends its outputs to the topics
of its own registration (`outputs_sent`).
-/

namespace HybridStream
namespace Hea
namespace Tasks

open Lib Py

variable {F : Type}

/-! ## The property

The routes of a call are those of the registration that it was dispatched under. They are looked up when `process` has
returned, which may be after a deregistration or another registration. -/

/-- What is still to be sent, once `process` has returned. -/
def Phase.remaining : Phase F → Option (List (String × Record F))
  | .emitting pending => some pending
  | .ended            => some []
  | _                 => none

/-- The routes are still to be looked up. -/
def Phase.outstanding : Phase F → Bool
  | .queued       => true
  | .processing _ => true
  | _             => false

/-- What a call has sent. -/
def sentOf (st : Tasks F) (c : Nat) : List (String × Record F) :=
  st.sends.filterMap (fun send => if send.1 = c then some send.2 else none)

/-- Each output of a call is sent, or next to be sent, to each output topic of the registration the call was
    dispatched under. -/
def OutputsSent (st : Tasks F) : Prop :=
  ∀ (c : Nat) call pending, st.calls[c]? = some call → call.phase.remaining = some pending →
    st.sentOf c ++ pending = Engine.payloads (st.topicsOf call.registration) call.outputs

/-! ## Steps that take no routes away

The steps at which the look-up would find something else, each excluded by what the state says of the calls under
way. -/

/-- The calls dispatched under an id that are still to look up its routes have output topics as given. -/
def outstandingUnder (st : Tasks F) (oid : String) (p : List String → Bool) : Bool :=
  st.calls.all (fun call => call.operatorId ≠ oid || !call.phase.outstanding || p (st.topicsOf call.registration))

/-- No routes are replaced or removed under a call that is still to look them up, none are removed from an id that is
    registered again, and no send raises. -/
def keepsRoutes (st : Tasks F) : Event F → Bool
  | .register oid _ outputTopics => st.outstandingUnder oid (fun topics => topics = outputTopics)
  | .deregister oid =>
      (st.operators.get oid).isNone || (st.workerQueues.get oid).any (fun q => st.unfinished q ≠ 0) ||
        st.outstandingUnder oid List.isEmpty
  | .joined d =>
      (st.deregistrations[d]?).all (fun dereg => st.outstandingUnder dereg.operatorId List.isEmpty &&
        (st.operators.get dereg.operatorId).all (fun r => (st.topicsOf r).isEmpty))
  | .send _ accepted => accepted
  | _ => true

/-! ## The invariant

What has been sent of a call and what is still to be sent is what its outputs and its routes call for, and the table
still has the routes of every call that is to look them up. One lemma for each kind of step. -/

/-- The routes of an id are those of its registration, and of every registration of it that a call in progress was
    dispatched under. -/
structure RoutesKept (st : Tasks F) : Prop where
  operator : ∀ oid r, st.operators.get oid = some r → st.outputRoutes.getD oid [] = st.topicsOf r
  call     : ∀ (c : Nat) call, st.calls[c]? = some call → call.phase.outstanding = true →
    st.outputRoutes.getD call.operatorId [] = st.topicsOf call.registration
  sent     : OutputsSent st
  unsent   : ∀ (c : Nat) call, st.calls[c]? = some call → call.phase.remaining = none → st.sentOf c = []
  sender   : ∀ send ∈ st.sends, send.1 < st.calls.length

theorem Phase.remaining_emit (pending : List (String × Record F)) : (Phase.emit pending).remaining = some pending := by
  cases pending <;> rfl

theorem Phase.outstanding_emit (pending : List (String × Record F)) : (Phase.emit pending).outstanding = false := by
  cases pending <;> rfl

theorem outstandingUnder_iff {st : Tasks F} {oid : String} {p : List String → Bool} :
    st.outstandingUnder oid p = true ↔ ∀ (c : Nat) call, st.calls[c]? = some call → call.operatorId = oid →
      call.phase.outstanding = true → p (st.topicsOf call.registration) = true := by
  unfold outstandingUnder
  rw [List.all_eq_true]
  constructor
  · intro h c call hc hoid hphase
    have hcall := h call (List.mem_of_getElem? hc)
    simpa [hoid, hphase] using hcall
  · intro h call hmem
    obtain ⟨c, hc⟩ := List.getElem?_of_mem hmem
    by_cases hoid : call.operatorId = oid
    · cases hphase : call.phase.outstanding with
      | false => simp
      | true => simp [h c call hc hoid hphase]
    · simp [hoid]

/-- One more payload is sent. -/
theorem sentOf_send (st : Tasks F) (calls : List (Call F)) (c : Nat) (payload : String × Record F) (c' : Nat) :
    sentOf { st with calls := calls, sends := st.sends ++ [(c, payload)] } c' =
      st.sentOf c' ++ if c = c' then [payload] else [] := by
  unfold sentOf
  rw [List.filterMap_append]
  by_cases heq : c = c'
  · simp [heq]
  · simp [heq]

namespace RoutesKept

variable {st st' : Tasks F} {oid : String} {c w d r : Nat}

theorem started : RoutesKept (started : Tasks F) := by
  constructor
  · rintro oid r ⟨⟩
  · rintro c call ⟨⟩
  · rintro c call pending ⟨⟩
  · rintro c call ⟨⟩
  · rintro send ⟨⟩

/-- Queues and workers do not enter. -/
theorem of_eq (h : RoutesKept st) (hregistrations : st'.registrations = st.registrations)
    (hoperators : ∀ oid r, st'.operators.get oid = some r → st.operators.get oid = some r)
    (hroutes : st'.outputRoutes = st.outputRoutes) (hcalls : st'.calls = st.calls) (hsends : st'.sends = st.sends) :
    RoutesKept st' := by
  have htopics : st'.topicsOf = st.topicsOf := by
    unfold topicsOf
    rw [hregistrations]
  have hsent : st'.sentOf = st.sentOf := by
    unfold sentOf
    rw [hsends]
  constructor
  · rw [hroutes, htopics]
    exact fun oid r hr => h.operator oid r (hoperators oid r hr)
  · rw [hcalls, hroutes, htopics]
    exact h.call
  · unfold OutputsSent
    rw [hcalls, hsent, htopics]
    exact h.sent
  · rw [hcalls, hsent]
    exact h.unsent
  · rw [hcalls, hsends]
    exact h.sender

theorem register (h : RoutesKept st) (howned : Owned st) {cpuBound : Bool} {outputTopics : List String}
    (hkeeps : keepsRoutes st (.register oid cpuBound outputTopics) = true) :
    RoutesKept (st.register oid cpuBound outputTopics) := by
  -- the guard: a call of the id that is still to look its routes up finds them unchanged
  have hkeeps : st.outstandingUnder oid (fun topics => topics = outputTopics) = true := hkeeps
  -- registrations are only added, so those that are there keep their topics
  have hold : ∀ {r : Nat} {oid'}, (∃ reg, st.registrations[r]? = some reg ∧ reg.operatorId = oid') →
      (st.register oid cpuBound outputTopics).topicsOf r = st.topicsOf r := by
    rintro r oid' ⟨reg, hr, -⟩
    unfold topicsOf
    rw [hr, show (st.register oid cpuBound outputTopics).registrations[r]? = some reg from
      getElem?_concat_of_some hr _]
  have hnew : (st.register oid cpuBound outputTopics).topicsOf st.registrations.length = outputTopics := by
    unfold topicsOf
    rw [show (st.register oid cpuBound outputTopics).registrations[st.registrations.length]? = some _ from
      getElem?_concat_self _ _]
    rfl
  have hset : ∀ oid', (st.register oid cpuBound outputTopics).outputRoutes.getD oid' [] =
      if oid' = oid then outputTopics else st.outputRoutes.getD oid' [] := fun oid' => Dict.getD_set _ _ _ _ _
  constructor
  -- the id has the new routes and the new registration, any other id what it had
  · intro oid' r hr
    have hr : (st.operators.set oid st.registrations.length).get oid' = some r := hr
    rw [Dict.get_set] at hr
    rw [hset]
    split at hr
    · rename_i heq
      cases hr
      rw [if_pos heq, hnew]
    · rename_i hne
      rw [if_neg hne, hold (howned.operator oid' r hr)]
      exact h.operator oid' r hr
  · intro c call hc hphase
    rw [hset, hold (howned.call c call hc)]
    split
    · rename_i heq
      exact (of_decide_eq_true (outstandingUnder_iff.mp hkeeps c call hc heq hphase)).symm
    · exact h.call c call hc hphase
  · intro c call pending hc hphase
    rw [hold (howned.call c call hc)]
    exact h.sent c call pending hc hphase
  · exact h.unsent
  · exact h.sender

theorem sentOf_eq_nil (h : RoutesKept st) (hc : st.calls.length ≤ c) : st.sentOf c = [] := by
  apply List.filterMap_eq_nil_iff.mpr
  intro send hmem
  have hlt := h.sender send hmem
  rw [if_neg (by omega)]

/-- A new call is still to look up its routes, if it ever does. -/
theorem addCall (h : RoutesKept st) {call : Call F} (hremaining : call.phase.remaining = none)
    (hroutes : st.outputRoutes.getD call.operatorId [] = st.topicsOf call.registration) :
    RoutesKept { st with calls := st.calls ++ [call] } := by
  refine ⟨h.operator, ?_, ?_, ?_, ?_⟩
  · intro c call' hc hphase
    rcases getElem?_concat_eq_some.mp hc with hc | ⟨-, rfl⟩
    · exact h.call c call' hc hphase
    · exact hroutes
  · intro c call' pending hc hphase
    rcases getElem?_concat_eq_some.mp hc with hc | ⟨-, rfl⟩
    · exact h.sent c call' pending hc hphase
    · rw [hremaining] at hphase
      cases hphase
  · intro c call' hc hphase
    rcases getElem?_concat_eq_some.mp hc with hc | ⟨rfl, rfl⟩
    · exact h.unsent c call' hc hphase
    · exact h.sentOf_eq_nil (Nat.le_refl _)
  · intro send hmem
    have hlt := h.sender send hmem
    show send.1 < (st.calls ++ [call]).length
    rw [List.length_append]
    exact Nat.lt_add_right _ hlt

theorem dispatch (h : RoutesKept st) (oid : String) : RoutesKept (st.dispatch oid) := by
  rcases dispatch_cases st oid with ⟨-, heq⟩ | ⟨r, hr, ⟨q, queue, -, -, -, heq⟩ | ⟨-, -, heq⟩ | ⟨-, heq⟩⟩
  · rw [heq]
    exact h
  · rw [heq]
    have hadd : RoutesKept { st with calls := st.calls ++ [⟨oid, r, [], .queued⟩] } :=
      h.addCall rfl (h.operator oid r hr)
    exact hadd.of_eq rfl (fun _ _ => id) rfl rfl rfl
  · rw [heq]
    exact h.addCall rfl (h.operator oid r hr)
  · rw [heq]
    exact h.addCall rfl (h.operator oid r hr)

/-- A call that has sent nothing yet moves on. -/
theorem setCall (h : RoutesKept st) {call call' : Call F} (hc : st.calls[c]? = some call)
    (hunsent : call.phase.remaining = none)
    (houtstanding : call'.phase.outstanding = true →
      st.outputRoutes.getD call'.operatorId [] = st.topicsOf call'.registration)
    (hsent : ∀ pending, call'.phase.remaining = some pending →
      pending = Engine.payloads (st.topicsOf call'.registration) call'.outputs) :
    RoutesKept { st with calls := st.calls.set c call' } := by
  refine ⟨h.operator, ?_, ?_, ?_, ?_⟩
  · intro c' call₁ hc' hphase
    rcases (getElem?_set_eq_some hc).mp hc' with ⟨-, rfl⟩ | ⟨-, hc'⟩
    · exact houtstanding hphase
    · exact h.call c' call₁ hc' hphase
  · intro c' call₁ pending hc' hphase
    rcases (getElem?_set_eq_some hc).mp hc' with ⟨rfl, rfl⟩ | ⟨-, hc'⟩
    · show st.sentOf _ ++ pending = _
      rw [h.unsent _ call hc hunsent]
      exact hsent pending hphase
    · exact h.sent c' call₁ pending hc' hphase
  · intro c' call₁ hc' hphase
    rcases (getElem?_set_eq_some hc).mp hc' with ⟨rfl, rfl⟩ | ⟨-, hc'⟩
    · exact h.unsent _ call hc hunsent
    · exact h.unsent c' call₁ hc' hphase
  · intro send hmem
    show send.1 < (st.calls.set c call').length
    rw [List.length_set]
    exact h.sender send hmem

theorem processed (h : RoutesKept st) (howned : Owned st) {result : Except PyError (List (Record F))}
    (hstep : st.processed c result = some st') : RoutesKept st' := by
  obtain ⟨oid, r, outputs, emitAs, hc, rfl⟩ := processed_eq_some hstep
  refine h.setCall hc rfl ?_ ?_
  · intro hphase
    rw [Phase.outstanding_emit] at hphase
    cases hphase
  · intro pending hphase
    rw [Phase.remaining_emit] at hphase
    cases hphase
    -- the id the outputs are emitted under is the one of the dispatch
    rw [howned.emitAs c _ emitAs hc rfl]
    exact congrArg (Engine.payloads · _) (h.call c _ hc rfl)

theorem send (h : RoutesKept st) {accepted : Bool} (hkeeps : keepsRoutes st (.send c accepted) = true)
    (hstep : st.send c accepted = some st') : RoutesKept st' := by
  obtain ⟨oid, r, outputs, payload, pending, hc, ⟨-, rfl⟩ | ⟨hrefused, -⟩⟩ := send_eq_some hstep
  · have hsentOf := sentOf_send st (st.calls.set c ⟨oid, r, outputs, .emit pending⟩) c payload
    refine ⟨h.operator, ?_, ?_, ?_, ?_⟩
    · intro c' call hc' hphase
      rcases (getElem?_set_eq_some hc).mp hc' with ⟨-, rfl⟩ | ⟨-, hc'⟩
      · rw [Phase.outstanding_emit] at hphase
        cases hphase
      · exact h.call c' call hc' hphase
    · intro c' call pending' hc' hphase
      rw [hsentOf]
      rcases (getElem?_set_eq_some hc).mp hc' with ⟨rfl, rfl⟩ | ⟨hne, hc'⟩
      · rw [Phase.remaining_emit] at hphase
        cases hphase
        -- the first of what was left is now the last of what is sent
        rw [if_pos rfl, List.append_assoc]
        exact h.sent _ ⟨oid, r, outputs, .emitting (payload :: pending)⟩ _ hc rfl
      · rw [if_neg (Ne.symm hne), List.append_nil]
        exact h.sent c' call pending' hc' hphase
    · intro c' call hc' hphase
      rw [hsentOf]
      rcases (getElem?_set_eq_some hc).mp hc' with ⟨rfl, rfl⟩ | ⟨hne, hc'⟩
      · rw [Phase.remaining_emit] at hphase
        cases hphase
      · rw [if_neg (Ne.symm hne), List.append_nil]
        exact h.unsent c' call hc' hphase
    · intro send hmem
      show send.1 < (st.calls.set c _).length
      rw [List.length_set]
      rcases List.mem_append.mp hmem with hmem | hmem
      · exact h.sender send hmem
      · rw [List.mem_singleton.mp hmem]
        exact lt_length_of_getElem? hc
  · rw [hrefused] at hkeeps
    cases hkeeps

theorem takeItem (h : RoutesKept st) (howned : Owned st) (hstep : st.takeItem w = some st') : RoutesKept st' := by
  obtain ⟨oid, q, queue, c, items, call, hw, hq, hitems, hc, rfl⟩ := takeItem_eq_some hstep
  obtain ⟨call₁, hc₁, -, hqueued⟩ := howned.item q queue c hq (by rw [hitems]; exact List.mem_cons_self)
  rw [hc] at hc₁
  cases hc₁
  have hcall : RoutesKept { st with calls := st.calls.set c { call with phase := .processing oid } } :=
    h.setCall hc (by rw [hqueued]; rfl) (fun _ => h.call c call hc (by rw [hqueued]; rfl)) nofun
  exact hcall.of_eq rfl (fun _ _ => id) rfl rfl rfl

/-- Routes are removed that no call in progress and no operator needs. -/
theorem popRoutes (h : RoutesKept st) (hcalls : st.outstandingUnder oid List.isEmpty = true)
    (hoperator : ∀ r, st.operators.get oid = some r → st.topicsOf r = []) :
    RoutesKept { st with outputRoutes := st.outputRoutes.pop oid } := by
  refine ⟨?_, ?_, h.sent, h.unsent, h.sender⟩
  · intro oid' r hr
    dsimp only
    rw [Dict.getD_pop]
    split
    · rename_i heq
      exact (hoperator r (heq ▸ hr)).symm
    · exact h.operator oid' r hr
  · intro c call hc hphase
    dsimp only
    rw [Dict.getD_pop]
    split
    · rename_i heq
      exact (List.isEmpty_iff.mp (outstandingUnder_iff.mp hcalls c call hc heq hphase)).symm
    · exact h.call c call hc hphase

theorem deregister (h : RoutesKept st) (hkeeps : keepsRoutes st (.deregister oid) = true) :
    RoutesKept (st.deregister oid) := by
  have hpop : ∀ oid' r, (st.operators.pop oid).get oid' = some r → st.operators.get oid' = some r :=
    fun _ _ hr => (Dict.get_of_get_pop hr).2
  rcases deregister_cases st oid with ⟨-, heq⟩ | ⟨r, hr, ⟨q, hq, hwait, heq⟩ | ⟨hfree, heq⟩⟩
  · rw [heq]
    exact h
  · rw [heq]
    exact h.of_eq rfl hpop rfl rfl rfl
  · rw [heq]
    have hpopped : RoutesKept { st with operators := st.operators.pop oid } := h.of_eq rfl hpop rfl rfl rfl
    have hcalls : st.outstandingUnder oid List.isEmpty = true := by
      unfold keepsRoutes at hkeeps
      simp only [hr, Option.isNone_some, Bool.false_or, Bool.or_eq_true] at hkeeps
      refine hkeeps.resolve_left fun hwait => ?_
      obtain ⟨q, hq, hwait⟩ := (Option.any_eq_true _ _).mp hwait
      exact of_decide_eq_true hwait (hfree q hq)
    have hclosed : RoutesKept { st with
        operators := st.operators.pop oid, outputRoutes := st.outputRoutes.pop oid } := by
      refine hpopped.popRoutes hcalls fun r' hr' => ?_
      have hr' : (st.operators.pop oid).get oid = some r' := hr'
      rw [Dict.get_pop_self] at hr'
      cases hr'
    exact hclosed.of_eq rfl (fun _ _ => id) rfl rfl rfl

theorem joined (h : RoutesKept st) (hkeeps : keepsRoutes st (.joined d) = true) (hstep : st.joined d = some st') :
    RoutesKept st' := by
  obtain ⟨oid, r, q, hd, -, rfl⟩ := joined_eq_some hstep
  unfold keepsRoutes at hkeeps
  simp only [hd, Option.all_some, Bool.and_eq_true] at hkeeps
  have hclosed := h.popRoutes hkeeps.1 fun r' hr' =>
    List.isEmpty_iff.mp ((Option.all_eq_true _ _).mp hkeeps.2 r' hr')
  exact hclosed.of_eq rfl (fun _ _ => id) rfl rfl rfl

theorem step (h : RoutesKept st) (howned : Owned st) {event : Event F} (hstep : st.step event = some st')
    (hkeeps : keepsRoutes st event = true) : RoutesKept st' := by
  cases event with
  | register oid cpuBound outputTopics =>
      cases hstep
      exact h.register howned hkeeps
  | makeQueue r =>
      obtain ⟨oid, topics, -, -, rfl⟩ := makeQueue_eq_some hstep
      exact h.of_eq rfl (fun _ _ => id) rfl rfl rfl
  | dispatch oid =>
      cases hstep
      exact h.dispatch oid
  | processed c result => exact h.processed howned hstep
  | send c accepted => exact h.send hkeeps hstep
  | startWorker w =>
      obtain ⟨oid, -, ⟨q, -, rfl⟩ | ⟨-, rfl⟩⟩ := startWorker_eq_some hstep
      · exact h.of_eq rfl (fun _ _ => id) rfl rfl rfl
      · exact h.of_eq rfl (fun _ _ => id) rfl rfl rfl
  | takeItem w => exact h.takeItem howned hstep
  | taskDone w =>
      obtain ⟨oid, q, c, queue, oid', r, outputs, -, -, -, rfl⟩ := taskDone_eq_some hstep
      exact h.of_eq rfl (fun _ _ => id) rfl rfl rfl
  | deregister oid =>
      cases hstep
      exact h.deregister hkeeps
  | joined d => exact h.joined hkeeps hstep

end RoutesKept

/-! ## The result

In every state that such a run reaches, what has been sent of a call is a beginning of what should be sent, and all of
it once the call has ended without a send that raised. -/

theorem routesKept_of_reachable {st : Tasks F}
    (h : (system.restrict (fun (st : Tasks F) event => keepsRoutes st event = true)).Reachable st) : RoutesKept st := by
  have hboth : Owned st ∧ RoutesKept st := by
    refine h.invariant (I := fun st => Owned st ∧ RoutesKept st) ?_ ?_
    · rintro st rfl
      exact ⟨Owned.started, RoutesKept.started⟩
    · rintro st event st' ⟨howned, hkept⟩ ⟨hstep, hkeeps⟩
      exact ⟨howned.step hstep, hkept.step howned hstep hkeeps⟩
  exact hboth.2

/-- A call whose `process` has returned is in `_emit` or past it. -/
theorem Owned.phase_of_remaining {st : Tasks F} (h : Owned st) {c : Nat} {call : Call F} (hc : st.calls[c]? = some call)
    (hreturned : call.phase.remaining.isSome = true) : ∃ pending, call.phase = .emit pending := by
  cases hphase : call.phase with
  | emitting pending =>
      cases pending with
      | nil => exact absurd hphase (h.pending c call hc)
      | cons payload pending => exact ⟨payload :: pending, rfl⟩
  | ended => exact ⟨[], rfl⟩
  | queued | dropped | processing => rw [hphase] at hreturned; cases hreturned

/-- **Every output goes to every output topic of the registration its call was dispatched under**, where no step takes
    routes away from a call that is still to look them up: in every state it is sent or next to be sent, and where every
    coroutine goes on it is sent. `RoutesKept` is the invariant for the first part; the second is by the phases of a
    call, each of which its coroutine ends. -/
theorem outputs_sent :
    (∀ st : Tasks F, (system.restrict (fun st event => keepsRoutes st event = true)).Reachable st →
      OutputsSent st) ∧
    ∀ b : (system.restrict (fun (st : Tasks F) event => keepsRoutes st event = true)).Behaviour, Fair b →
      ∀ c r outputs, b.LeadsTo
        (fun st => ∃ oid phase, st.calls[c]? = some ⟨oid, r, outputs, phase⟩ ∧ phase.remaining.isSome = true)
        (fun st => st.sentOf c = Engine.payloads (st.topicsOf r) outputs) := by
  constructor
  · exact fun st h => (routesKept_of_reachable h).sent
  · intro b hfair c r outputs
    have hgo : LetsCallsGo (fun (st : Tasks F) event => keepsRoutes st event = true) :=
      ⟨fun _ _ _ => rfl, fun _ _ => rfl⟩
    have hemitting : b.LeadsTo
        (fun st => ∃ oid phase, st.calls[c]? = some ⟨oid, r, outputs, phase⟩ ∧ phase.remaining.isSome = true)
        (fun st => ∃ oid pending, st.calls[c]? = some ⟨oid, r, outputs, .emit pending⟩) := by
      refine .of_imp ?_
      rintro st hreach ⟨oid, phase, hc, hreturned⟩
      obtain ⟨pending, rfl⟩ := (owned_of_reachable hreach.of_restrict).phase_of_remaining hc hreturned
      exact ⟨oid, pending, hc⟩
    have hended : b.LeadsTo (fun st => ∃ oid pending, st.calls[c]? = some ⟨oid, r, outputs, .emit pending⟩)
        (EndedWith c r outputs) :=
      .of_exists fun oid => .of_exists fun pending => emitting_ends hgo hfair c r oid outputs pending
    refine (hemitting.trans hended).trans (.of_imp ?_)
    rintro st hreach ⟨oid, hc⟩
    have hsent := (routesKept_of_reachable hreach).sent c _ [] hc rfl
    rw [List.append_nil] at hsent
    exact hsent

/-! ## One inline operator

A call from its dispatch to its end, for which the result speaks; and the deregistration in the middle that it
excludes. -/

/-- A call of an inline operator, to its end. -/
def inlineCall : List (Event ℚ) :=
  [.register "op" false ["out"], .dispatch "op", .processed 0 (.ok [∅]), .send 0 true, .deregister "op"]

theorem outputs_sent_inline : ∃ st : Tasks ℚ, st.deregistrations.length = 1 ∧ OutputsSent st := by
  have hrun : (Lts.exec (Lts.guardStep step (fun st event => keepsRoutes st event = true)) inlineCall
      (Tasks.started : Tasks ℚ)).any (fun st => st.deregistrations.length = 1) = true := by decide
  obtain ⟨st, hexec, hst⟩ := (Option.any_eq_true _ _).mp hrun
  exact ⟨st, of_decide_eq_true hst, outputs_sent.1 st (Lts.restrict_reachable_of_exec rfl hexec)⟩

/-- What a deregistration during a call of `process` leaves behind. -/
def lost : Tasks ℚ where
  registrations   := [⟨"op", false, ["out"]⟩]
  operators       := ∅
  outputRoutes    := ∅
  workerQueues    := ∅
  queues          := []
  workers         := []
  calls           := [⟨"op", 0, [∅], .ended⟩]
  deregistrations := [⟨"op", 0, none⟩]
  handed          := []
  sends           := []

/-- The operator is deregistered while `process` is suspended: what it returns is sent nowhere. -/
theorem output_lost : system.Reachable lost ∧ ¬ OutputsSent lost := by
  have hexec : Lts.exec step [.register "op" false ["out"], .dispatch "op", .deregister "op", .processed 0 (.ok [∅])]
      (Tasks.started : Tasks ℚ) = some lost := rfl
  refine ⟨Lts.reachable_of_exec rfl hexec, fun hsent => ?_⟩
  have hempty : [] = [("out", (∅ : Record ℚ))] := hsent 0 _ [] rfl rfl
  cases hempty

end Tasks
end Hea
end HybridStream
