import HybridStream.Hea.Handoff
import HybridStream.Hea.Operator
import HybridStream.Hea.Correctness.QueueSteps
import HybridStream.Py.Exact

/-!
# `Hea.Correctness.CleanHandoff` — when nothing slips between snapshot and termination

The source keeps its bindings, its consumers and its worker until `deregister_operator`, so whatever reaches it after
the export is processed by it, and again by the target from the drained offsets on. A record is reflected in the
snapshot if its `process` had ended, on the operator object itself, when `get_state()` was read. Three things bring a
record past the snapshot: a call that is still in `process` when the state is read, a dispatch after that, and the
process pool, whose copies never come back.

`careful` excludes the three, and a second object under the same id. Along the runs whose steps meet it every call of
the exported object had ended before the export (`Settled.exported`), so none is left that could write an attribute,
and the hand-off is clean (`clean_handoff`).
-/

namespace HybridStream
namespace Hea

open Lib Py Tasks

variable {F σ : Type}

namespace Handoff

/-- The operator is deregistered in the state that the snapshot has, and all it has ever sent is for calls that the
    snapshot reflects. -/
def Clean (O : OperatorObjects F σ) (st : Handoff F σ) : Prop :=
  ∀ ex, st.exported = some ex →
    (∀ final, st.final = some final → final = ex.state) ∧
      ∀ send ∈ st.tasks.sends, ∀ call, st.tasks.calls[send.1]? = some call →
        O.given call.registration = ex.object → send.1 ∈ ex.reflected

/-- No record is dispatched to the operator while its class is CPU-bound, nor after its export; none of its calls is in
    `process` when the state is read; and from the request on no other object is registered under its id. -/
def careful (O : OperatorObjects F σ) (oid : String) (st : Handoff F σ) : HandoffEvent F σ → Bool
  | .engine (.dispatch oid') =>
      oid' ≠ oid || (st.tasks.operators.get oid).all (fun r => !st.tasks.cpuBoundOf r && st.exported.isNone)
  | .engine (.register oid' _ _) =>
      oid' ≠ oid || st.requested.all (fun op => O.given st.tasks.registrations.length = op)
  | .getState =>
      st.requested.all (fun op => st.tasks.calls.all (fun call =>
        O.given call.registration ≠ op || !call.phase.inProcess))
  | _ => true

/-! ## Calls before and after a step

Where a call of the state after a step comes from: it was there, in the same phase or an earlier one, or it is a
dispatch. -/

section Calls

variable {tasks tasks' : Tasks F} {event : Tasks.Event F} {c : Nat} {call' : Call F}

theorem returned_emit (pending : List (String × Record F)) : (Phase.emit pending).returned = true := by
  cases pending <;> rfl

/-- A call that was there before: what has returned stays so, and `process` ends by its own step only. -/
theorem call_before (howned : Owned tasks) (hstep : tasks.step event = some tasks') {call : Call F}
    (hc : tasks.calls[c]? = some call) (hc' : tasks'.calls[c]? = some call') :
    call'.operatorId = call.operatorId ∧ call'.registration = call.registration ∧
      (call.phase.returned = true → call'.phase.returned = true) ∧
      (call.phase.inProcess = true → call'.phase.inProcess = true ∨
        (call'.phase.returned = true ∧ ∃ result, event = .processed c result)) := by
  rcases call_of_step howned hc hstep with h | ⟨hqueued, -, h⟩ | hevent
  · rw [hc'] at h
    cases h
    exact ⟨rfl, rfl, id, Or.inl⟩
  · -- taken by a worker
    rw [hc'] at h
    cases h
    rw [hqueued]
    exact ⟨rfl, rfl, nofun, nofun⟩
  · rcases call_of_coroutine hc hstep hevent with ⟨emitAs, result, hphase, h⟩ | ⟨_, pending, accepted, hphase, -, h⟩
    · rw [hc'] at h
      cases h
      refine ⟨rfl, rfl, fun _ => returned_emit _, fun _ => Or.inr ⟨returned_emit _, ?_⟩⟩
      cases event with
      | processed c' result =>
          cases hevent
          exact ⟨result, rfl⟩
      | send c' accepted =>
          -- a send needs a call in `_emit`
          cases hevent
          obtain ⟨_, _, _, _, _, hc₁, -⟩ := send_eq_some hstep
          rw [hc] at hc₁
          cases hc₁
          cases hphase
      | register | makeQueue | dispatch | startWorker | takeItem | taskDone | deregister | joined => cases hevent
    · rw [hc'] at h
      cases h
      rw [hphase]
      refine ⟨rfl, rfl, fun _ => ?_, nofun⟩
      cases accepted with
      | true  => exact returned_emit pending
      | false => rfl

/-- A new call is a dispatch to a registered operator; inline, it begins in `process`. -/
theorem call_new (hstep : tasks.step event = some tasks') (hc : tasks.calls[c]? = none)
    (hc' : tasks'.calls[c]? = some call') :
    event = .dispatch call'.operatorId ∧ tasks.operators.get call'.operatorId = some call'.registration ∧
      (tasks.cpuBoundOf call'.registration = false → call'.phase.inProcess = true) := by
  rcases calls_of_step hstep with hlength | ⟨oid, call, rfl, hr, hcalls⟩
  · have hlt := lt_length_of_getElem? hc'
    rw [hlength] at hlt
    exact absurd hlt (Nat.not_lt.mpr (List.getElem?_eq_none_iff.mp hc))
  · rw [hcalls] at hc'
    rcases getElem?_concat_eq_some.mp hc' with hc' | ⟨-, rfl⟩
    · rw [hc] at hc'
      cases hc'
    · have hdispatch : (tasks.dispatch oid).calls = tasks.calls ++ [call'] := by
        cases hstep
        exact hcalls
      rcases dispatch_cases tasks oid with ⟨-, heq⟩ |
        ⟨r, hr', ⟨q, queue, hcpu, -, -, heq⟩ | ⟨hcpu, -, heq⟩ | ⟨-, heq⟩⟩
      · rw [heq] at hdispatch
        exact absurd (congrArg List.length hdispatch) (by simp)
      all_goals
        rw [heq] at hdispatch
        obtain rfl := List.singleton_inj.mp (List.append_cancel_left hdispatch)
        refine ⟨rfl, hr', fun hinline => ?_⟩
      · rw [hcpu] at hinline; cases hinline
      · rw [hcpu] at hinline; cases hinline
      · rfl

end Calls

/-! ## The invariant

What careful steps keep, over all calls of the operator at once. The export is taken between two steps, so the calls
that the snapshot reflects are those that had ended by then, and careful steps admit no other afterwards. -/

variable {O : OperatorObjects F σ} {oid : String} {st st' : Handoff F σ}

/-- What careful steps keep. Every call of the operator is inline, and in `process` or ended on the object; since the
    export all of them have ended, and the object is in the exported state. -/
structure Settled (O : OperatorObjects F σ) (oid : String) (st : Handoff F σ) : Prop where
  owned        : Owned st.tasks
  registration : ∀ (r : Nat) reg, st.tasks.registrations[r]? = some reg → O.operatorId (O.given r) = reg.operatorId
  requested    : ∀ op, st.requested = some op →
    O.operatorId op = oid ∧ ∀ r, st.tasks.operators.get oid = some r → O.given r = op
  inline       : ∀ (c : Nat) call, st.tasks.calls[c]? = some call → call.operatorId = oid →
    st.tasks.cpuBoundOf call.registration = false ∧
      (call.phase.inProcess = true ∨ (call.phase.returned = true ∧ c ∈ st.returned))
  exported     : ∀ ex, st.exported = some ex →
    st.requested = some ex.object ∧ st.stateOf O ex.object = ex.state ∧
      ∀ (c : Nat) call, st.tasks.calls[c]? = some call → O.given call.registration = ex.object →
        call.phase.returned = true ∧ c ∈ ex.reflected
  early        : st.exported = none → st.final = none
  final        : ∀ ex final, st.exported = some ex → st.final = some final → final = ex.state

namespace Settled

theorem of_init (h : Init st) : Settled O oid st := by
  obtain ⟨htasks, -, hrequested, hexported, hfinal⟩ := h
  refine ⟨by rw [htasks]; exact .started, ?_, ?_, ?_, ?_, fun _ => hfinal, ?_⟩
  · rw [htasks]
    rintro r reg ⟨⟩
  · rw [hrequested]
    rintro op ⟨⟩
  · rw [htasks]
    rintro c call ⟨⟩
  · rw [hexported]
    rintro ex ⟨⟩
  · rw [hexported]
    rintro ex final ⟨⟩

/-- A call of an object with this id was dispatched under it. -/
theorem operatorId_of_call (h : Settled O oid st) {c : Nat} {call : Call F} (hc : st.tasks.calls[c]? = some call)
    (hid : O.operatorId (O.given call.registration) = oid) : call.operatorId = oid := by
  obtain ⟨reg, hreg, hcall⟩ := h.owned.call c call hc
  exact hcall.symm.trans ((h.registration _ reg hreg).symm.trans hid)

/-- The exported object has the operator's id. -/
theorem operatorId_of_export (h : Settled O oid st) {ex : Export F} (hex : st.exported = some ex) :
    O.operatorId ex.object = oid := (h.requested ex.object (h.exported ex hex).1).1

section Engine

variable {event : Tasks.Event F} {tasks : Tasks F}

theorem mem_returnedBy {c : Nat} (h : c ∈ st.returned) : c ∈ st.returnedBy event := by
  cases event with
  | processed c' result =>
      unfold returnedBy
      dsimp only
      split
      · split
        · exact h
        · exact List.mem_append_left _ h
      · exact h
  | register | makeQueue | dispatch | send | startWorker | takeItem | taskDone | deregister | joined => exact h

/-- Registrations enter the tables with the id of their object. -/
theorem registration_engine (h : Settled O oid st) (hadmits : admits O st.tasks event = true)
    (hstep : st.tasks.step event = some tasks) (r : Nat) (reg : Registration)
    (hr : tasks.registrations[r]? = some reg) : O.operatorId (O.given r) = reg.operatorId := by
  rcases tables_of_step hstep with ⟨heq, -⟩ | ⟨reg', rfl, heq, -⟩ | ⟨r', oid', topics, -, -, heq, -⟩ |
    ⟨oid', r', -, -, heq, -⟩
  · exact h.registration r reg (heq ▸ hr)
  · rw [heq] at hr
    rcases getElem?_concat_eq_some.mp hr with hr | ⟨rfl, rfl⟩
    · exact h.registration r reg hr
    · have hid := (Bool.and_eq_true_iff.mp hadmits).1
      exact (of_decide_eq_true hid).symm
  · exact h.registration r reg (heq ▸ hr)
  · exact h.registration r reg (heq ▸ hr)

/-- Under the id stands the requested object, or nothing. -/
theorem requested_engine (h : Settled O oid st) (hcareful : careful O oid st (.engine event) = true)
    (hstep : st.tasks.step event = some tasks) (op : Nat) (hop : st.requested = some op) :
    O.operatorId op = oid ∧ ∀ r, tasks.operators.get oid = some r → O.given r = op := by
  obtain ⟨hid, hcurrent⟩ := h.requested op hop
  refine ⟨hid, fun r hr => ?_⟩
  rcases tables_of_step hstep with ⟨-, heq, -⟩ | ⟨reg, rfl, -, heq, -⟩ | ⟨r', oid', topics, -, -, -, heq, -⟩ |
    ⟨oid', r', -, -, -, heq, -⟩
  · exact hcurrent r (heq ▸ hr)
  · rw [heq, Dict.get_set] at hr
    split at hr
    · -- entered now: the guard says that it is the same object
      rename_i hoid
      cases hr
      have hsame := Bool.or_eq_true_iff.mp hcareful
      rw [hop] at hsame
      exact of_decide_eq_true (hsame.resolve_left (by simp [hoid]))
    · exact hcurrent r hr
  · exact hcurrent r (heq ▸ hr)
  · rw [heq] at hr
    exact hcurrent r (Dict.get_of_get_pop hr).2

/-- A careful dispatch to the operator finds an inline class, before the export. -/
theorem dispatched (hcareful : careful O oid st (.engine (.dispatch oid)) = true) {r : Nat}
    (hr : st.tasks.operators.get oid = some r) : st.tasks.cpuBoundOf r = false ∧ st.exported = none := by
  have hall := (Bool.or_eq_true_iff.mp hcareful).resolve_left (by simp)
  rw [hr] at hall
  obtain ⟨hcpu, hnone⟩ := Bool.and_eq_true_iff.mp hall
  exact ⟨by simpa using hcpu, Option.isNone_iff_eq_none.mp hnone⟩

theorem cpuBoundOf_step (hstep : st.tasks.step event = some tasks) {r : Nat}
    (hr : ∃ reg, st.tasks.registrations[r]? = some reg ∧ reg.operatorId = oid) :
    tasks.cpuBoundOf r = st.tasks.cpuBoundOf r := by
  obtain ⟨reg, hreg, -⟩ := hr
  rw [cpuBoundOf_of_some hreg, cpuBoundOf_of_some (registration_of_step hreg hstep)]

theorem inline_engine (h : Settled O oid st) (hcareful : careful O oid st (.engine event) = true)
    (hstep : st.tasks.step event = some tasks) (c : Nat) (call' : Call F) (hc' : tasks.calls[c]? = some call')
    (hid : call'.operatorId = oid) : tasks.cpuBoundOf call'.registration = false ∧
      (call'.phase.inProcess = true ∨ (call'.phase.returned = true ∧ c ∈ st.returnedBy event)) := by
  cases hc : st.tasks.calls[c]? with
  | none =>
      obtain ⟨rfl, hr, hphase⟩ := call_new hstep hc hc'
      rw [hid] at hcareful hr
      have hcpu := (dispatched hcareful hr).1
      rw [cpuBoundOf_step hstep (h.owned.operator oid _ hr)]
      exact ⟨hcpu, Or.inl (hphase hcpu)⟩
  | some call =>
      obtain ⟨hoid, hregistration, hreturned, hprocess⟩ := call_before h.owned hstep hc hc'
      rw [hid] at hoid
      obtain ⟨hcpu, hphase⟩ := h.inline c call hc hoid.symm
      rw [hregistration, cpuBoundOf_step hstep (h.owned.call c call hc)]
      refine ⟨hcpu, ?_⟩
      rcases hphase with hphase | ⟨hphase, hmem⟩
      · rcases hprocess hphase with hphase' | ⟨hphase', result, rfl⟩
        · exact Or.inl hphase'
        · -- `process` ends in the engine
          refine Or.inr ⟨hphase', ?_⟩
          unfold returnedBy
          dsimp only
          rw [hc]
          dsimp only
          rw [hcpu]
          exact List.mem_append_right _ (List.mem_singleton.mpr rfl)
      · exact Or.inr ⟨hreturned hphase, mem_returnedBy hmem⟩

/-- After the export, the calls of the object are those that had ended by then. -/
theorem exported_engine (h : Settled O oid st) (hcareful : careful O oid st (.engine event) = true)
    (hstep : st.tasks.step event = some tasks) {ex : Export F} (hex : st.exported = some ex) (c : Nat)
    (call' : Call F) (hc' : tasks.calls[c]? = some call') (hobject : O.given call'.registration = ex.object)
    (hregistered : O.operatorId (O.given call'.registration) = call'.operatorId) :
    call'.phase.returned = true ∧ c ∈ ex.reflected := by
  cases hc : st.tasks.calls[c]? with
  | none =>
      obtain ⟨rfl, hr, -⟩ := call_new hstep hc hc'
      -- a dispatch after the export
      rw [← hregistered, hobject, h.operatorId_of_export hex] at hcareful hr
      have hnone := (dispatched hcareful hr).2
      rw [hex] at hnone
      cases hnone
  | some call =>
      obtain ⟨-, hregistration, hreturned, -⟩ := call_before h.owned hstep hc hc'
      rw [hregistration] at hobject
      obtain ⟨hphase, hmem⟩ := (h.exported ex hex).2.2 c call hc hobject
      exact ⟨hreturned hphase, hmem⟩

/-- Nothing is final before the export. -/
theorem early_engine (h : Settled O oid st) (hnone : st.exported = none) : st.finalBy O oid event = none := by
  cases event with
  | deregister oid' =>
      unfold finalBy
      dsimp only
      split
      · rw [if_neg (fun hboth => by rw [hnone] at hboth; cases hboth.2)]
        exact h.early hnone
      · exact h.early hnone
  | register | makeQueue | dispatch | processed | send | startWorker | takeItem | taskDone | joined =>
      exact h.early hnone

/-- The operator is deregistered in the state it was exported in. -/
theorem final_engine (h : Settled O oid st) {ex : Export F} {final : Record F} (hex : st.exported = some ex)
    (hfinal : st.finalBy O oid event = some final) : final = ex.state := by
  cases event with
  | deregister oid' =>
      unfold finalBy at hfinal
      dsimp only at hfinal
      split at hfinal
      · rename_i r hr
        split at hfinal
        · cases hfinal
          obtain ⟨hrequested, hstate, -⟩ := h.exported ex hex
          rw [(h.requested ex.object hrequested).2 r hr]
          exact hstate
        · exact h.final ex final hex hfinal
      · exact h.final ex final hex hfinal
  | register | makeQueue | dispatch | processed | send | startWorker | takeItem | taskDone | joined =>
      exact h.final ex final hex hfinal

theorem engine (h : Settled O oid st) (hcareful : careful O oid st (.engine event) = true)
    (hstep : st.step O oid (.engine event) = some st') : Settled O oid st' := by
  obtain ⟨hadmits, tasks, htasks, rfl⟩ := engine_eq_some hstep
  have howned : Owned tasks := h.owned.step htasks
  have hregistration := h.registration_engine hadmits htasks
  refine ⟨howned, hregistration, h.requested_engine hcareful htasks, h.inline_engine hcareful htasks,
    fun ex hex => ?_, h.early_engine, fun ex final hex hfinal => h.final_engine hex hfinal⟩
  obtain ⟨hrequested, hstate, -⟩ := h.exported ex hex
  refine ⟨hrequested, hstate, fun c call hc hobject => ?_⟩
  obtain ⟨reg, hreg, hcall⟩ := howned.call c call hc
  exact h.exported_engine hcareful htasks hex c call hc hobject ((hregistration _ reg hreg).trans hcall)

end Engine

/-- No call of the exported object is left that could write. -/
theorem write (h : Settled O oid st) {c : Nat} {attrs : σ} (hstep : st.step O oid (.write c attrs) = some st') :
    Settled O oid st' := by
  obtain ⟨call, hc, hprocess, -, rfl⟩ := write_eq_some hstep
  refine ⟨h.owned, h.registration, h.requested, h.inline, fun ex hex => ?_, h.early, h.final⟩
  obtain ⟨hrequested, hstate, hcalls⟩ := h.exported ex hex
  have hne : ex.object ≠ O.given call.registration := by
    intro heq
    have hreturned := (hcalls c call hc heq.symm).1
    cases hphase : call.phase with
    | queued | dropped | processing => rw [hphase] at hreturned; cases hreturned
    | emitting | ended => rw [hphase] at hprocess; cases hprocess
  refine ⟨hrequested, ?_, hcalls⟩
  unfold stateOf at hstate ⊢
  dsimp only
  rw [Function.update_of_ne hne]
  exact hstate

theorem triggerSnapshot (h : Settled O oid st) (hstep : st.step O oid .triggerSnapshot = some st') :
    Settled O oid st' := by
  obtain ⟨r, hr, hnone, rfl⟩ := triggerSnapshot_eq_some hstep
  refine ⟨h.owned, h.registration, ?_, h.inline, fun ex hex => ?_, h.early, h.final⟩
  · rintro _ ⟨⟩
    obtain ⟨reg, hreg, hoid⟩ := h.owned.operator oid r hr
    refine ⟨(h.registration r reg hreg).trans hoid, fun r' hr' => ?_⟩
    rw [hr] at hr'
    cases hr'
    rfl
  · have hrequested := (h.exported ex hex).1
    rw [hnone] at hrequested
    cases hrequested

/-- Every call of the object has ended when its state is read. -/
theorem getState (h : Settled O oid st) (hcareful : careful O oid st .getState = true)
    (hstep : st.step O oid .getState = some st') : Settled O oid st' := by
  obtain ⟨op, hop, hnone, rfl⟩ := getState_eq_some hstep
  refine ⟨h.owned, h.registration, h.requested, h.inline, ?_, nofun, ?_⟩
  · rintro _ ⟨⟩
    refine ⟨hop, rfl, fun c call hc hobject => ?_⟩
    have hall : st.requested.all (fun op => st.tasks.calls.all (fun call =>
      O.given call.registration ≠ op || !call.phase.inProcess)) = true := hcareful
    rw [hop] at hall
    have hidle := List.all_eq_true.mp hall call (List.mem_of_getElem? hc)
    have hid : call.operatorId = oid := h.operatorId_of_call hc (hobject ▸ (h.requested op hop).1)
    rcases (h.inline c call hc hid).2 with hphase | hreturned
    · rw [hphase] at hidle
      simp [hobject] at hidle
    · exact hreturned
  · rintro ex final - hfinal
    rw [h.early hnone] at hfinal
    cases hfinal

end Settled

theorem Settled.step {event : HandoffEvent F σ} (h : Settled O oid st) (hcareful : careful O oid st event = true)
    (hstep : st.step O oid event = some st') : Settled O oid st' := by
  cases event with
  | engine event => exact h.engine hcareful hstep
  | write c attrs => exact h.write hstep
  | triggerSnapshot => exact h.triggerSnapshot hstep
  | getState => exact h.getState hcareful hstep

/-- **The hand-off is clean in every run of careful steps**, whatever the operators write and put out and however the
    coroutines of the engine take turns. `Settled` is kept by every careful step: once an object is exported, all its
    calls have returned and are in the snapshot, so none is left that could change its attributes, and what is still
    sent is of records the snapshot reflects. -/
theorem clean_handoff (O : OperatorObjects F σ) (oid : String)
    (h : ((system O oid).restrict (fun st event => careful O oid st event = true)).Reachable st) : st.Clean O := by
  have hsettled : Settled O oid st :=
    h.invariant (fun _ => .of_init) (fun st event st' hst hstep => hst.step hstep.2 hstep.1)
  intro ex hex
  refine ⟨fun final hfinal => hsettled.final ex final hex hfinal, fun send _ call hcall hobject => ?_⟩
  exact ((hsettled.exported ex hex).2.2 send.1 call hcall hobject).2

/-! ## Two records past the snapshot

An operator that counts, in both directions: a hand-off with every record before the export, and the two ways in which
one is missed. The pool works on a copy, so what it counted is put out and is in no snapshot, whenever it was. -/

/-- An operator that counts the records of its topic, and nothing else. -/
def countingObjects (cpuBound : Bool) : OperatorObjects ℚ Nat :=
  ⟨fun _ => 0, fun _ => "op", fun _ => cpuBound, fun _ => (BaseOperator.counting "op").getState⟩

/-- What its `process` returns and writes, from a count on. -/
def countRecord (count : Nat) : Except PyError (List (Record ℚ)) × Nat :=
  ((BaseOperator.counting "op").process ⟨0, fun _ => 0⟩ ∅).exec count

/-- An engine that nothing is registered on. -/
def beforeHandoff : Handoff ℚ Nat := ⟨Tasks.started, fun _ => 0, [], none, none, none⟩

/-- A record that is processed in the engine, from its dispatch to its output. -/
def countInline : List (HandoffEvent ℚ Nat) :=
  [.engine (.dispatch "op"), .write 0 (countRecord 0).2, .engine (.processed 0 (countRecord 0).1),
    .engine (.send 0 true)]

/-- A record that is processed in the pool, on a copy that counts for itself. -/
def countPooled : List (HandoffEvent ℚ Nat) :=
  [.engine (.makeQueue 0), .engine (.startWorker 0), .engine (.dispatch "op"), .engine (.takeItem 0),
    .engine (.processed 0 (countRecord 0).1), .engine (.send 0 true), .engine (.taskDone 0)]

def exportEvents : List (HandoffEvent ℚ Nat) := [.triggerSnapshot, .getState]

/-- One output is out, and the hand-off has come to its end. -/
def Delivered (st : Handoff ℚ Nat) : Prop := st.tasks.sends.length = 1 ∧ st.exported.isSome ∧ st.final.isSome

instance (st : Handoff ℚ Nat) : Decidable (Delivered st) :=
  inferInstanceAs (Decidable (st.tasks.sends.length = 1 ∧ st.exported.isSome ∧ st.final.isSome))

/-- One record before the export, none after it. -/
theorem clean_handoff_counted : ∃ st : Handoff ℚ Nat, Delivered st ∧ st.Clean (countingObjects false) := by
  have hrun : (Lts.exec (Lts.guardStep (step (countingObjects false) "op")
      (fun st event => careful (countingObjects false) "op" st event = true))
      ([.engine (.register "op" false ["counts"])] ++ countInline ++ exportEvents ++ [.engine (.deregister "op")])
      beforeHandoff).any (fun st => Delivered st) = true := by decide
  obtain ⟨st, hexec, hst⟩ := (Option.any_eq_true _ _).mp hrun
  exact ⟨st, of_decide_eq_true hst, clean_handoff (countingObjects false) "op"
    (Lts.restrict_reachable_of_exec ⟨rfl, rfl, rfl, rfl, rfl⟩ hexec)⟩

/-- Something was sent for a call that the snapshot does not reflect. -/
def slipped (O : OperatorObjects ℚ Nat) (st : Handoff ℚ Nat) : Bool :=
  st.exported.any (fun ex => st.tasks.sends.any (fun send =>
    send.1 ∉ ex.reflected && (st.tasks.calls[send.1]?).any (fun call => O.given call.registration = ex.object)))

theorem not_clean_of_slipped {O : OperatorObjects ℚ Nat} {st : Handoff ℚ Nat} (h : slipped O st = true) :
    ¬ st.Clean O := by
  intro hclean
  obtain ⟨ex, hex, hany⟩ := (Option.any_eq_true _ _).mp h
  obtain ⟨send, hmem, hboth⟩ := List.any_eq_true.mp hany
  obtain ⟨hout, hcall⟩ := Bool.and_eq_true_iff.mp hboth
  obtain ⟨call, hc, hobject⟩ := (Option.any_eq_true _ _).mp hcall
  exact of_decide_eq_true hout ((hclean ex hex).2 send hmem call hc (of_decide_eq_true hobject))

/-- The count in a state of the operator. -/
def countIn (state : Record ℚ) : Int :=
  match state.get "count" with
  | some (.int i) => i
  | _             => -1

/-- A record between the two calls is counted and put out: the snapshot has 0, the operator is deregistered with 1. -/
theorem counted_after_snapshot :
    ∃ st : Handoff ℚ Nat, (system (countingObjects false) "op").Reachable st ∧ Delivered st ∧
      st.exported.map (fun ex => countIn ex.state) = some 0 ∧ st.final.map countIn = some 1 ∧
      ¬ st.Clean (countingObjects false) := by
  have hrun : (Lts.exec (step (countingObjects false) "op")
      ([.engine (.register "op" false ["counts"])] ++ exportEvents ++ countInline ++ [.engine (.deregister "op")])
      beforeHandoff).any (fun st => Delivered st ∧ st.exported.map (fun ex => countIn ex.state) = some 0 ∧
        st.final.map countIn = some 1 ∧ slipped (countingObjects false) st) = true := by decide
  obtain ⟨st, hexec, hst⟩ := (Option.any_eq_true _ _).mp hrun
  obtain ⟨hdelivered, hexported, hfinal, hslipped⟩ := of_decide_eq_true hst
  exact ⟨st, Lts.reachable_of_exec ⟨rfl, rfl, rfl, rfl, rfl⟩ hexec, hdelivered, hexported, hfinal,
    not_clean_of_slipped hslipped⟩

/-- A CPU-bound operator whose record was put out before the snapshot was taken: the count never reaches the object
    that the snapshot is taken of. -/
theorem counted_in_the_pool :
    ∃ st : Handoff ℚ Nat, (system (countingObjects true) "op").Reachable st ∧ Delivered st ∧
      ¬ st.Clean (countingObjects true) := by
  have hrun : (Lts.exec (step (countingObjects true) "op")
      ([.engine (.register "op" true ["counts"])] ++ countPooled ++ exportEvents ++ [.engine (.deregister "op")])
      beforeHandoff).any (fun st => Delivered st ∧ slipped (countingObjects true) st) = true := by decide
  obtain ⟨st, hexec, hst⟩ := (Option.any_eq_true _ _).mp hrun
  obtain ⟨hdelivered, hslipped⟩ := of_decide_eq_true hst
  exact ⟨st, Lts.reachable_of_exec ⟨rfl, rfl, rfl, rfl, rfl⟩ hexec, hdelivered, not_clean_of_slipped hslipped⟩

end Handoff

end Hea
end HybridStream
