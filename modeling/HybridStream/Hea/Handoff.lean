import HybridStream.Hea.Tasks
import HybridStream.Py.Value

/-!
# `Hea.Handoff` — an operator between its snapshot and its termination

The two calls of a migration that reach the HEA, among all that its coroutines do (`Hea.Tasks`). The handler of
`TriggerSnapshot` looks the operator up on its own thread; later the event loop runs `create_migration_snapshot`, which
reads `get_state()` of the object that was found. `TerminateOperator` runs `deregister_operator`, which takes the
operator out of the dictionaries before anything else. Nothing in between stops records from being dispatched to it.

A call of `process` that runs in the engine may write the attributes of its operator at any time until it returns; one
that runs in the pool works on a pickled copy. What it writes and what it returns is the environment's, so a run here
is a run of any operator class. The classes of the repository leave `on_start` and `on_stop` as they are in
`BaseOperator`, empty.
-/

namespace HybridStream
namespace Hea

open Lib Py

variable {F σ : Type}

/-- The operator objects: which one the n-th call of `register_operator` is given, and what is fixed about each. -/
structure OperatorObjects (F σ : Type) where
  given      : Nat → Nat
  operatorId : Nat → String
  cpuBound   : Nat → Bool
  getState   : Nat → σ → Record F

/-- What `create_migration_snapshot` has read: from which object, its `get_state()`, and the calls whose `process` had
    ended on this very object by then. -/
structure Export (F : Type) where
  object    : Nat
  state     : Record F
  reflected : List Nat

/-- The engine, the attributes of the operator objects, and how far the migration of one operator has come. `returned`
    is the history of the calls whose `process` has ended in the engine, `final` the `get_state()` of the operator when
    it was deregistered after its export. -/
structure Handoff (F σ : Type) where
  tasks     : Tasks F
  attrs     : Nat → σ
  returned  : List Nat
  requested : Option Nat
  exported  : Option (Export F)
  final     : Option (Record F)

/-- What happens during a hand-off. -/
inductive HandoffEvent (F σ : Type) where
  /-- A step of the engine's coroutines. -/
  | engine (event : Tasks.Event F)
  /-- A call of `process` in the engine writes the attributes of its operator. -/
  | write (call : Nat) (attrs : σ)
  /-- The handler of `TriggerSnapshot` finds the operator. -/
  | triggerSnapshot
  /-- `create_migration_snapshot` reads the state. -/
  | getState

namespace Tasks

/-- The call is in `process`. -/
def Phase.inProcess : Phase F → Bool
  | .processing _ => true
  | _             => false

/-- `process` of the call has ended. -/
def Phase.returned : Phase F → Bool
  | .emitting _ => true
  | .ended      => true
  | _           => false

end Tasks

namespace Handoff

open Tasks

/-- `get_state()` of an object. -/
def stateOf (O : OperatorObjects F σ) (st : Handoff F σ) (op : Nat) : Record F := O.getState op (st.attrs op)

/-- A registration is of the object it is given. -/
def admits (O : OperatorObjects F σ) (tasks : Tasks F) : Tasks.Event F → Bool
  | .register oid cpuBound _ =>
      let op := O.given tasks.registrations.length
      oid = O.operatorId op && cpuBound = O.cpuBound op
  | _ => true

/-- `process` has ended in the engine, and not in the pool. -/
def returnedBy (st : Handoff F σ) : Tasks.Event F → List Nat
  | .processed c _ =>
      match st.tasks.calls[c]? with
      | some call => if st.tasks.cpuBoundOf call.registration then st.returned else st.returned ++ [c]
      | none      => st.returned
  | _ => st.returned

/-- A deregistration of the operator after its export finds it in this state. -/
def finalBy (O : OperatorObjects F σ) (oid : String) (st : Handoff F σ) : Tasks.Event F → Option (Record F)
  | .deregister oid' =>
      match st.tasks.operators.get oid with
      | some r => if oid' = oid ∧ st.exported.isSome then some (st.stateOf O (O.given r)) else st.final
      | none   => st.final
  | _ => st.final

/-- One step of the hand-off of the operator `oid`. -/
def step (O : OperatorObjects F σ) (oid : String) (st : Handoff F σ) : HandoffEvent F σ → Option (Handoff F σ)
  | .engine event =>
      if admits O st.tasks event then
        (st.tasks.step event).map (fun tasks =>
          { st with tasks := tasks, returned := st.returnedBy event, final := st.finalBy O oid event })
      else none
  | .write c attrs => do
      let call ← st.tasks.calls[c]?
      if call.phase.inProcess ∧ st.tasks.cpuBoundOf call.registration = false then
        some { st with attrs := Function.update st.attrs (O.given call.registration) attrs }
      else none
  | .triggerSnapshot => do
      let r ← st.tasks.operators.get oid
      if st.requested = none then some { st with requested := some (O.given r) } else none
  | .getState => do
      let op ← st.requested
      if st.exported.isNone then some { st with exported := some ⟨op, st.stateOf O op, st.returned⟩ } else none

/-- The engine has just started. -/
def Init (st : Handoff F σ) : Prop :=
  st.tasks = Tasks.started ∧ st.returned = [] ∧ st.requested = none ∧ st.exported = none ∧ st.final = none

def system (O : OperatorObjects F σ) (oid : String) : Lts (Handoff F σ) (HandoffEvent F σ) :=
  Lts.ofStep Init (step O oid)

/-! ## What one step does

The steps of the hand-off read backwards: a step of the engine, a write of a call to its object, and the two parts of
the export. -/

section Steps

variable {O : OperatorObjects F σ} {oid : String} {st st' : Handoff F σ} {c : Nat} {attrs : σ}

theorem engine_eq_some {event : Tasks.Event F} (h : st.step O oid (.engine event) = some st') :
    admits O st.tasks event = true ∧ ∃ tasks, st.tasks.step event = some tasks ∧
      st' = { st with tasks := tasks, returned := st.returnedBy event, final := st.finalBy O oid event } := by
  obtain ⟨hadmits, hsome⟩ := Option.ite_none_right_eq_some.mp h
  obtain ⟨tasks, htasks, heq⟩ := Option.map_eq_some_iff.mp hsome
  exact ⟨hadmits, tasks, htasks, heq.symm⟩

theorem write_eq_some (h : st.step O oid (.write c attrs) = some st') :
    ∃ call, st.tasks.calls[c]? = some call ∧ call.phase.inProcess = true ∧
      st.tasks.cpuBoundOf call.registration = false ∧
      st' = { st with attrs := Function.update st.attrs (O.given call.registration) attrs } := by
  obtain ⟨call, hc, h⟩ := Option.bind_eq_some_iff.mp h
  obtain ⟨⟨hphase, hcpu⟩, hsome⟩ := Option.ite_none_right_eq_some.mp h
  exact ⟨call, hc, hphase, hcpu, (Option.some.inj hsome).symm⟩

theorem triggerSnapshot_eq_some (h : st.step O oid .triggerSnapshot = some st') :
    ∃ r, st.tasks.operators.get oid = some r ∧ st.requested = none ∧
      st' = { st with requested := some (O.given r) } := by
  obtain ⟨r, hr, h⟩ := Option.bind_eq_some_iff.mp h
  obtain ⟨hnone, hsome⟩ := Option.ite_none_right_eq_some.mp h
  exact ⟨r, hr, hnone, (Option.some.inj hsome).symm⟩

theorem getState_eq_some (h : st.step O oid .getState = some st') :
    ∃ op, st.requested = some op ∧ st.exported = none ∧
      st' = { st with exported := some ⟨op, st.stateOf O op, st.returned⟩ } := by
  obtain ⟨op, hop, h⟩ := Option.bind_eq_some_iff.mp h
  obtain ⟨hnone, hsome⟩ := Option.ite_none_right_eq_some.mp h
  exact ⟨op, hop, Option.isNone_iff_eq_none.mp hnone, (Option.some.inj hsome).symm⟩

end Steps

end Handoff

end Hea
end HybridStream
