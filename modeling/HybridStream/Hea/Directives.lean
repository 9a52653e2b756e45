import HybridStream.Hea.Tasks
import HybridStream.Py.Value

/-!
# `Hea.Directives` — placement directives on a running engine

`ApplyPlacement` and `TerminateOperator` of `hea/grpc/server.py`. Both handlers first ask for the event loop, on the
thread that gRPC runs them on. What `asyncio.get_event_loop()` answers there is a parameter of each request: on a thread
of the `ThreadPoolExecutor` that `serve` builds it raises `RuntimeError`, in the main thread, where the tests call the
handlers, it does not. Where it raises, the request is refused and nothing is done.

Otherwise a placement directive is acknowledged, and `_apply_placement_async` goes through its entries on the event
loop. An operator that is given to another tier is deregistered, and the coroutine waits for the queue of that operator
before it takes up the next entry. An operator that is given to this node is logged. Directives, the deregistrations
that `TerminateOperator` asks for and the coroutines of the engine run interleaved.
-/

namespace HybridStream
namespace Hea

open Lib Py

variable {F : Type}

/-- A `_apply_placement_async`: the entries it has not come to, and the deregistration it is in. -/
structure Directive where
  entries : List (String × String)
  within  : Option Nat
  deriving DecidableEq

/-- The coroutine has returned: no entry is left, and none is under way. -/
def Directive.done (directive : Directive) : Bool := directive.entries.isEmpty && directive.within.isNone

/-- An engine and the directives it was given. -/
structure Management (F : Type) where
  tasks      : Tasks F
  directives : List Directive

/-- `PlacementAck`, with a text where the directive is refused. -/
structure PlacementAck where
  directiveId : String
  accepted    : Bool
  errorMsg    : String
  deriving DecidableEq

/-- `TerminateAck`, with a text where the termination is refused. -/
structure TerminateAck where
  operatorId : String
  success    : Bool
  errorMsg   : String
  deriving DecidableEq

/-- What reaches an HEA, and what goes on there. `eventLoop` is the outcome of `asyncio.get_event_loop()`. -/
inductive ManagementEvent (F : Type) where
  | engine (event : Tasks.Event F)
  | applyPlacement (directiveId : String) (operatorToTier : Dict String String) (eventLoop : Except PyError Unit)
  | terminateOperator (operatorId : String) (eventLoop : Except PyError Unit)
  | proceed (i : Nat)

namespace Management

/-- The deregistration waits for a queue. -/
def waits (st : Tasks F) (d : Nat) : Bool := ((st.deregistrations[d]?).bind (fun dereg => dereg.waiting)).isSome

/-- The loop of `_apply_placement_async`, up to a deregistration that has to wait. -/
def applyEntries (nodeId : String) : List (String × String) → Tasks F → Tasks F × Directive
  | [], st => (st, ⟨[], none⟩)
  | (operatorId, tierId) :: entries, st =>
      if tierId = nodeId then applyEntries nodeId entries st
      else if st.operators.contains operatorId then
        if waits (st.deregister operatorId) st.deregistrations.length then
          (st.deregister operatorId, ⟨entries, some st.deregistrations.length⟩)
        else applyEntries nodeId entries (st.deregister operatorId)
      else applyEntries nodeId entries st

/-- A directive runs from where it stands. -/
def proceed (nodeId : String) (st : Management F) (i : Nat) : Option (Management F) := do
  let directive ← st.directives[i]?
  if directive.done ∨ directive.within.any (fun d => waits st.tasks d) then none
  else
    let (tasks, directive') := applyEntries nodeId directive.entries st.tasks
    some ⟨tasks, st.directives.set i directive'⟩

/-- `ApplyPlacement`: the coroutine is put on the event loop if one is found, and otherwise nothing is applied. The
    answer does not wait for it. -/
def applyPlacement (st : Management F) (directiveId : String) (operatorToTier : Dict String String) :
    Except PyError Unit → Management F × PlacementAck
  | .ok _    => ({ st with directives := st.directives ++ [⟨operatorToTier.entries, none⟩] }, ⟨directiveId, true, ""⟩)
  | .error e => (st, ⟨directiveId, false, e.text⟩)

/-- `TerminateOperator`, as far as `deregister_operator` runs at once. The answer is known at once only where there is
    no event loop; otherwise the handler waits for the coroutine. -/
def terminateOperator (st : Management F) (operatorId : String) : Except PyError Unit →
    Management F × Option TerminateAck
  | .ok _    => ({ st with tasks := st.tasks.deregister operatorId }, none)
  | .error e => (st, some ⟨operatorId, false, e.text⟩)

/-- A deregistration comes from a directive or from `TerminateOperator`. -/
def step (nodeId : String) (st : Management F) : ManagementEvent F → Option (Management F)
  | .engine (.deregister _) => none
  | .engine event           => (st.tasks.step event).map (fun tasks => { st with tasks := tasks })
  | .applyPlacement directiveId operatorToTier eventLoop =>
      some (st.applyPlacement directiveId operatorToTier eventLoop).1
  | .terminateOperator operatorId eventLoop => some (st.terminateOperator operatorId eventLoop).1
  | .proceed i => proceed nodeId st i

/-- A started engine that has had no directives. -/
def started : Management F := ⟨Tasks.started, []⟩

def system (nodeId : String) : Lts (Management F) (ManagementEvent F) :=
  Lts.ofStep (fun st => st = started) (step nodeId)

/-! ## What one step does

The steps of the management read backwards, and what they leave of the table of operators. -/

section Steps

variable {nodeId oid : String} {st st' : Tasks F} {s s' : Management F} {i : Nat}

/-- The operators after a deregistration: without that one, whether it waits for a queue or not. -/
theorem operators_deregister (st : Tasks F) (oid : String) : (st.deregister oid).operators = st.operators.pop oid := by
  rcases Tasks.deregister_cases st oid with ⟨hnone, heq⟩ | ⟨r, -, ⟨q, -, -, heq⟩ | ⟨-, heq⟩⟩
  · rw [heq, Dict.pop_of_get_none hnone]
  all_goals rw [heq]

theorem proceed_eq_some (h : proceed nodeId s i = some s') :
    ∃ directive tasks directive', s.directives[i]? = some directive ∧ directive.done = false ∧
      directive.within.any (fun d => waits s.tasks d) = false ∧
      applyEntries nodeId directive.entries s.tasks = (tasks, directive') ∧
      s' = ⟨tasks, s.directives.set i directive'⟩ := by
  obtain ⟨directive, hi, h⟩ := Option.bind_eq_some_iff.mp h
  obtain ⟨hguard, hsome⟩ := Option.ite_none_left_eq_some.mp h
  simp only [not_or, Bool.not_eq_true] at hguard
  exact ⟨directive, _, _, hi, hguard.1, hguard.2, rfl, (Option.some.inj hsome).symm⟩

theorem engine_eq_some {event : Tasks.Event F} (h : step nodeId s (.engine event) = some s') :
    (∀ oid, event ≠ .deregister oid) ∧
      ∃ tasks, s.tasks.step event = some tasks ∧ s' = { s with tasks := tasks } := by
  unfold step at h
  cases event with
  | deregister oid => cases h
  | register | makeQueue | dispatch | processed | send | startWorker | takeItem | taskDone | joined =>
      obtain ⟨tasks, htasks, heq⟩ := Option.map_eq_some_iff.mp h
      exact ⟨nofun, tasks, htasks, heq.symm⟩

/-- A registration adds its operator, a deregistration takes it away, and no other step does either. -/
theorem operators_of_engine {event : Tasks.Event F} (hstep : st.step event = some st') :
    (∃ oid cpuBound outputTopics, event = .register oid cpuBound outputTopics ∧
      st'.operators = st.operators.set oid st.registrations.length) ∨
    (∃ oid, event = .deregister oid ∧ st'.operators = st.operators.pop oid) ∨
    ((∀ oid cpuBound outputTopics, event ≠ .register oid cpuBound outputTopics) ∧ (∀ oid, event ≠ .deregister oid) ∧
      st'.operators = st.operators) := by
  cases event with
  -- two kinds of steps write the table of operators, and the others are named as those that do not
  | register oid cpuBound outputTopics =>
      cases hstep
      exact Or.inl ⟨oid, cpuBound, outputTopics, rfl, rfl⟩
  | makeQueue r =>
      obtain ⟨oid, topics, -, -, rfl⟩ := Tasks.makeQueue_eq_some hstep
      exact Or.inr (Or.inr ⟨nofun, nofun, rfl⟩)
  | dispatch oid =>
      cases hstep
      refine Or.inr (Or.inr ⟨nofun, nofun, ?_⟩)
      rcases Tasks.dispatch_cases st oid with ⟨-, heq⟩ | ⟨r, -, ⟨q, queue, -, -, -, heq⟩ | ⟨-, -, heq⟩ | ⟨-, heq⟩⟩
      all_goals rw [heq]
  | processed c result =>
      obtain ⟨oid, r, outputs, emitAs, -, rfl⟩ := Tasks.processed_eq_some hstep
      exact Or.inr (Or.inr ⟨nofun, nofun, rfl⟩)
  | send c accepted =>
      obtain ⟨oid, r, outputs, payload, pending, -, ⟨-, rfl⟩ | ⟨-, rfl⟩⟩ := Tasks.send_eq_some hstep
      all_goals exact Or.inr (Or.inr ⟨nofun, nofun, rfl⟩)
  | startWorker w =>
      obtain ⟨oid, -, ⟨q, -, rfl⟩ | ⟨-, rfl⟩⟩ := Tasks.startWorker_eq_some hstep
      all_goals exact Or.inr (Or.inr ⟨nofun, nofun, rfl⟩)
  | takeItem w =>
      obtain ⟨oid, q, queue, c, items, call, -, -, -, -, rfl⟩ := Tasks.takeItem_eq_some hstep
      exact Or.inr (Or.inr ⟨nofun, nofun, rfl⟩)
  | taskDone w =>
      obtain ⟨oid, q, c, queue, oid', r, outputs, -, -, -, rfl⟩ := Tasks.taskDone_eq_some hstep
      exact Or.inr (Or.inr ⟨nofun, nofun, rfl⟩)
  | deregister oid =>
      cases hstep
      exact Or.inr (Or.inl ⟨oid, rfl, operators_deregister st oid⟩)
  | joined d =>
      obtain ⟨oid, r, q, -, -, rfl⟩ := Tasks.joined_eq_some hstep
      exact Or.inr (Or.inr ⟨nofun, nofun, rfl⟩)

end Steps

end Management

end Hea
end HybridStream
