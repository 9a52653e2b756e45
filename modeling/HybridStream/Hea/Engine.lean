import HybridStream.Hea.Operator
import HybridStream.Lib.Lts
import Mathlib.Logic.Function.Basic

/-!
# `Hea.Engine` — registering operators and dispatching records to them

`hea/execution/engine.py`. An operator whose class is not CPU-bound processes a record inline, in the
coroutine that dispatches it. A CPU-bound one gets it through a queue: its worker task hands a pickled copy
of the operator to another process and receives the output records, and nothing else, back.

Operator objects and queues are shared by reference, so the engine state has a heap of operators and a list
of queues, and the dictionaries hold positions. `sends` are the calls of `bridge.send` so far; `accepts n`
tells whether the `n`-th of them returns. `handled` is the history of finished work.
-/

namespace HybridStream
namespace Hea

open Lib Py

variable {F σ : Type}

/-! ## Data

The tables of the engine as dictionaries over ids, the operator objects in a heap by themselves: an id may be
registered again with another object, while a worker still has the old one. -/

/-- Where a record comes from. The engine itself only keeps the offset. -/
structure Origin where
  topic     : String
  partition : Nat
  offset    : Nat
  deriving DecidableEq

/-- A record on its way to an operator, and the clock readings its processing will take. -/
structure Delivery (F : Type) where
  origin : Origin
  clock  : Clock F
  record : Record F

/-- An operator object: its class, `is_cpu_bound` of the class, and its attributes. -/
structure OperatorObject (F σ : Type) where
  cls      : BaseOperator F σ
  cpuBound : Bool
  state    : σ

/-- An entry of a worker queue. -/
structure QueueItem (F : Type) where
  operatorId : String
  op         : Nat
  delivery   : Delivery F

/-- Where a `_cpu_worker_loop` stands between two of its `await`s. -/
inductive WorkerState (F : Type) where
  /-- Not run yet. -/
  | created
  /-- Waiting for an item of its queue. -/
  | polling (queue : Nat)
  /-- Waiting for the pool; `result` is what the pool will return. -/
  | executing (queue : Nat) (item : QueueItem F) (result : Except PyError (List (Record F)))
  /-- Ended by the `KeyError` of an operator without a queue. -/
  | dead

/-- A `_cpu_worker_loop` task, of the operator it was started for. -/
structure Worker (F : Type) where
  operatorId : String
  state      : WorkerState F

/-- What gets emitted for the outcome of a call of `process`. -/
def emitted : Except PyError (List (Record F)) → List (Record F)
  | .ok records => records
  | .error _    => []

/-- `OperatorEngine`: its tables, its queues and workers, what it has sent and what it has come to the end of. Operators
    are objects on a heap, which the tables name by number. -/
structure Engine (F σ : Type) where
  heap          : Nat → OperatorObject F σ
  operators     : Dict String Nat
  topicBindings : Dict String (List String)
  outputRoutes  : Dict String (List String)
  consumers     : List String
  workerQueues  : Dict String Nat
  queues        : List (List (QueueItem F))
  workers       : List (Worker F)
  sends         : List (String × Record F)
  handled       : List (String × Origin)

namespace Engine

/-- A started engine over the given operator objects. -/
def started (heap : Nat → OperatorObject F σ) : Engine F σ := ⟨heap, ∅, ∅, ∅, [], ∅, [], [], [], []⟩

/-- The operator ids bound to a topic. -/
def bindings (e : Engine F σ) (topic : String) : List String := e.topicBindings.getD topic []

/-! ## Registration

The three dictionaries are written one after the other, and what a second registration of an id finds there stays or
is overwritten as the source does it. -/

/-- `operator.operator_id`, as the object in the heap reports it now. -/
def operatorIdOf (e : Engine F σ) (op : Nat) : String := (e.heap op).cls.operatorId (e.heap op).state

/-- One turn of the loop over `input_topics`. -/
def bindTopic (oid : String) (e : Engine F σ) (topic : String) : Engine F σ :=
  { e with
    topicBindings := e.topicBindings.set topic (e.bindings topic ++ [oid])
    consumers     := if topic ∈ e.consumers then e.consumers else e.consumers ++ [topic] }

/-- A CPU-bound operator gets a new queue and a new worker. -/
def addWorker (oid : String) (e : Engine F σ) : Engine F σ :=
  { e with
    workerQueues := e.workerQueues.set oid e.queues.length
    queues       := e.queues ++ [[]]
    workers      := e.workers ++ [⟨oid, .created⟩] }

/-- `register_operator`, where it completes. It is one step here; the source starts the consumer of each new topic in
    between, so for a while, and for good where that raises, a registered CPU-bound operator is bound to its topics
    and has no queue (`Hea.Registration` has those calls). What is said of runs of this system (`sound_of_run`) is said
    of completed registrations; `served` is the condition elsewhere. -/
def registerOperator (e : Engine F σ) (op : Nat) (inputTopics outputTopics : List String) : Engine F σ :=
  let oid := e.operatorIdOf op
  let e₁ : Engine F σ :=
    { e with
      operators    := e.operators.set oid op
      outputRoutes := e.outputRoutes.set oid outputTopics }
  -- `setdefault(topic, []).append(oid)`: an id that is bound already is bound again
  let e₂ := inputTopics.foldl (bindTopic oid) e₁
  if (e.heap op).cpuBound then e₂.addWorker oid else e₂

/-- `deregister_operator`, where it completes: the topic bindings stay. -/
def deregisterOperator (e : Engine F σ) (oid : String) : Engine F σ :=
  if e.operators.contains oid then
    { e with
      operators    := e.operators.pop oid
      workerQueues := e.workerQueues.pop oid
      outputRoutes := e.outputRoutes.pop oid }
  else e

/-! ## Processing and emission

A dispatch looks its operator up by id, ignores a record whose operator is gone, and processes inline or enqueues.
Exceptions of `process` and of a send end the call and are logged: the record counts as consumed either way. -/

/-- The sends of `_emit`, one after the other, until one raises. -/
def sendAll (accepts : Nat → Bool) :
    List (String × Record F) → List (String × Record F) → List (String × Record F) × Bool
  | [], sends      => (sends, true)
  | x :: xs, sends => if accepts sends.length then sendAll accepts xs (sends ++ [x]) else (sends ++ [x], false)

/-- What `_emit` sends: every record to every output topic. -/
def payloads (routes : List String) (records : List (Record F)) : List (String × Record F) :=
  routes.flatMap (fun topic => records.map (fun record => (topic, record)))

/-- `_emit`: the sends afterwards, and whether it returns. -/
def emit (accepts : Nat → Bool) (e : Engine F σ) (oid : String) (records : List (Record F)) :
    List (String × Record F) × Bool :=
  sendAll accepts (payloads (e.outputRoutes.getD oid []) records) e.sends

/-- A call of `process` has ended: its outputs are emitted, its exception is logged. The work is finished
    unless the bridge has raised. -/
def conclude (accepts : Nat → Bool) (e : Engine F σ) (oid worked : String) (origin : Origin)
    (result : Except PyError (List (Record F))) : Engine F σ :=
  let (sends, finished) := match result with
    | .ok records => e.emit accepts oid records
    -- logged, and the record counts as worked off
    | .error _    => (e.sends, true)
  { e with
    sends   := sends
    handled := if finished then e.handled ++ [(worked, origin)] else e.handled }

/-- What `_dispatch` did with a record, from its three branches. -/
inductive Dispatched where
  | ignored | queued | processed
  deriving DecidableEq

/-- The operator processes the record in the engine. -/
def processInline (accepts : Nat → Bool) (e : Engine F σ) (oid : String) (op : Nat) (d : Delivery F) :
    Engine F σ :=
  let obj := e.heap op
  -- what `process` wrote before it raised stays written
  let (result, state) := (obj.cls.process d.clock d.record).exec obj.state
  let e' : Engine F σ := { e with heap := Function.update e.heap op { obj with state := state } }
  e'.conclude accepts oid oid d.origin result

/-- `q.put`: the item is the last of its queue. -/
def enqueue (e : Engine F σ) (q : Nat) (item : QueueItem F) : Engine F σ :=
  { e with queues := e.queues.set q (e.queues.getD q [] ++ [item]) }

/-- `_dispatch`: an operator that is no longer there is passed over, a CPU-bound one gets the record into its queue, and
    any other one processes it at once. -/
def dispatch (accepts : Nat → Bool) (e : Engine F σ) (oid : String) (d : Delivery F) :
    Engine F σ × Dispatched :=
  match e.operators.get oid with
  | none    => (e, .ignored)
  | some op =>
      if (e.heap op).cpuBound then
        match e.workerQueues.get oid with
        | some q => (e.enqueue q ⟨oid, op, d⟩, .queued)
        -- the queue is gone with the operator's deregistration
        | none   => (e, .ignored)
      else (e.processInline accepts oid op d, .processed)

/-- The loop of `_consume_loop` over the operators bound to the record's topic. -/
def dispatchAll (accepts : Nat → Bool) (d : Delivery F) :
    List String → Engine F σ → Engine F σ × List (String × Dispatched)
  | [], e          => (e, [])
  | oid :: oids, e =>
      let (e₁, done) := e.dispatch accepts oid d
      let (e₂, rest) := dispatchAll accepts d oids e₁
      (e₂, (oid, done) :: rest)

/-! ## The workers of CPU-bound operators

A worker looks its queue up once, when it first runs. The pool is given a copy of the operator, so the attributes that
`process` writes there are gone. -/

/-- `_run_operator_sync` on a pickled copy of the operator: the attributes it leaves are dropped. -/
def runOperatorSync (obj : OperatorObject F σ) (d : Delivery F) : Except PyError (List (Record F)) :=
  ((obj.cls.process d.clock d.record).exec obj.state).1

/-- The worker runs for the first time and looks up its queue. -/
def startWorker (e : Engine F σ) (w : Nat) : Option (Engine F σ) := do
  let worker ← e.workers[w]?
  match worker.state with
  | .created =>
      let state := match e.workerQueues.get worker.operatorId with
        | some q => .polling q
        -- `self._worker_queues[operator_id]` raises `KeyError`
        | none   => .dead
      some { e with workers := e.workers.set w { worker with state := state } }
  | _ => none

/-- The worker takes the next item of its queue and hands it to the pool. -/
def takeItem (e : Engine F σ) (w : Nat) : Option (Engine F σ) := do
  let worker ← e.workers[w]?
  match worker.state with
  | .polling q =>
      match e.queues[q]? with
      | some (item :: rest) =>
          let state := .executing q item (runOperatorSync (e.heap item.op) item.delivery)
          some { e with queues := e.queues.set q rest, workers := e.workers.set w { worker with state := state } }
      | _ => none
  | _ => none

/-- The pool has returned to the worker. -/
def finishItem (accepts : Nat → Bool) (e : Engine F σ) (w : Nat) : Option (Engine F σ) := do
  let worker ← e.workers[w]?
  match worker.state with
  | .executing q item result =>
      let e' : Engine F σ := { e with workers := e.workers.set w { worker with state := .polling q } }
      some (e'.conclude accepts worker.operatorId item.operatorId item.delivery.origin result)
  | _ => none

/-- The pool itself has raised, and the exception is logged. -/
def failItem (e : Engine F σ) (w : Nat) : Option (Engine F σ) := do
  let worker ← e.workers[w]?
  match worker.state with
  | .executing q _ _ => some { e with workers := e.workers.set w { worker with state := .polling q } }
  | _ => none

/-- What a worker task does next. -/
inductive WorkerEvent where
  | start | take | finish | fail
  deriving DecidableEq

/-- One step of worker `w`, from an `await` to the next. -/
def workerStep (accepts : Nat → Bool) (e : Engine F σ) (w : Nat) : WorkerEvent → Option (Engine F σ)
  | .start  => e.startWorker w
  | .take   => e.takeItem w
  | .finish => e.finishItem accepts w
  | .fail   => e.failItem w

/-! ## Histories

An engine over a whole history of events. Consuming a record and completing a registration are one step each here; the
modules that need finer steps have them. -/

/-- A record is consumed from its topic: what became of it at each id bound there. -/
def consume (accepts : Nat → Bool) (e : Engine F σ) (d : Delivery F) :
    Engine F σ × List (String × Dispatched) :=
  dispatchAll accepts d (e.bindings d.origin.topic) e

/-- `q.join()` does not block: every item of the queue has been taken and marked done. -/
def joined (e : Engine F σ) (q : Nat) : Bool :=
  (e.queues.getD q []).isEmpty && e.workers.all (fun worker => match worker.state with
    | .executing q' _ _ => q' ≠ q
    | _                 => true)

/-- What happens to a running engine. Registrations and deregistrations count when they complete. -/
inductive Event (F : Type) where
  | register (operatorId : String) (op : Nat) (inputTopics outputTopics : List String)
  | deregister (operatorId : String)
  | consume (d : Delivery F)
  | work (w : Nat) (event : WorkerEvent)

/-- One event, where it is possible: the id is the one the object reports, and a deregistration returns after its queue
    has been joined. -/
def step (accepts : Nat → Bool) (e : Engine F σ) : Event F → Option (Engine F σ)
  | .register oid op inputTopics outputTopics =>
      if e.operatorIdOf op = oid then some (e.registerOperator op inputTopics outputTopics) else none
  | .deregister oid =>
      if (e.workerQueues.get oid).all e.joined then some (e.deregisterOperator oid) else none
  | .consume d => some (e.consume accepts d).1
  | .work w event => e.workerStep accepts w event

/-- The engine as a transition system, from `start` on. -/
def system (accepts : Nat → Bool) (heap : Nat → OperatorObject F σ) : Lts (Engine F σ) (Event F) :=
  Lts.ofStep (fun e => e = started heap) (step accepts)

/-! ## What one step does

The steps read backwards, and what is left behind by the end of a call. -/

section Steps

variable {accepts : Nat → Bool} {e e' : Engine F σ} {oid worked : String} {op w : Nat} {d : Delivery F}

/-- What a concluded call leaves behind: more sends and, if its outputs got out, one more finished work. -/
theorem conclude_eq (accepts : Nat → Bool) (e : Engine F σ) (oid worked : String) (origin : Origin)
    (result : Except PyError (List (Record F))) :
    ∃ sends done, (done = [] ∨ done = [(worked, origin)]) ∧ e.conclude accepts oid worked origin result =
      { e with sends := sends, handled := e.handled ++ done } := by
  unfold conclude
  cases result with
  | error err => exact ⟨_, [(worked, origin)], Or.inr rfl, rfl⟩
  | ok records =>
      dsimp only
      cases (e.emit accepts oid records).2 with
      | true  => exact ⟨_, [(worked, origin)], Or.inr rfl, rfl⟩
      | false => exact ⟨_, [], Or.inl rfl, by rw [List.append_nil]; rfl⟩

@[simp] theorem heap_conclude (origin : Origin) (result : Except PyError (List (Record F))) :
    (e.conclude accepts oid worked origin result).heap = e.heap := by
  obtain ⟨sends, done, -, heq⟩ := conclude_eq accepts e oid worked origin result
  rw [heq]

/-- What concluding a call does to the sends. -/
theorem sends_conclude (origin : Origin)
    (result : Except PyError (List (Record F))) :
    (e.conclude accepts oid worked origin result).sends =
      (sendAll accepts (payloads (e.outputRoutes.getD oid []) (emitted result)) e.sends).1 := by
  cases result with
  | ok records => rfl
  | error err =>
      have hnone : payloads (e.outputRoutes.getD oid []) ([] : List (Record F)) = [] := by
        simp [payloads]
      show e.sends = (sendAll accepts (payloads _ []) e.sends).1
      rw [hnone]
      rfl

/-- Whatever is refused, a beginning of the sends is made. -/
theorem sendAll_prefix (xs sends : List (String × Record F)) :
    ∃ made, made <+: xs ∧ (sendAll accepts xs sends).1 = sends ++ made := by
  induction xs generalizing sends with
  | nil => exact ⟨[], List.prefix_rfl, (List.append_nil _).symm⟩
  | cons x xs ih =>
      unfold sendAll
      split
      · obtain ⟨made, hprefix, heq⟩ := ih (sends ++ [x])
        exact ⟨x :: made, List.cons_prefix_cons.mpr ⟨rfl, hprefix⟩, heq.trans (List.append_assoc _ _ _)⟩
      · exact ⟨[x], List.cons_prefix_cons.mpr ⟨rfl, List.nil_prefix⟩, rfl⟩

/-- A bridge that accepts everything sends everything. -/
theorem sendAll_accepted (h : ∀ n, accepts n = true) (xs sends : List (String × Record F)) :
    sendAll accepts xs sends = (sends ++ xs, true) := by
  induction xs generalizing sends with
  | nil => rw [List.append_nil]; rfl
  | cons x xs ih =>
      unfold sendAll
      rw [if_pos (h _), ih, List.append_assoc]
      rfl

/-- Where the bridge accepts everything, a concluded call is finished work. -/
theorem conclude_accepted (h : ∀ n, accepts n = true) (e : Engine F σ) (oid worked : String)
    (origin : Origin) (result : Except PyError (List (Record F))) :
    ∃ sends, e.conclude accepts oid worked origin result =
      { e with sends := sends, handled := e.handled ++ [(worked, origin)] } := by
  unfold conclude emit
  cases result with
  | error err => exact ⟨_, rfl⟩
  | ok records =>
      dsimp only
      rw [sendAll_accepted h]
      exact ⟨_, rfl⟩

theorem startWorker_eq_some (h : e.startWorker w = some e') :
    ∃ oid state, e.workers[w]? = some ⟨oid, .created⟩ ∧
      (state = .dead ∨ ∃ q, e.workerQueues.get oid = some q ∧ state = .polling q) ∧
      e' = { e with workers := e.workers.set w ⟨oid, state⟩ } := by
  obtain ⟨⟨oid, state⟩, hw, h⟩ := Option.bind_eq_some_iff.mp h
  cases state with
  | created =>
      refine ⟨oid, _, hw, ?_, (Option.some.inj h).symm⟩
      cases hq : e.workerQueues.get oid with
      | none   => exact Or.inl rfl
      | some q => exact Or.inr ⟨q, rfl, rfl⟩
  | polling | executing | dead => cases h

theorem takeItem_eq_some (h : e.takeItem w = some e') :
    ∃ oid q item rest, e.workers[w]? = some ⟨oid, .polling q⟩ ∧ e.queues[q]? = some (item :: rest) ∧
      e' = { e with
        queues  := e.queues.set q rest
        workers := e.workers.set w
          ⟨oid, .executing q item (runOperatorSync (e.heap item.op) item.delivery)⟩ } := by
  obtain ⟨⟨oid, state⟩, hw, h⟩ := Option.bind_eq_some_iff.mp h
  cases state with
  | polling q =>
      dsimp only at h
      split at h
      · rename_i item rest hq
        exact ⟨oid, q, item, rest, hw, hq, (Option.some.inj h).symm⟩
      · cases h
  | created | executing | dead => cases h

theorem finishItem_eq_some (h : e.finishItem accepts w = some e') :
    ∃ oid q item result, e.workers[w]? = some ⟨oid, .executing q item result⟩ ∧
      e' = conclude accepts { e with workers := e.workers.set w ⟨oid, .polling q⟩ } oid item.operatorId
        item.delivery.origin result := by
  obtain ⟨⟨oid, state⟩, hw, h⟩ := Option.bind_eq_some_iff.mp h
  cases state with
  | executing q item result => exact ⟨oid, q, item, result, hw, (Option.some.inj h).symm⟩
  | created | polling | dead => cases h

theorem failItem_eq_some (h : e.failItem w = some e') :
    ∃ oid q item result, e.workers[w]? = some ⟨oid, .executing q item result⟩ ∧
      e' = { e with workers := e.workers.set w ⟨oid, .polling q⟩ } := by
  obtain ⟨⟨oid, state⟩, hw, h⟩ := Option.bind_eq_some_iff.mp h
  cases state with
  | executing q item result => exact ⟨oid, q, item, result, hw, (Option.some.inj h).symm⟩
  | created | polling | dead => cases h

end Steps

/-! ## What consuming and working leave alone

Records in flight change the attributes of operators, the queues and the workers; which operators there are
and what they are bound to is changed by registration alone. -/

/-- The same registrations over the same classes of operators. -/
structure SameRegistry (e e' : Engine F σ) : Prop where
  operators     : e'.operators = e.operators
  topicBindings : e'.topicBindings = e.topicBindings
  outputRoutes  : e'.outputRoutes = e.outputRoutes
  workerQueues  : e'.workerQueues = e.workerQueues
  queues        : e'.queues.length = e.queues.length
  cpuBound      : ∀ op, (e'.heap op).cpuBound = (e.heap op).cpuBound

namespace SameRegistry

variable {accepts : Nat → Bool} {e e' e'' : Engine F σ} {oid worked : String}

theorem refl (e : Engine F σ) : SameRegistry e e := ⟨rfl, rfl, rfl, rfl, rfl, fun _ => rfl⟩

theorem trans (h : SameRegistry e e') (h' : SameRegistry e' e'') : SameRegistry e e'' :=
  ⟨h'.operators.trans h.operators, h'.topicBindings.trans h.topicBindings,
    h'.outputRoutes.trans h.outputRoutes, h'.workerQueues.trans h.workerQueues,
    h'.queues.trans h.queues, fun op => (h'.cpuBound op).trans (h.cpuBound op)⟩

theorem conclude (origin : Origin) (result : Except PyError (List (Record F))) :
    SameRegistry e (e.conclude accepts oid worked origin result) := by
  obtain ⟨sends, done, -, heq⟩ := conclude_eq accepts e oid worked origin result
  rw [heq]
  exact ⟨rfl, rfl, rfl, rfl, rfl, fun _ => rfl⟩

theorem processInline (op : Nat) (d : Delivery F) : SameRegistry e (e.processInline accepts oid op d) := by
  have hupdate : ∀ state, SameRegistry e
      { e with heap := Function.update e.heap op { e.heap op with state := state } } := by
    intro state
    refine ⟨rfl, rfl, rfl, rfl, rfl, fun op' => ?_⟩
    by_cases hop : op' = op
    · rw [hop]; dsimp only; rw [Function.update_self]
    · dsimp only; rw [Function.update_of_ne hop]
  exact (hupdate _).trans (conclude d.origin _)

theorem dispatch (d : Delivery F) : SameRegistry e (e.dispatch accepts oid d).1 := by
  unfold Engine.dispatch
  split
  · exact refl e
  · split
    · split
      · exact ⟨rfl, rfl, rfl, rfl, List.length_set, fun _ => rfl⟩
      · exact refl e
    · exact processInline _ d

theorem dispatchAll (d : Delivery F) (oids : List String) (e : Engine F σ) :
    SameRegistry e (dispatchAll accepts d oids e).1 := by
  induction oids generalizing e with
  | nil => exact refl e
  | cons oid oids ih => exact (dispatch d).trans (ih _)

theorem workerStep {w : Nat} {event : WorkerEvent} (h : e.workerStep accepts w event = some e') :
    SameRegistry e e' := by
  cases event with
  | start =>
      obtain ⟨oid, state, -, -, rfl⟩ := startWorker_eq_some h
      exact ⟨rfl, rfl, rfl, rfl, rfl, fun _ => rfl⟩
  | take =>
      obtain ⟨oid, q, item, rest, -, -, rfl⟩ := takeItem_eq_some h
      exact ⟨rfl, rfl, rfl, rfl, List.length_set, fun _ => rfl⟩
  | finish =>
      obtain ⟨oid, q, item, result, -, rfl⟩ := finishItem_eq_some h
      have hworker : SameRegistry e { e with workers := e.workers.set w ⟨oid, .polling q⟩ } :=
        ⟨rfl, rfl, rfl, rfl, rfl, fun _ => rfl⟩
      exact hworker.trans (conclude _ result)
  | fail =>
      obtain ⟨oid, q, item, result, -, rfl⟩ := failItem_eq_some h
      exact ⟨rfl, rfl, rfl, rfl, rfl, fun _ => rfl⟩

end SameRegistry

/-! ## The queues of CPU-bound operators

`register_operator` enters the operator into the dictionaries before it awaits the consumers, and creates the queue
after. An engine whose registrations have been completed is sound; between the two, or after a consumer that did not
start, a CPU-bound operator is registered and bound without a queue, and `_dispatch` drops its records. -/

/-- A record dispatched to the operator finds its queue, if it needs one. -/
def served (e : Engine F σ) (oid : String) : Bool :=
  (e.operators.get oid).all (fun op =>
    !(e.heap op).cpuBound || (e.workerQueues.get oid).any (fun q => q < e.queues.length))

/-- A registered CPU-bound operator has a queue. -/
def Sound (e : Engine F σ) : Prop :=
  ∀ oid op, e.operators.get oid = some op → (e.heap op).cpuBound = true →
    ∃ q < e.queues.length, e.workerQueues.get oid = some q

section Soundness

variable {accepts : Nat → Bool} {e e' : Engine F σ}

theorem Sound.of_sameRegistry (he : e.Sound) (h : SameRegistry e e') : e'.Sound := by
  intro oid op hop hcpu
  rw [h.operators] at hop
  rw [h.cpuBound] at hcpu
  rw [h.workerQueues, h.queues]
  exact he oid op hop hcpu

/-- Binding an operator to its topics touches the bindings and the consumers only. -/
theorem foldl_bindTopic (oid : String) (topics : List String) (e : Engine F σ) :
    ∃ bound consumers, topics.foldl (bindTopic oid) e =
      { e with topicBindings := bound, consumers := consumers } := by
  induction topics generalizing e with
  | nil => exact ⟨_, _, rfl⟩
  | cons topic topics ih =>
      obtain ⟨bound, consumers, h⟩ := ih (e.bindTopic oid topic)
      exact ⟨bound, consumers, h⟩

theorem bindings_foldl_bindTopic (oid : String) (topics : List String) (e : Engine F σ) (topic : String) :
    (topics.foldl (bindTopic oid) e).bindings topic =
      e.bindings topic ++ List.replicate (topics.count topic) oid := by
  induction topics generalizing e with
  | nil => simp
  | cons t topics ih =>
      have hbind : (e.bindTopic oid t).bindings topic =
          if topic = t then e.bindings t ++ [oid] else e.bindings topic := Dict.getD_set _ t topic _ _
      rw [List.foldl_cons, ih, hbind]
      by_cases h : topic = t
      · subst h
        rw [if_pos rfl, List.count_cons_self, List.append_assoc, List.replicate_succ]
        rfl
      · rw [if_neg h, List.count_cons_of_ne (Ne.symm h)]

section Registration

variable {op : Nat} {inputTopics outputTopics : List String}

/-- What a registration does to the shared dictionaries, the queues and the workers aside. -/
theorem registerOperator_eq (e : Engine F σ) (op : Nat) (inputTopics outputTopics : List String) :
    ∃ e₂ : Engine F σ, e₂.heap = e.heap ∧ e₂.operators = e.operators.set (e.operatorIdOf op) op ∧
      e₂.workerQueues = e.workerQueues ∧ e₂.queues = e.queues ∧
      (∀ topic, e₂.bindings topic =
        e.bindings topic ++ List.replicate (inputTopics.count topic) (e.operatorIdOf op)) ∧
      e.registerOperator op inputTopics outputTopics =
        if (e.heap op).cpuBound then e₂.addWorker (e.operatorIdOf op) else e₂ := by
  let e₁ : Engine F σ :=
    { e with
      operators    := e.operators.set (e.operatorIdOf op) op
      outputRoutes := e.outputRoutes.set (e.operatorIdOf op) outputTopics }
  have hbind := bindings_foldl_bindTopic (e.operatorIdOf op) inputTopics e₁
  obtain ⟨bound, consumers, hfold⟩ := foldl_bindTopic (e.operatorIdOf op) inputTopics e₁
  have hreg : e.registerOperator op inputTopics outputTopics =
      if (e.heap op).cpuBound then (inputTopics.foldl (bindTopic (e.operatorIdOf op)) e₁).addWorker
        (e.operatorIdOf op) else inputTopics.foldl (bindTopic (e.operatorIdOf op)) e₁ := rfl
  rw [hfold] at hbind hreg
  exact ⟨{ e₁ with topicBindings := bound, consumers := consumers }, rfl, rfl, rfl, rfl, hbind, hreg⟩

theorem operators_registerOperator :
    (e.registerOperator op inputTopics outputTopics).operators = e.operators.set (e.operatorIdOf op) op := by
  obtain ⟨e₂, -, hops, -, -, -, heq⟩ := registerOperator_eq e op inputTopics outputTopics
  rw [heq, ← hops]
  split <;> rfl

theorem bindings_registerOperator (topic : String) :
    (e.registerOperator op inputTopics outputTopics).bindings topic =
      e.bindings topic ++ List.replicate (inputTopics.count topic) (e.operatorIdOf op) := by
  obtain ⟨e₂, -, -, -, -, hbind, heq⟩ := registerOperator_eq e op inputTopics outputTopics
  rw [heq, ← hbind topic]
  split <;> rfl

theorem Sound.registerOperator (he : e.Sound) : (e.registerOperator op inputTopics outputTopics).Sound := by
  obtain ⟨e₂, hheap, hops, hwq, hq, -, heq⟩ := registerOperator_eq e op inputTopics outputTopics
  rw [heq]
  intro oid op' hop' hcpu
  have hop₂ : (e.operators.set (e.operatorIdOf op) op).get oid = some op' := by
    rw [← hops]; split at hop' <;> exact hop'
  have hcpu' : (e.heap op').cpuBound = true := by
    rw [← hheap]; split at hcpu <;> exact hcpu
  rw [Dict.get_set] at hop₂
  by_cases hoid : oid = e.operatorIdOf op
  · -- the operator just registered has the new queue
    rw [if_pos hoid] at hop₂
    cases hop₂
    rw [if_pos hcpu', hoid]
    exact ⟨e₂.queues.length, by simp [addWorker], Dict.get_set_self _ _ _⟩
  · rw [if_neg hoid] at hop₂
    obtain ⟨q, hlt, hget⟩ := he oid op' hop₂ hcpu'
    split
    · refine ⟨q, ?_, ?_⟩
      · simp only [addWorker, hq, List.length_append]; omega
      · simp only [addWorker, hwq]
        rw [Dict.get_set_ne _ hoid]
        exact hget
    · exact ⟨q, hq ▸ hlt, hwq ▸ hget⟩

end Registration

theorem operators_deregisterOperator (oid oid' : String) :
    (e.deregisterOperator oid).operators.get oid' = if oid' = oid then none else e.operators.get oid' := by
  unfold deregisterOperator
  split
  · exact Dict.get_pop _ _ _
  · rename_i hout
    split
    · rename_i heq
      rw [heq]
      simpa [Dict.contains] using hout
    · rfl

@[simp] theorem bindings_deregisterOperator (oid topic : String) :
    (e.deregisterOperator oid).bindings topic = e.bindings topic := by
  unfold deregisterOperator
  split <;> rfl

theorem Sound.deregisterOperator (he : e.Sound) (oid : String) : (e.deregisterOperator oid).Sound := by
  intro oid' op hop hcpu
  rw [operators_deregisterOperator] at hop
  have hne : oid' ≠ oid := by
    intro heq
    rw [if_pos heq] at hop
    cases hop
  rw [if_neg hne] at hop
  unfold Engine.deregisterOperator at hcpu ⊢
  split
  · rename_i hin
    rw [if_pos hin] at hcpu
    dsimp only
    rw [Dict.get_pop_ne _ hne]
    exact he oid' op hop hcpu
  · rename_i hout
    rw [if_neg hout] at hcpu
    exact he oid' op hop hcpu

/-- **An engine that has only gone through completed registrations is sound**, whatever has been consumed and
    deregistered in between. -/
theorem sound_of_run {heap : Nat → OperatorObject F σ} {events : List (Event F)}
    (h : (system accepts heap).Run (started heap) events e) : e.Sound := by
  refine h.invariant (I := Sound) ?_ ?_
  · intro s event s' hs hstep
    cases event with
    | register oid op inputTopics outputTopics =>
        obtain ⟨-, rfl⟩ := Option.ite_none_right_eq_some.mp hstep |>.imp_right Option.some.inj
        exact hs.registerOperator
    | deregister oid =>
        obtain ⟨-, rfl⟩ := Option.ite_none_right_eq_some.mp hstep |>.imp_right Option.some.inj
        exact hs.deregisterOperator oid
    | consume d =>
        cases hstep
        exact hs.of_sameRegistry (SameRegistry.dispatchAll d _ s)
    | work w event => exact hs.of_sameRegistry (SameRegistry.workerStep hstep)
  · intro oid op hop
    cases hop

end Soundness

end Engine

end Hea
end HybridStream
