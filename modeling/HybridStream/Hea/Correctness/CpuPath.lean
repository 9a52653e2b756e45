import HybridStream.Hea.Engine
import HybridStream.Py.Exact
import Mathlib.Data.List.Induction

/-!
# `Hea.Correctness.CpuPath` — when the CPU-bound path agrees with the inline path

One operator with one queue and one worker, fed by `_dispatch`. The queue keeps the order of the records and
every output is handed to the bridge, so the path emits what a *constant* operator would: each record meets the
attributes the operator was registered with, because the pool works on a pickled copy (`complete_spec`).
Inline, each record meets the attributes its predecessors have left (`inlineRun_spec`).

Both agree on every stream exactly for the operators on which no history shows (`paths_agree_iff`).
-/

namespace HybridStream
namespace Hea

open Lib Py

variable {F σ : Type}

/-! ## What a record makes an operator put out

Outputs along a history and the exported state, from the class alone. An operator without memory is one for which no
history shows in either. -/

namespace BaseOperator

/-- The records put out at a state; none where `process` raises. -/
def outputs (C : BaseOperator F σ) (s : σ) (clock : Clock F) (record : Record F) : List (Record F) :=
  emitted ((C.process clock record).exec s).1

/-- The records put out along a history. -/
def outputsAlong (C : BaseOperator F σ) : σ → List (Clock F × Record F) → List (List (Record F))
  | _, []      => []
  | s, x :: xs => C.outputs s x.1 x.2 :: outputsAlong C (C.run s [x]) xs

/-- No history of records shows: not in `get_state()`, nor, where outputs go anywhere, in an output. -/
def Stateless (C : BaseOperator F σ) (s : σ) (outputTopics : List String) : Prop :=
  ∀ stream, C.getState (C.run s stream) = C.getState s ∧
    (outputTopics ≠ [] → ∀ clock record, C.outputs (C.run s stream) clock record = C.outputs s clock record)

variable {C : BaseOperator F σ} {s : σ} {outputTopics : List String}

theorem outputsAlong_append (C : BaseOperator F σ) (s : σ) (xs ys : List (Clock F × Record F)) :
    C.outputsAlong s (xs ++ ys) = C.outputsAlong s xs ++ C.outputsAlong (C.run s xs) ys := by
  induction xs generalizing s with
  | nil => rfl
  | cons x xs ih =>
      show C.outputs s x.1 x.2 :: C.outputsAlong (C.run s [x]) (xs ++ ys) = _
      rw [ih]
      rfl

/-- Where no history shows, the outputs along one are those of its start. -/
theorem Stateless.outputsAlong (h : C.Stateless s outputTopics) (hout : outputTopics ≠ [])
    (xs : List (Clock F × Record F)) : C.outputsAlong s xs = xs.map (fun x => C.outputs s x.1 x.2) := by
  induction xs using List.reverseRecOn with
  | nil => rfl
  | append_singleton xs x ih =>
      rw [outputsAlong_append, ih, List.map_append]
      show _ ++ [C.outputs (C.run s xs) x.1 x.2] = _
      rw [(h xs).2 hout x.1 x.2]
      rfl

end BaseOperator

/-! ## Emission

The sends of a whole sequence of calls, with a bridge that may refuse at any of them. What was put out can be read off
what was sent, as long as there is an output topic. -/

/-- The sends of the bridge after the outputs of a sequence of calls. -/
def emitAll (accepts : Nat → Bool) (routes : List String) (outs : List (List (Record F))) :
    List (String × Record F) :=
  outs.foldl (fun sends records => (Engine.sendAll accepts (Engine.payloads routes records) sends).1) []

section Emission

variable {accepts : Nat → Bool} {routes : List String}

theorem emitAll_append (outs outs' : List (List (Record F))) :
    emitAll accepts routes (outs ++ outs') =
      outs'.foldl (fun sends records => (Engine.sendAll accepts (Engine.payloads routes records) sends).1)
        (emitAll accepts routes outs) := List.foldl_append

/-- Without output topics nothing is sent. -/
theorem emitAll_nil (outs : List (List (Record F))) : emitAll accepts [] outs = [] := by
  unfold emitAll
  induction outs with
  | nil => rfl
  | cons records outs ih => exact ih

/-- Where the bridge accepts everything, everything is sent. -/
theorem emitAll_accepted (outs : List (List (Record F))) :
    emitAll (fun _ => true) routes outs = outs.flatMap (Engine.payloads routes) := by
  induction outs using List.reverseRecOn with
  | nil => rfl
  | append_singleton outs records ih =>
      rw [emitAll_append, ih, List.flatMap_append]
      show (Engine.sendAll _ _ _).1 = _
      rw [Engine.sendAll_accepted (fun _ => rfl), List.flatMap_singleton]

/-- What is sent to an output topic tells what was put out. -/
theorem payloads_injective (h : routes ≠ []) {records records' : List (Record F)}
    (heq : Engine.payloads routes records = Engine.payloads routes records') : records = records' := by
  obtain ⟨topic, routes, rfl⟩ := List.exists_cons_of_ne_nil h
  have hlength : ∀ rs : List (Record F),
      (Engine.payloads (topic :: routes) rs).length = (routes.length + 1) * rs.length := by
    intro rs
    simp [Engine.payloads, List.length_flatMap, Nat.succ_mul, Nat.add_comm]
  have hlen : records.length = records'.length := by
    have hboth := congrArg List.length heq
    rw [hlength, hlength] at hboth
    exact Nat.eq_of_mul_eq_mul_left (Nat.succ_pos _) hboth
  -- the sends to the first topic come first
  have hfirst : ∀ rs : List (Record F),
      (Engine.payloads (topic :: routes) rs).take rs.length = rs.map (fun record => (topic, record)) := by
    intro rs
    unfold Engine.payloads
    rw [List.flatMap_cons, List.take_append_of_le_length (by simp)]
    simp
  have hmap : records.map (fun record => (topic, record)) = records'.map (fun record => (topic, record)) := by
    rw [← hfirst, ← hfirst, heq, hlen]
  exact List.map_injective_iff.mpr (fun _ _ h => (Prod.mk.inj h).2) hmap

end Emission

/-! ## The two paths

The same stream through the inline branch, record after record, and through queue, worker and pool, in any
interleaving that works everything off. Both are runs of the functions of the engine. -/

/-- The engine with its only operator registered. -/
def registered (C : BaseOperator F σ) (s : σ) (inputTopics outputTopics : List String) (cpuBound : Bool) :
    Engine F σ :=
  (Engine.started (fun _ => ⟨C, cpuBound, s⟩)).registerOperator 0 inputTopics outputTopics

/-- The inline branch of `_dispatch`, record after record. -/
def inlineRun (accepts : Nat → Bool) (C : BaseOperator F σ) (s : σ) (inputTopics outputTopics : List String)
    (ds : List (Delivery F)) : Engine F σ :=
  ds.foldl (fun e d => (e.dispatch accepts (C.operatorId s) d).1) (registered C s inputTopics outputTopics false)

/-- The engine, and the records not dispatched yet. -/
structure Pipeline (F σ : Type) where
  engine  : Engine F σ
  waiting : List (Delivery F)

/-- The steps of the CPU-bound path. -/
inductive Stage where
  | dispatch | start | take | finish

namespace Pipeline

/-- One step: the next record is dispatched, or the worker moves. -/
def step (accepts : Nat → Bool) (oid : String) (p : Pipeline F σ) : Stage → Option (Pipeline F σ)
  | .dispatch =>
      match p.waiting with
      | []      => none
      | d :: ds => some ⟨(p.engine.dispatch accepts oid d).1, ds⟩
  | .start  => (p.engine.startWorker 0).map (fun e => ⟨e, p.waiting⟩)
  | .take   => (p.engine.takeItem 0).map (fun e => ⟨e, p.waiting⟩)
  | .finish => (p.engine.finishItem accepts 0).map (fun e => ⟨e, p.waiting⟩)

section Steps

variable {accepts : Nat → Bool} {oid : String} {e e' : Engine F σ} (waiting : List (Delivery F))

theorem step_start (h : e.startWorker 0 = some e') :
    step accepts oid ⟨e, waiting⟩ .start = some ⟨e', waiting⟩ := by
  unfold step
  rw [h]
  rfl

theorem step_take (h : e.takeItem 0 = some e') :
    step accepts oid ⟨e, waiting⟩ .take = some ⟨e', waiting⟩ := by
  unfold step
  rw [h]
  rfl

theorem step_finish (h : e.finishItem accepts 0 = some e') :
    step accepts oid ⟨e, waiting⟩ .finish = some ⟨e', waiting⟩ := by
  unfold step
  rw [h]
  rfl

end Steps

/-- Everything has been dispatched and worked off. -/
def Complete (oid : String) (p : Pipeline F σ) : Prop :=
  p.waiting = [] ∧ (p.engine.workerQueues.get oid).all p.engine.joined = true

end Pipeline

/-- The CPU-bound path over a sequence of records. -/
def pipeline (accepts : Nat → Bool) (C : BaseOperator F σ) (s : σ) (inputTopics outputTopics : List String)
    (ds : List (Delivery F)) : Lts (Pipeline F σ) Stage :=
  Lts.ofStep (fun p => p = ⟨registered C s inputTopics outputTopics true, ds⟩)
    (Pipeline.step accepts (C.operatorId s))

/-- On every stream, and whatever the bridge accepts, the CPU-bound path ends with the sends and the
    `get_state()` of the inline path. -/
def PathsAgree (C : BaseOperator F σ) (s : σ) (inputTopics outputTopics : List String) : Prop :=
  ∀ (accepts : Nat → Bool) (ds : List (Delivery F)) (p : Pipeline F σ),
    (pipeline accepts C s inputTopics outputTopics ds).Reachable p → p.Complete (C.operatorId s) →
      p.engine.sends = (inlineRun accepts C s inputTopics outputTopics ds).sends ∧
      C.getState (p.engine.heap 0).state =
        C.getState ((inlineRun accepts C s inputTopics outputTopics ds).heap 0).state

/-- Registering the only operator. -/
theorem registered_eq (C : BaseOperator F σ) (s : σ) (inputTopics outputTopics : List String)
    (cpuBound : Bool) : ∃ bound consumers, registered C s inputTopics outputTopics cpuBound =
      (let e : Engine F σ := { Engine.started (fun _ => ⟨C, cpuBound, s⟩) with
        operators     := (∅ : Dict String Nat).set (C.operatorId s) 0
        outputRoutes  := (∅ : Dict String (List String)).set (C.operatorId s) outputTopics
        topicBindings := bound
        consumers     := consumers }
      if cpuBound then e.addWorker (C.operatorId s) else e) := by
  obtain ⟨bound, consumers, hfold⟩ := Engine.foldl_bindTopic (C.operatorId s) inputTopics
    { Engine.started (fun _ => ⟨C, cpuBound, s⟩) with
      operators    := (∅ : Dict String Nat).set (C.operatorId s) 0
      outputRoutes := (∅ : Dict String (List String)).set (C.operatorId s) outputTopics }
  refine ⟨bound, consumers, ?_⟩
  dsimp only
  rw [← hfold]
  rfl

/-! ## The inline path

The object in the engine takes the stream as its class does, attributes and all. -/

section Inline

variable {accepts : Nat → Bool} {C : BaseOperator F σ} {s : σ} {inputTopics outputTopics : List String}

/-- The record, and the clock, of a delivery. -/
def Delivery.input (d : Delivery F) : Clock F × Record F := (d.clock, d.record)

/-- The engine between two records of the inline path: the operator's attributes are `t`. -/
structure InlineAt (C : BaseOperator F σ) (oid : String) (outputTopics : List String) (t : σ)
    (sends : List (String × Record F)) (e : Engine F σ) : Prop where
  operator : e.operators.get oid = some 0
  object   : e.heap 0 = ⟨C, false, t⟩
  routes   : e.outputRoutes.getD oid [] = outputTopics
  sends    : e.sends = sends

theorem InlineAt.dispatch {oid : String} {t : σ} {sends : List (String × Record F)} {e : Engine F σ}
    (h : InlineAt C oid outputTopics t sends e) (d : Delivery F) :
    InlineAt C oid outputTopics (C.run t [d.input])
      (Engine.sendAll accepts (Engine.payloads outputTopics (C.outputs t d.clock d.record)) sends).1
      (e.dispatch accepts oid d).1 := by
  have hsame : e.SameRegistry (e.dispatch accepts oid d).1 := .dispatch d
  have hinline : (e.dispatch accepts oid d).1 =
      Engine.conclude accepts { e with heap := Function.update e.heap 0 ⟨C, false, C.run t [d.input]⟩ }
        oid oid d.origin ((C.process d.clock d.record).exec t).1 := by
    unfold Engine.dispatch Engine.processInline
    rw [h.operator]
    dsimp only
    rw [h.object]
    rfl
  refine ⟨by rw [hsame.operators]; exact h.operator, ?_, by rw [hsame.outputRoutes]; exact h.routes, ?_⟩
  · rw [hinline, Engine.heap_conclude]
    exact Function.update_self 0 (⟨C, false, C.run t [d.input]⟩ : OperatorObject F σ) e.heap
  · rw [hinline, Engine.sends_conclude]
    dsimp only
    rw [h.routes, h.sends]
    rfl

/-- **The inline path** emits what the operator puts out along the stream, and leaves the operator where the
    stream takes it. -/
theorem inlineRun_spec (ds : List (Delivery F)) :
    InlineAt C (C.operatorId s) outputTopics (C.run s (ds.map Delivery.input))
      (emitAll accepts outputTopics (C.outputsAlong s (ds.map Delivery.input)))
      (inlineRun accepts C s inputTopics outputTopics ds) := by
  induction ds using List.reverseRecOn with
  | nil =>
      obtain ⟨bound, consumers, heq⟩ := registered_eq C s inputTopics outputTopics false
      unfold inlineRun
      rw [List.foldl_nil, heq]
      exact ⟨Dict.get_set_self _ _ _, rfl, by simp [Dict.getD], rfl⟩
  | append_singleton ds d ih =>
      unfold inlineRun
      rw [List.foldl_append, List.map_append, BaseOperator.run_append, BaseOperator.outputsAlong_append,
        emitAll_append]
      exact ih.dispatch d

end Inline

/-! ## The CPU-bound path

The pool is handed a copy of the operator as it was registered and its attributes are dropped, so every record finds
the same ones. The invariant says where each record is; what has been put out is determined by those that are done. -/

/-- An entry of the operator's queue. -/
def entry (C : BaseOperator F σ) (s : σ) (d : Delivery F) : QueueItem F := ⟨C.operatorId s, 0, d⟩

/-- The engine while its only operator, a CPU-bound one, works: what is queued, where the worker stands and
    what has been sent. -/
def working (C : BaseOperator F σ) (s : σ) (outputTopics : List String)
    (bound : Dict String (List String)) (consumers : List String) (queued : List (Delivery F))
    (state : WorkerState F) (sends : List (String × Record F)) (handled : List (String × Origin)) :
    Engine F σ where
  heap _        := ⟨C, true, s⟩
  operators     := (∅ : Dict String Nat).set (C.operatorId s) 0
  topicBindings := bound
  outputRoutes  := (∅ : Dict String (List String)).set (C.operatorId s) outputTopics
  consumers     := consumers
  workerQueues  := (∅ : Dict String Nat).set (C.operatorId s) 0
  queues        := [queued.map (entry C s)]
  workers       := [⟨C.operatorId s, state⟩]
  sends         := sends
  handled       := handled

/-- The records a worker holds: at most one, with the outcome it has at the attributes the operator was
    registered with. -/
inductive Holds (C : BaseOperator F σ) (s : σ) : WorkerState F → List (Delivery F) → Prop where
  | created : Holds C s .created []
  | polling : Holds C s (.polling 0) []
  | executing (d : Delivery F) :
      Holds C s (.executing 0 (entry C s d) ((C.process d.clock d.record).exec s).1) [d]

/-- What the operator puts out for a record on the CPU-bound path. -/
def cpuOutputs (C : BaseOperator F σ) (s : σ) (ds : List (Delivery F)) : List (List (Record F)) :=
  ds.map (fun d => C.outputs s d.clock d.record)

theorem cpuOutputs_append (C : BaseOperator F σ) (s : σ) (ds : List (Delivery F)) (d : Delivery F) :
    cpuOutputs C s (ds ++ [d]) = cpuOutputs C s ds ++ [C.outputs s d.clock d.record] := List.map_append

section CpuBound

variable {accepts : Nat → Bool} {C : BaseOperator F σ} {s : σ} {inputTopics outputTopics : List String}
variable {bound : Dict String (List String)} {consumers : List String} {queued : List (Delivery F)}
variable {state : WorkerState F} {sends : List (String × Record F)} {handled : List (String × Origin)}

theorem registered_working (C : BaseOperator F σ) (s : σ) (inputTopics outputTopics : List String) :
    ∃ bound consumers, registered C s inputTopics outputTopics true =
      working C s outputTopics bound consumers [] .created [] [] := by
  obtain ⟨bound, consumers, heq⟩ := registered_eq C s inputTopics outputTopics true
  exact ⟨bound, consumers, heq⟩

theorem dispatch_working (d : Delivery F) :
    ((working C s outputTopics bound consumers queued state sends handled).dispatch accepts
      (C.operatorId s) d).1 =
      working C s outputTopics bound consumers (queued ++ [d]) state sends handled := by
  unfold Engine.dispatch working
  dsimp only
  rw [Dict.get_set_self, List.map_append]
  rfl

theorem startWorker_working :
    (working C s outputTopics bound consumers queued .created sends handled).startWorker 0 =
      some (working C s outputTopics bound consumers queued (.polling 0) sends handled) := by
  simp [Engine.startWorker, working]

theorem takeItem_working (d : Delivery F) :
    (working C s outputTopics bound consumers (d :: queued) (.polling 0) sends handled).takeItem 0 =
      some (working C s outputTopics bound consumers queued
        (.executing 0 (entry C s d) ((C.process d.clock d.record).exec s).1) sends handled) := rfl

theorem finishItem_working (d : Delivery F) (result : Except PyError (List (Record F))) :
    ∃ handled', (working C s outputTopics bound consumers queued (.executing 0 (entry C s d) result) sends
        handled).finishItem accepts 0 =
      some (working C s outputTopics bound consumers queued (.polling 0)
        (Engine.sendAll accepts (Engine.payloads outputTopics (emitted result)) sends).1 handled') := by
  obtain ⟨sends', done, -, heq⟩ := Engine.conclude_eq accepts
    (working C s outputTopics bound consumers queued (.polling 0) sends handled) (C.operatorId s)
    (C.operatorId s) d.origin result
  have hsends := congrArg Engine.sends heq
  have hroutes : (working C s outputTopics bound consumers queued (.polling 0) sends
      handled).outputRoutes.getD (C.operatorId s) [] = outputTopics := by simp [working, Dict.getD]
  rw [Engine.sends_conclude, hroutes] at hsends
  refine ⟨handled ++ done, congrArg some (heq.trans ?_)⟩
  show { working C s outputTopics bound consumers queued (.polling 0) sends handled with
    sends := sends', handled := handled ++ done } = _
  dsimp only at hsends
  rw [← hsends]
  rfl

/-- The queue is joined once nothing is queued and the worker holds nothing. -/
theorem joined_working {held : List (Delivery F)} (hholds : Holds C s state held) :
    ((working C s outputTopics bound consumers queued state sends handled).workerQueues.get
      (C.operatorId s)).all
        (working C s outputTopics bound consumers queued state sends handled).joined = true ↔
      queued = [] ∧ held = [] := by
  have hqueue : (working C s outputTopics bound consumers queued state sends handled).workerQueues.get
      (C.operatorId s) = some 0 := Dict.get_set_self _ _ _
  rw [hqueue]
  cases hholds <;> cases queued <;> simp [working, Engine.joined]

/-- Where the path stands: the records done, held by the worker, queued and waiting are the stream in its
    order, and the sends are those of the records done. -/
def Midway (accepts : Nat → Bool) (C : BaseOperator F σ) (s : σ) (outputTopics : List String)
    (ds : List (Delivery F)) (p : Pipeline F σ) : Prop :=
  ∃ bound consumers done held queued state handled,
    Holds C s state held ∧ ds = done ++ held ++ queued ++ p.waiting ∧
    p.engine = working C s outputTopics bound consumers queued state
      (emitAll accepts outputTopics (cpuOutputs C s done)) handled

variable {ds : List (Delivery F)} {p p' : Pipeline F σ}

theorem Midway.step (h : Midway accepts C s outputTopics ds p) {stage : Stage}
    (hstep : p.step accepts (C.operatorId s) stage = some p') : Midway accepts C s outputTopics ds p' := by
  obtain ⟨bound, consumers, done, held, queued, state, handled, hholds, hds, hengine⟩ := h
  obtain ⟨engine, waiting⟩ := p
  dsimp only at hds hengine
  subst hengine
  cases stage with
  | dispatch =>
      cases waiting with
      | nil => cases hstep
      | cons d waiting =>
          cases hstep
          refine ⟨bound, consumers, done, held, queued ++ [d], state, handled, hholds, ?_, dispatch_working d⟩
          simp [hds]
  | start =>
      obtain ⟨e, he, rfl⟩ := Option.map_eq_some_iff.mp hstep
      cases hholds with
      | created =>
          -- the worker looks up its queue and holds nothing yet
          rw [startWorker_working] at he
          cases he
          exact ⟨bound, consumers, done, [], queued, _, handled, .polling, hds, rfl⟩
      | polling | executing => cases he
  | take =>
      obtain ⟨e, he, rfl⟩ := Option.map_eq_some_iff.mp hstep
      cases hholds with
      | polling =>
          cases queued with
          | nil => cases he
          | cons d queued =>
              -- the pool works on a copy of the object, which is as it was registered
              rw [takeItem_working] at he
              cases he
              exact ⟨bound, consumers, done, [d], queued, _, handled, .executing d, by simp [hds], rfl⟩
      | created | executing => cases he
  | finish =>
      obtain ⟨e, he, rfl⟩ := Option.map_eq_some_iff.mp hstep
      cases hholds with
      | executing d =>
          obtain ⟨handled', hfinish⟩ := finishItem_working d _
          rw [hfinish] at he
          cases he
          -- the outputs go out, and the record joins those done
          refine ⟨bound, consumers, done ++ [d], [], queued, _, handled', .polling, by simp [hds], ?_⟩
          rw [cpuOutputs_append, emitAll_append]
          rfl
      | created | polling => cases he

theorem midway_of_reachable (h : (pipeline accepts C s inputTopics outputTopics ds).Reachable p) :
    Midway accepts C s outputTopics ds p := by
  refine h.invariant ?_ (fun p stage p' hp hstep => hp.step hstep)
  rintro p rfl
  obtain ⟨bound, consumers, heq⟩ := registered_working C s inputTopics outputTopics
  exact ⟨bound, consumers, [], [], [], .created, [], .created, rfl, heq⟩

/-- **The CPU-bound path** emits what the operator puts out for each record at the attributes it was
    registered with, and leaves these as they were. -/
theorem complete_spec (h : (pipeline accepts C s inputTopics outputTopics ds).Reachable p)
    (hcomplete : p.Complete (C.operatorId s)) :
    p.engine.sends = emitAll accepts outputTopics (cpuOutputs C s ds) ∧ (p.engine.heap 0).state = s := by
  obtain ⟨bound, consumers, done, held, queued, state, handled, hholds, hds, hengine⟩ :=
    midway_of_reachable h
  obtain ⟨hwaiting, hjoined⟩ := hcomplete
  rw [hengine] at hjoined
  obtain ⟨rfl, rfl⟩ := (joined_working hholds).mp hjoined
  rw [hwaiting, List.append_nil, List.append_nil, List.append_nil] at hds
  rw [hengine, hds]
  exact ⟨rfl, rfl⟩

/-! ### Completing the path

Every stream can be taken through to its end, so that the result is about something for each of them. -/

/-- All waiting records can be dispatched. -/
theorem run_dispatch (waiting queued : List (Delivery F)) :
    ∃ stages, (pipeline accepts C s inputTopics outputTopics ds).Run
      ⟨working C s outputTopics bound consumers queued state sends handled, waiting⟩ stages
      ⟨working C s outputTopics bound consumers (queued ++ waiting) state sends handled, []⟩ := by
  induction waiting generalizing queued with
  | nil => exact ⟨[], by rw [List.append_nil]; exact .refl⟩
  | cons d waiting ih =>
      obtain ⟨stages, hrun⟩ := ih (queued ++ [d])
      rw [List.append_assoc] at hrun
      refine ⟨.dispatch :: stages, .head ?_ hrun⟩
      exact congrArg (fun e => some (⟨e, waiting⟩ : Pipeline F σ)) (dispatch_working d)

/-- The worker takes and finishes the next record. -/
theorem run_next (d : Delivery F) :
    ∃ sends' handled', (pipeline accepts C s inputTopics outputTopics ds).Run
      ⟨working C s outputTopics bound consumers (d :: queued) (.polling 0) sends handled, []⟩ [.take, .finish]
      ⟨working C s outputTopics bound consumers queued (.polling 0) sends' handled', []⟩ := by
  obtain ⟨handled', hfinish⟩ := finishItem_working d _
  exact ⟨_, handled', .head (Pipeline.step_take [] (takeItem_working d))
    (.head (Pipeline.step_finish [] hfinish) .refl)⟩

/-- The worker can work off its queue. -/
theorem run_work (queued : List (Delivery F)) (sends : List (String × Record F))
    (handled : List (String × Origin)) :
    ∃ stages p, (pipeline accepts C s inputTopics outputTopics ds).Run
      ⟨working C s outputTopics bound consumers queued (.polling 0) sends handled, []⟩ stages p ∧
      p.Complete (C.operatorId s) := by
  induction queued generalizing sends handled with
  | nil => exact ⟨[], _, .refl, rfl, (joined_working .polling).mpr ⟨rfl, rfl⟩⟩
  | cons d queued ih =>
      obtain ⟨sends', handled', hnext⟩ := run_next d
      obtain ⟨stages, p, hrun, hcomplete⟩ := ih sends' handled'
      exact ⟨_, p, hnext.trans hrun, hcomplete⟩

/-- Every stream can be taken through the CPU-bound path to its end. -/
theorem exists_complete (accepts : Nat → Bool) (C : BaseOperator F σ) (s : σ)
    (inputTopics outputTopics : List String) (ds : List (Delivery F)) :
    ∃ p, (pipeline accepts C s inputTopics outputTopics ds).Reachable p ∧ p.Complete (C.operatorId s) := by
  obtain ⟨bound, consumers, heq⟩ := registered_working C s inputTopics outputTopics
  obtain ⟨stages, hdispatch⟩ := run_dispatch ds []
  obtain ⟨stages', p, hwork, hcomplete⟩ := run_work ([] ++ ds) [] []
  have hstart : (pipeline accepts C s inputTopics outputTopics ds).step
      ⟨working C s outputTopics bound consumers ([] ++ ds) .created [] [], []⟩ .start
      ⟨working C s outputTopics bound consumers ([] ++ ds) (.polling 0) [] [], []⟩ :=
    Pipeline.step_start [] startWorker_working
  have hinit : (pipeline accepts C s inputTopics outputTopics ds).init
      ⟨working C s outputTopics bound consumers [] .created [] [], ds⟩ := by rw [← heq]; rfl
  exact ⟨p, ⟨_, _, hinit, hdispatch.trans (.head hstart hwork)⟩, hcomplete⟩

end CpuBound

/-! ## The result

With both paths known, they agree on all streams exactly if no history shows: what a history shows, one more record
brings out, as the sends of both paths then differ by what that record adds. -/

/-- What the paths come to, for a given stream. -/
theorem paths_agree_spec (C : BaseOperator F σ) (s : σ) (inputTopics outputTopics : List String) :
    PathsAgree C s inputTopics outputTopics ↔ ∀ accepts (ds : List (Delivery F)),
      emitAll accepts outputTopics (cpuOutputs C s ds) =
        emitAll accepts outputTopics (C.outputsAlong s (ds.map Delivery.input)) ∧
      C.getState s = C.getState (C.run s (ds.map Delivery.input)) := by
  refine forall_congr' fun accepts => forall_congr' fun ds => ?_
  have hinline : InlineAt C (C.operatorId s) outputTopics (C.run s (ds.map Delivery.input))
      (emitAll accepts outputTopics (C.outputsAlong s (ds.map Delivery.input)))
      (inlineRun accepts C s inputTopics outputTopics ds) := inlineRun_spec ds
  rw [hinline.sends, hinline.object]
  constructor
  · intro h
    -- some run completes, and `complete_spec` says where
    obtain ⟨p, hreach, hcomplete⟩ := exists_complete accepts C s inputTopics outputTopics ds
    have hcpu := complete_spec hreach hcomplete
    rw [← hcpu.1]
    have hstate := h p hreach hcomplete
    rw [hcpu.2] at hstate
    exact hstate
  · intro h p hreach hcomplete
    have hcpu := complete_spec hreach hcomplete
    rw [hcpu.1, hcpu.2]
    exact h

/-- **The paths agree, if and only if no history shows.** The pool works on copies of the attributes that were
    registered, so the path puts out what a constant operator would; one more record at the end of a history shows
    whether the inline path does as well. -/
theorem paths_agree_iff (C : BaseOperator F σ) (s : σ) (inputTopics outputTopics : List String) :
    PathsAgree C s inputTopics outputTopics ↔ C.Stateless s outputTopics := by
  rw [paths_agree_spec]
  constructor
  · intro h stream
    have hinput : ∀ xs : List (Clock F × Record F),
        (xs.map (fun x => (⟨⟨"", 0, 0⟩, x.1, x.2⟩ : Delivery F))).map Delivery.input = xs := by
      intro xs
      rw [List.map_map]
      exact List.map_id xs
    have hstream := h (fun _ => true) (stream.map (fun x => ⟨⟨"", 0, 0⟩, x.1, x.2⟩))
    rw [hinput] at hstream
    refine ⟨hstream.2.symm, fun hout clock record => ?_⟩
    -- one more record: what it adds to the sends must be the same
    have hnext := (h (fun _ => true) ((stream ++ [(clock, record)]).map (fun x => ⟨⟨"", 0, 0⟩, x.1, x.2⟩))).1
    rw [hinput, List.map_append, List.map_singleton, cpuOutputs_append, BaseOperator.outputsAlong_append,
      emitAll_accepted, emitAll_accepted, List.flatMap_append, List.flatMap_append] at hnext
    rw [emitAll_accepted, emitAll_accepted] at hstream
    rw [hstream.1] at hnext
    have hadded := List.append_cancel_left hnext
    rw [List.flatMap_singleton] at hadded
    apply payloads_injective hout
    rw [hadded]
    exact (List.append_nil _).symm
  · intro h accepts ds
    refine ⟨?_, (h _).1.symm⟩
    by_cases hout : outputTopics = []
    · rw [hout, emitAll_nil, emitAll_nil]
    · rw [h.outputsAlong hout, List.map_map]
      rfl

/-- The count in a record of the counting operator. -/
def countOf (record : Record ℚ) : Option Int :=
  match record.get "count" with
  | some (.int count) => some count
  | _                 => none

/-- Two records for a counting operator. -/
def twoRecords : List (Delivery ℚ) :=
  [⟨⟨"raw", 0, 0⟩, ⟨0, fun _ => 0⟩, ∅⟩, ⟨⟨"raw", 0, 1⟩, ⟨0, fun _ => 0⟩, ∅⟩]

/-- The pool counts to one twice, and the operator in the engine stays at zero. -/
theorem counts_repeat :
    (∃ p, (pipeline (fun _ => true) (.counting "op") 0 ["raw"] ["counts"] twoRecords).Reachable p ∧
      p.Complete "op" ∧ p.engine.sends.map (fun x => countOf x.2) = [some 1, some 1] ∧
      (p.engine.heap 0).state = 0) ∧
    (inlineRun (fun _ => true) (.counting "op") 0 ["raw"] ["counts"] twoRecords).sends.map
      (fun x => countOf x.2) = [some 1, some 2] ∧
    ((inlineRun (fun _ => true) (.counting "op") 0 ["raw"] ["counts"] twoRecords).heap 0).state = 2 ∧
    ¬ PathsAgree (F := ℚ) (.counting "op") 0 ["raw"] ["counts"] := by
  have hrun : (Lts.exec (Pipeline.step (fun _ => true) "op")
      [.dispatch, .start, .take, .dispatch, .finish, .take, .finish]
      ⟨registered (.counting "op") 0 ["raw"] ["counts"] true, twoRecords⟩).any (fun p =>
        p.waiting.isEmpty && (p.engine.workerQueues.get "op").all p.engine.joined &&
        p.engine.sends.map (fun x => countOf x.2) = [some 1, some 1] && (p.engine.heap 0).state = 0) = true := by
    decide
  have hinline : (inlineRun (fun _ => true) (.counting "op") 0 ["raw"] ["counts"] twoRecords).sends.map
      (fun x => countOf x.2) = [some 1, some 2] := by decide
  obtain ⟨p, hexec, hp⟩ := (Option.any_eq_true _ _).mp hrun
  simp only [Bool.and_eq_true, List.isEmpty_iff, decide_eq_true_eq] at hp
  obtain ⟨⟨⟨hwaiting, hjoined⟩, hsends⟩, hstate⟩ := hp
  have hreach : (pipeline (fun _ => true) (.counting "op") 0 ["raw"] ["counts"] twoRecords).Reachable p :=
    Lts.reachable_of_exec rfl hexec
  refine ⟨⟨p, hreach, ⟨hwaiting, hjoined⟩, hsends, hstate⟩, hinline, by decide, fun hagree => ?_⟩
  have hsame := (hagree _ _ p hreach ⟨hwaiting, hjoined⟩).1
  rw [← hsame, hsends] at hinline
  exact absurd hinline (by decide)

end Hea
end HybridStream
