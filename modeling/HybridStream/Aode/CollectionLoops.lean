import Mathlib.Logic.Function.Basic
import HybridStream.Aode.Telemetry
import HybridStream.Lib.Lts

/-!
# `Aode.CollectionLoops` — the telemetry collection loops of one AODE

`_collection_loop` of `aode/telemetry/collector.py`, as `aode/main.py` runs it: `telemetry.start` creates a task for it
and `main.run` creates another one. Both walk the keys of `_last_telemetry` and write to it. A round is suspended at
the RPC of an HEA; an HEA without a stub is recorded as unreachable without a suspension.

What happens between two suspensions is one step. An HEA may produce its response at any time while it is awaited, and
the response may take any time; the clock of an HEA does not go backwards from one response to the next.
-/

namespace HybridStream
namespace Aode

open Lib Py

variable {F : Type} [PyRuntime F]

/-! ## Samples

Telemetry with the time at which the HEA says it was taken; a sample that stands for a missing response has the time
of the collector. -/

/-- `HEATelemetry` with its `timestamp_ms`. -/
structure TimedTelemetry (F : Type) where
  telemetry   : HEATelemetry F
  timestampMs : Int

namespace TimedTelemetry

def reachable (tel : TimedTelemetry F) : Bool := tel.telemetry.reachable

/-- `_collect_one`: the timestamp of the HEA, or `nowMs` where there is no response. -/
def collectOne (stub : Option HEAClient) (answer : TelemetryCollector.Answer F) (nowMs : Int) : TimedTelemetry F where
  telemetry   := TelemetryCollector.collectOne stub answer
  timestampMs := match stub, answer.response with
    | some _, .ok response => response.timestampMs
    | _, _                 => nowMs

/-- `_collect_one` where no response is read: the call raises, also for want of a stub. -/
def unreached (nowMs : Int) : TimedTelemetry F := ⟨TelemetryCollector.notReached, nowMs⟩

/-- Without a response it is not reachable. -/
theorem reachable_unreached (nowMs : Int) : (unreached nowMs : TimedTelemetry F).reachable = false := rfl

end TimedTelemetry

/-! ## The loops

Two tasks run the same loop over one dictionary. Between the request of a loop and its response the other one may go
through a round, and responses arrive in any order. -/

/-- The two tasks that run `_collection_loop`: that of `telemetry.start` and `tel_task` of `main.run`. -/
inductive CollectionLoop where
  | collectionTask | telTask
  deriving DecidableEq

/-- Where a loop stands: before its next round, or at the RPC of an HEA, with the rest of the round. `response` is the
    number of the response the HEA has produced for it. -/
inductive LoopState where
  | sleeping
  | awaiting (heaId : String) (rest : List String) (response : Option Nat)

/-- An entry that was written to `_last_telemetry`; `number` is that of the response it was read from. -/
structure StoredSample (F : Type) where
  heaId  : String
  number : Option Nat
  sample : TimedTelemetry F

/-- `_last_telemetry`, the loops, the responses each HEA has produced, and what was stored so far. -/
structure CollectionLoops (F : Type) where
  lastTelemetry : Dict String (TimedTelemetry F)
  loops         : CollectionLoop → LoopState
  produced      : String → List (Hea.TelemetryResponse F)
  stored        : List (StoredSample F)

/-- What happens next. `wake` begins a round, `produce` is an HEA answering, `deliver` is the arrival of its response,
    `fail` an RPC that raises, at its deadline or before. The last three end a wait; `nowMs` is the clock of the AODE
    as the samples without a response are made. -/
inductive CollectionEvent (F : Type) where
  | wake (loop : CollectionLoop) (nowMs : String → Int)
  | produce (loop : CollectionLoop) (response : Hea.TelemetryResponse F)
  | deliver (loop : CollectionLoop) (collectionLatencyMs : F) (nowMs : String → Int)
  | fail (loop : CollectionLoop) (nowMs : String → Int)

/-- The loop an event is about. -/
def CollectionEvent.loop : CollectionEvent F → CollectionLoop
  | .wake loop _      => loop
  | .produce loop _   => loop
  | .deliver loop _ _ => loop
  | .fail loop _      => loop

namespace CollectionLoops

/-- `_last_telemetry[hea_id] = tel` -/
def store (heaId : String) (number : Option Nat) (sample : TimedTelemetry F) (c : CollectionLoops F) :
    CollectionLoops F :=
  { c with lastTelemetry := c.lastTelemetry.set heaId sample, stored := c.stored ++ [⟨heaId, number, sample⟩] }

/-- The loop is suspended. -/
def suspend (loop : CollectionLoop) (state : LoopState) (c : CollectionLoops F) : CollectionLoops F :=
  { c with loops := Function.update c.loops loop state }

/-- `_collect_all` from the HEAs left to the next suspension. -/
def proceed (getStub : String → Option HEAClient) (loop : CollectionLoop) (nowMs : String → Int) :
    List String → CollectionLoops F → CollectionLoops F
  | [], c            => c.suspend loop .sleeping
  | heaId :: rest, c =>
      match getStub heaId with
      | some _ => c.suspend loop (.awaiting heaId rest none)
      | none   => proceed getStub loop nowMs rest (c.store heaId none (.unreached (nowMs heaId)))

/-- One step of the loops and the HEAs. -/
def step (getStub : String → Option HEAClient) (c : CollectionLoops F) : CollectionEvent F → Option (CollectionLoops F)
  | .wake loop nowMs =>
      match c.loops loop with
      | .sleeping => some (c.proceed getStub loop nowMs c.lastTelemetry.keys)
      | _         => none
  | .produce loop response =>
      match c.loops loop with
      | .awaiting heaId rest none =>
          if (c.produced heaId).all (fun r => r.timestampMs ≤ response.timestampMs) then
            some { c.suspend loop (.awaiting heaId rest (some (c.produced heaId).length)) with
              produced := Function.update c.produced heaId (c.produced heaId ++ [response]) }
          else none
      | _ => none
  | .deliver loop collectionLatencyMs nowMs =>
      match c.loops loop with
      | .awaiting heaId rest (some n) =>
          (c.produced heaId)[n]?.map fun response =>
            (c.store heaId (some n)
              (.collectOne (getStub heaId) ⟨.ok response, collectionLatencyMs⟩ (nowMs heaId))).proceed
                getStub loop nowMs rest
      | _ => none
  | .fail loop nowMs =>
      match c.loops loop with
      | .awaiting heaId rest _ =>
          some ((c.store heaId none (.unreached (nowMs heaId))).proceed getStub loop nowMs rest)
      | .sleeping => none

/-- `TelemetryCollector.__init__`, with both tasks created. -/
def new (heaEndpoints : List String) : CollectionLoops F where
  lastTelemetry :=
    Dict.mapValues (fun tel => ⟨tel, 0⟩) (TelemetryCollector.new (F := F) heaEndpoints).lastTelemetry
  loops    := fun _ => .sleeping
  produced := fun _ => []
  stored   := []

/-- The runs of the loops that `main.run` starts. -/
def system (clients : HeaClients) (heaEndpoints : List String) : Lts (CollectionLoops F) (CollectionEvent F) :=
  Lts.ofStep (fun c => c = new heaEndpoints) (step (Main.getStub clients))

end CollectionLoops

end Aode
end HybridStream
