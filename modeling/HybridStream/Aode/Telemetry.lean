import HybridStream.Aode.Main
import HybridStream.Aode.Scoring
import HybridStream.Hea.Metrics

/-!
# `Aode.Telemetry` — collecting telemetry from the HEAs

The collecting side of `aode/telemetry/collector.py`, over the stubs `main.run` installs. A collection asks
every registered HEA in turn; one without a stub, or whose call raises, is taken for unreachable.

What is stored is replaced in one go when the round of an HEA has ended, so a reader finds the last telemetry of every
HEA and never a part of one. `Aode.CollectionLoops` has the same round cut at its `await`s, for the runs in which two
loops are under way.
-/

namespace HybridStream
namespace Aode

open Lib Py

variable {F : Type} [PyRuntime F]

namespace Main

/-- `endpoint.split(":")[0]`: what stands before the first colon. -/
def hostOf (endpoint : String) : String := String.ofList (endpoint.toList.takeWhile (fun c => c != ':'))

/-- `_ep_map`: every client under its host, and under its endpoint. -/
def epMap (clients : HeaClients) : HeaClients :=
  (Dict.ofList (clients.entries.map (fun e => (hostOf e.1, e.2)))).update clients.entries

/-- `_patched_get_stub`, by which the collector finds the client of a name. -/
def getStub (clients : HeaClients) (heaId : String) : Option HEAClient := (epMap clients).get heaId

end Main

namespace TelemetryCollector

/-- The telemetry of an HEA that was not reached. -/
def notReached : HEATelemetry F := ⟨0.0, 0.0, 1000.0, ∅, false⟩

/-- `register_hea`: a name that is new counts as not reached. -/
def registerHea (t : TelemetryCollector F) (heaId : String) : TelemetryCollector F :=
  if t.lastTelemetry.contains heaId then t else ⟨t.lastTelemetry.set heaId notReached⟩

/-- `TelemetryCollector.__init__`: the host of each endpoint is registered. -/
def new (heaEndpoints : List String) : TelemetryCollector F :=
  heaEndpoints.foldl (fun t endpoint => t.registerHea (Main.hostOf endpoint)) ⟨∅⟩

/-- How the call of an HEA ends, and the milliseconds it takes. -/
structure Answer (F : Type) where
  response            : Except PyError (Hea.TelemetryResponse F)
  collectionLatencyMs : F

/-- `_collect_one`: no client, and a call that raises, count as not reached. -/
def collectOne (stub : Option HEAClient) (answer : Answer F) : HEATelemetry F :=
  match stub, answer.response with
  | some _, .ok response =>
      { cpuUtilization    := response.cpuUtilization
        memoryUtilization := response.memoryUtilization
        rttMs             := answer.collectionLatencyMs
        operatorP95Ms     := response.operatorP95Ms
        reachable         := response.reachable }
  | _, _ => notReached

/-- `_collect_all`: every name that is registered is asked, and all answers are stored. -/
def collectAll (getStub : String → Option HEAClient) (answers : String → Answer F) (t : TelemetryCollector F) :
    TelemetryCollector F :=
  ⟨t.lastTelemetry.update (t.lastTelemetry.keys.map
    (fun heaId => (heaId, collectOne (getStub heaId) (answers heaId))))⟩

/-- After a collection everything on record is from it. -/
theorem get_collectAll {getStub : String → Option HEAClient} {answers : String → Answer F}
    {t : TelemetryCollector F} {heaId : String} {tel : HEATelemetry F}
    (h : (t.collectAll getStub answers).lastTelemetry.get heaId = some tel) :
    heaId ∈ t.lastTelemetry.keys ∧ tel = collectOne (getStub heaId) (answers heaId) := by
  by_cases hkey : heaId ∈ t.lastTelemetry.keys
  · have hget := Dict.get_update_map_of_mem (fun heaId => collectOne (getStub heaId) (answers heaId))
      t.lastTelemetry hkey
    exact ⟨hkey, Option.some.inj (h.symm.trans hget)⟩
  · have hget := Dict.get_update_map_of_not_mem (fun heaId => collectOne (getStub heaId) (answers heaId))
      t.lastTelemetry hkey
    exact absurd (Dict.mem_keys_iff.mpr ⟨tel, hget ▸ h⟩) hkey

end TelemetryCollector

end Aode
end HybridStream
