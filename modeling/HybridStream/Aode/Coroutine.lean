import HybridStream.Aode.Pctr
import HybridStream.Lib.Proc

/-!
# `Aode.Coroutine` — a migration from its start to its end

`PCTRMigration.execute` and `PCTROrchestrator._execute_migration` of `aode/migration/pctr.py`, statement by
statement. `MigrationTask.step` takes the same coroutine apart at its `await`s, and `Aode.Correctness.MigrationSteps`
shows that both agree; here an `await` asks an `Environment` how the call ends, and the state keeps the calls that were
made and how they ended.

A call may return any object: what the code reads of it (`RpcResponse`) raises or has a value, of the type that the
attribute it goes to is annotated with. Two things may cancel the coroutine at an `await`: the timeout of
`asyncio.wait_for`, or anything else that cancels the task or the call. Both arrive as a `CancelledError`, which is no
`Exception`.
-/

namespace HybridStream
namespace Aode

open Lib Py

/-! ## The environment

All that a migration cannot know: which tiers have a client when a phase looks, what each call returns or raises, what
reading an attribute of the response raises, and whether anybody cancels the task. -/

/-- What a client call returns. Each field is what reading it evaluates to, or the text of what the reading raises. -/
structure RpcResponse where
  /-- `dict(getattr(response, 'offset_map', {}))` -/
  offsetMap : Except String (Dict Int Int)
  errorMsg  : Except String String
  objectKey : Except String String
  byteSize  : Except String Int
  success   : Except String Bool

/-- Where a `CancelledError` comes from: from the timeout, or from whoever else has the task. -/
inductive Cancellation where
  | timeout
  | outside
  deriving DecidableEq

/-- How an `await` ends; of an `Exception` its text matters. -/
inductive Reply where
  | returned (response : RpcResponse)
  | raised (text : String)
  | cancelled (cause : Cancellation)

/-- What a migration meets: the client table as each phase finds it, the clock of phase 2, the end of the call of each
    phase, and a cancellation that comes before the first statement of `execute`. -/
structure Environment where
  clients : MigrationPhase → HeaClients
  now     : Int
  reply   : MigrationPhase → Reply
  early   : Option Cancellation

/-! ## The coroutine

The phases in the order of the source, each of them with what it sends and keeps. The state is the migration and the
calls made so far, so that the trace is what is left when the coroutine has ended. -/

/-- What a coroutine ends with if it does not return. -/
inductive Exit where
  | exception (text : String)
  | cancelled (cause : Cancellation)

/-- The migration, the calls it has made with their replies, and `_active_migrations`. -/
structure Progress where
  migration        : PCTRMigration
  calls            : List (Rpc × Reply)
  activeMigrations : Dict String String

/-- A coroutine of a migration: it may raise, and it works on what has been done so far. -/
abbrev Coroutine (α : Type) := Proc Exit Progress α

namespace Coroutine

/-- An expression that may raise, as an attribute of a response. -/
def evaluate {α : Type} : Except String α → Coroutine α
  | .ok a       => pure a
  | .error text => throw (.exception text)

/-- An assignment to attributes of the migration. -/
def update (f : PCTRMigration → PCTRMigration) : Coroutine PUnit :=
  modify fun p => { p with migration := f p.migration }

variable (env : Environment)

/-- `await client.…(…)`: the call is noted, whatever comes back. -/
def call (phase : MigrationPhase) (rpc : Rpc) : Coroutine RpcResponse := do
  modify fun p => { p with calls := p.calls ++ [(rpc, env.reply phase)] }
  match env.reply phase with
  | .returned response => pure response
  | .raised text       => throw (.exception text)
  | .cancelled cause   => throw (.cancelled cause)

/-- What the phases begin with: the phase is noted, the request is made for a client that is there, and its call is
    awaited. -/
def request (phase : MigrationPhase) (rpcOf : HeaClients → PCTRMigration → Except String Rpc) :
    Coroutine RpcResponse := do
  update fun m => { m with phase := phase }
  let p ← get
  let rpc ← evaluate (rpcOf (env.clients phase) p.migration)
  call env phase rpc

/-- `_phase_1_drain`, with the attribute of the response evaluated after the `await`. -/
def phase1Drain : Coroutine PUnit := do
  let response ← request env .phase1Drain PCTRMigration.phase1Drain
  let offsetMap ← evaluate response.offsetMap
  update fun m => { m with drainOffsetMap := offsetMap }

/-- `_phase_2_snapshot`: the text of the response decides, and the two attributes are then read one after the other. -/
def phase2Snapshot : Coroutine PUnit := do
  let response ← request env .phase2Snap fun clients m => m.phase2Snapshot clients env.now
  let errorMsg ← evaluate response.errorMsg
  if errorMsg ≠ "" then throw (.exception s!"Snapshot failed: {errorMsg}")
  else do
    let objectKey ← evaluate response.objectKey
    update fun m => { m with snapshotObjectKey := some objectKey }
    let byteSize ← evaluate response.byteSize
    update fun m => { m with snapshotSize := byteSize }

/-- `_phase_3_restore`; the response is dropped. -/
def phase3Restore : Coroutine PUnit := do
  let _ ← request env .phase3Restore PCTRMigration.phase3Restore

/-- `_phase_4_terminate`: the success flag decides, and the text is read only for a failure. -/
def phase4Terminate : Coroutine PUnit := do
  let response ← request env .phase4Term PCTRMigration.phase4Terminate
  let success ← evaluate response.success
  if success then pure ⟨⟩
  else do
    let errorMsg ← evaluate response.errorMsg
    throw (.exception s!"Termination failed: {errorMsg}")

/-- `execute`; an `Exception` is caught, a `CancelledError` is none. -/
def execute : Coroutine Bool :=
  tryCatch
    (do
      phase1Drain env
      phase2Snapshot env
      phase3Restore env
      phase4Terminate env
      update fun m => { m with completed := true }
      return true)
    fun
      | .exception text => do
          update fun m => { m with error := some text }
          return false
      | exit => throw exit

/-- The `finally` block of `_execute_migration`: the entry of the operator is removed, if it is still there. -/
def popActive : Coroutine PUnit :=
  modify fun p => { p with activeMigrations := p.activeMigrations.pop p.migration.operatorId }

/-- `_execute_migration`; `timeoutS` is `config.migration_timeout_s`. Of the two cancellations `wait_for` turns its own
    into a `TimeoutError`. -/
def executeMigration (timeoutS : Int) : Coroutine PUnit := do
  tryCatch
    (tryCatch
      (do
        match env.early with
        | some cause => throw (.cancelled cause)
        | none       => let _ ← execute env)
      fun
        | .cancelled .timeout => update fun m => { m with error := some s!"Migration timed out after {timeoutS}s" }
        | exit                => throw exit)
    fun exit => do
      popActive
      throw exit
  popActive

/-- `migrate_operator` has created the migration and entered it under its operator. -/
def created (active : Dict String String) (migrationId operatorId sourceTier targetTier : String) : Progress where
  migration        := PCTRMigration.new migrationId operatorId sourceTier targetTier
  calls            := []
  activeMigrations := active.set operatorId migrationId

end Coroutine

end Aode
end HybridStream
