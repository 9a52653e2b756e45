import HybridStream.Aode.Correctness.MigrationTrace
import HybridStream.Lib.Lts

/-!
# `Aode.Correctness.MigrationSteps` — the coroutine of a migration, resumption by resumption

`Coroutine.executeMigration` runs a migration in one go, `MigrationTask.step` from one `await` to the next. Where the
client table stays as it is and nothing outside cancels the migration, they are the same: the resumptions that answer
each `await` as the environment does end with the migration and the requests of the coroutine
(`reachable_executeMigration`).

The coroutine stands between two phases where the task does not stop; what the task has done by its next `await` is
`enter`.
-/

namespace HybridStream
namespace Aode
namespace Coroutine

open Lib Py MigrationTask

/-! ## Both sides of an answer

An answer to an `await` as the step relation has it, and the same answer as the environment of the coroutine. The
state of the task says at which `await` the coroutine stands. -/

/-- What the code reads of a response. An attribute that it does not have raises, except for `offset_map`. -/
def read : Response → RpcResponse
  | .drain r =>
      ⟨.ok (r.offsetMap.getD ∅), .error "error_msg", .error "object_key", .error "byte_size", .error "success"⟩
  | .snapshot r => ⟨.ok ∅, .ok r.errorMsg, .ok r.objectKey, .ok r.byteSize, .error "success"⟩
  | .restore r => ⟨.ok ∅, .error "error_msg", .error "object_key", .error "byte_size", .ok r.success⟩
  | .terminate r => ⟨.ok ∅, .ok r.errorMsg, .error "object_key", .error "byte_size", .ok r.success⟩

/-- The phase whose RPC returns such a response. -/
def phaseOf : Response → MigrationPhase
  | .drain _     => .phase1Drain
  | .snapshot _  => .phase2Snap
  | .restore _   => .phase3Restore
  | .terminate _ => .phase4Term

/-- The environment ends the `await` of a phase as the event says. -/
def Answers (env : Environment) (phase : MigrationPhase) : TaskEvent → Prop
  | .start _               => False
  | .returned response now => phaseOf response = phase ∧ now = env.now ∧ env.reply phase = .returned (read response)
  | .raised text           => env.reply phase = .raised text
  | .timedOut              => env.reply phase = .cancelled .timeout

/-- A migration with a client table that does not change and with what answers its `await`s, on both sides. -/
structure Setting where
  migration : PCTRMigration
  clients   : HeaClients
  timeoutS  : Int
  env       : Environment
  answer    : MigrationPhase → TaskEvent
  steady    : ∀ phase, env.clients phase = clients
  answered  : ∀ phase, Answers env phase (answer phase)
  started   : env.early = none

namespace Setting

variable {c : Setting} {p : Progress}

/-- The resumptions of the migration's task, with the requests made so far: it is started, and each `await` is answered
    by the event of its phase. -/
def resumptions (c : Setting) : Lts (MigrationTask × List Rpc) TaskEvent :=
  (Lts.ofStep (fun s => s = (⟨c.migration, .pending⟩, [])) fun s e =>
    (s.1.step c.clients c.timeoutS e).map fun next => (next.1, s.2 ++ next.2.toList)).restrict
      fun s e => e = .start c.env.now ∨ e = c.answer s.1.migration.phase

/-- The task has reached the `await` the coroutine stands at. -/
def Awaiting (c : Setting) (p : Progress) : Prop :=
  c.resumptions.Reachable (⟨p.migration, .awaiting⟩, p.calls.map Prod.fst)

/-- The task has gone on into a phase that the coroutine is about to begin. -/
def Entered (c : Setting) (phase : MigrationPhase) (p : Progress) : Prop :=
  c.resumptions.Reachable ((enter c.clients c.env.now phase p.migration).1,
    p.calls.map Prod.fst ++ (enter c.clients c.env.now phase p.migration).2.toList)

/-- The task has ended with the migration of the coroutine. -/
def Over (c : Setting) (p : Progress) : Prop :=
  c.resumptions.Reachable (⟨p.migration, .finished⟩, p.calls.map Prod.fst)

/-- The error text an exit leaves. -/
def errorOf (c : Setting) : Exit → String
  | .exception text => text
  | .cancelled _    => s!"Migration timed out after {c.timeoutS}s"

/-- The task has ended with the error text of an exit, which is none from outside. -/
def Failed (c : Setting) (exit : Exit) (p : Progress) : Prop :=
  exit ≠ .cancelled .outside ∧ c.Over { p with migration := { p.migration with error := some (c.errorOf exit) } }

theorem Failed.of_exception {text : String}
    (h : c.Over { p with migration := { p.migration with error := some text } }) : c.Failed (.exception text) p :=
  ⟨nofun, h⟩

/-- A resumption from an `await` to whatever comes next. -/
theorem Awaiting.resume (h : c.Awaiting p) {next : MigrationTask × Option Rpc}
    (hstep : (⟨p.migration, .awaiting⟩ : MigrationTask).step c.clients c.timeoutS (c.answer p.migration.phase) =
      some next) : c.resumptions.Reachable (next.1, p.calls.map Prod.fst ++ next.2.toList) :=
  h.tail ⟨Option.map_eq_some_iff.mpr ⟨next, hstep, rfl⟩, Or.inr rfl⟩

/-- A resumption from an `await` to the end. -/
theorem Awaiting.over (h : c.Awaiting p) {m : PCTRMigration}
    (hstep : (⟨p.migration, .awaiting⟩ : MigrationTask).step c.clients c.timeoutS (c.answer p.migration.phase) =
      some (⟨m, .finished⟩, none)) : c.Over { p with migration := m } := by
  have hresumed := h.resume hstep
  rwa [Option.toList_none, List.append_nil] at hresumed

/-- The task is at the `await` of a phase and is about to be resumed with a response of its RPC. -/
def Answered (c : Setting) (phase : MigrationPhase) (r : RpcResponse) (p : Progress) : Prop :=
  c.Awaiting p ∧ p.migration.phase = phase ∧ ∃ response, r = read response ∧ phaseOf response = phase ∧
    (⟨p.migration, .awaiting⟩ : MigrationTask).step c.clients c.timeoutS (c.answer p.migration.phase) =
      resume c.clients c.env.now p.migration response

/-- The call of a phase: the task waits for it and is resumed as the environment has it. -/
theorem ends_call {rpc : Rpc} (h : ∀ reply, c.Awaiting { p with calls := p.calls ++ [(rpc, reply)] }) :
    Proc.Ends (call c.env p.migration.phase rpc) p (c.Answered p.migration.phase) c.Failed := by
  refine Proc.ends_modify_bind ?_
  have hanswered := c.answered p.migration.phase
  cases hevent : c.answer p.migration.phase with
  | start now =>
      rw [hevent] at hanswered
      exact hanswered.elim
  | returned response now =>
      rw [hevent] at hanswered
      obtain ⟨hresponse, rfl, hreply⟩ := hanswered
      rw [hreply]
      exact Proc.ends_pure ⟨h _, rfl, response, rfl, hresponse, by rw [hevent]; rfl⟩
  | raised text =>
      rw [hevent] at hanswered
      rw [show c.env.reply p.migration.phase = .raised text from hanswered]
      exact Proc.ends_throw (.of_exception ((h _).over (by rw [hevent]; rfl)))
  | timedOut =>
      rw [hevent] at hanswered
      rw [show c.env.reply p.migration.phase = .cancelled .timeout from hanswered]
      exact Proc.ends_throw ⟨nofun, (h _).over (by rw [hevent]; rfl)⟩

/-- **The beginning of a phase**: the task is at its `await`, or has ended before it. -/
theorem ends_request {phase : MigrationPhase} {rpcOf : HeaClients → PCTRMigration → Except String Rpc}
    (henter : enter c.clients c.env.now phase p.migration =
      match rpcOf c.clients { p.migration with phase := phase } with
      | .ok rpc     => (⟨{ p.migration with phase := phase }, .awaiting⟩, some rpc)
      | .error text => fail { p.migration with phase := phase } text)
    (h : c.Entered phase p) : Proc.Ends (request c.env phase rpcOf) p (c.Answered phase) c.Failed := by
  unfold Entered at h
  rw [henter] at h
  refine Proc.ends_modify_bind (Proc.ends_get_bind ?_)
  rw [c.steady]
  show Proc.Ends (evaluate (rpcOf c.clients { p.migration with phase := phase }) >>= call c.env phase) _ _ _
  cases hrpc : rpcOf c.clients { p.migration with phase := phase } with
  | error text =>
      rw [hrpc] at h
      dsimp only [fail] at h
      rw [Option.toList_none, List.append_nil] at h
      exact Proc.ends_throw (.of_exception h)
  | ok rpc =>
      rw [hrpc] at h
      refine ends_call (p := { p with migration := { p.migration with phase := phase } }) fun reply => ?_
      unfold Awaiting
      rw [List.map_append]
      exact h

/-! ## One phase after the other

Each phase is run on both sides at once: the coroutine by its statements, the task by one resumption. -/

theorem ends_phase1Drain (h : c.Entered .phase1Drain p) :
    Proc.Ends (phase1Drain c.env) p (fun _ => c.Entered .phase2Snap) c.Failed := by
  refine Proc.ends_bind (ends_request rfl h) ?_
  rintro _ q ⟨hawaiting, hphase, response, rfl, hresponse, hstep⟩
  cases response with
  | snapshot | restore | terminate => cases hresponse
  | drain r =>
      refine Proc.ends_modify (hawaiting.resume ?_)
      rw [hstep, MigrationTask.resume, if_pos hphase]
      rfl

theorem ends_phase2Snapshot (h : c.Entered .phase2Snap p) :
    Proc.Ends (phase2Snapshot c.env) p (fun _ => c.Entered .phase3Restore) c.Failed := by
  refine Proc.ends_bind (ends_request rfl h) ?_
  rintro _ q ⟨hawaiting, hphase, response, rfl, hresponse, hstep⟩
  cases response with
  | drain | restore | terminate => cases hresponse
  | snapshot r =>
      show Proc.Ends (if r.errorMsg ≠ "" then _ else _) q _ _
      split_ifs with herror
      · refine Proc.ends_throw (.of_exception (hawaiting.over ?_))
        rw [hstep, MigrationTask.resume, if_pos hphase, PCTRMigration.phase2Snapped, if_pos herror]
        rfl
      · show c.Entered .phase3Restore _
        refine hawaiting.resume ?_
        rw [hstep, MigrationTask.resume, if_pos hphase, PCTRMigration.phase2Snapped, if_neg herror]

theorem ends_phase3Restore (h : c.Entered .phase3Restore p) :
    Proc.Ends (phase3Restore c.env) p (fun _ => c.Entered .phase4Term) c.Failed := by
  refine Proc.ends_bind (ends_request rfl h) ?_
  rintro _ q ⟨hawaiting, hphase, response, rfl, hresponse, hstep⟩
  cases response with
  | drain | snapshot | terminate => cases hresponse
  | restore r =>
      refine Proc.ends_pure (hawaiting.resume ?_)
      rw [hstep, MigrationTask.resume, if_pos hphase]
      rfl

theorem ends_phase4Terminate (h : c.Entered .phase4Term p) :
    Proc.Ends (phase4Terminate c.env) p
      (fun _ q => c.Over { q with migration := { q.migration with completed := true } }) c.Failed := by
  refine Proc.ends_bind (ends_request rfl h) ?_
  rintro _ q ⟨hawaiting, hphase, response, rfl, hresponse, hstep⟩
  cases response with
  | drain | snapshot | restore => cases hresponse
  | terminate r =>
      obtain ⟨success, errorMsg⟩ := r
      cases success with
      | true =>
          refine Proc.ends_pure (hawaiting.over ?_)
          rw [hstep, MigrationTask.resume, if_pos hphase]
          rfl
      | false =>
          refine Proc.ends_throw (.of_exception (hawaiting.over ?_))
          rw [hstep, MigrationTask.resume, if_pos hphase]
          rfl

/-! ## The whole migration

Composed over the four phases, with the exception and the cancellation that may end it at any of them. -/

theorem ends_executeMigration (h : c.Entered .phase1Drain p) :
    Proc.Ends (executeMigration c.env c.timeoutS) p (fun _ => c.Over) (fun _ _ => False) := by
  refine Proc.ends_bind (R := fun _ => c.Over) ?_ fun _ _ hover => hover
  refine Proc.ends_tryCatch (D := fun _ _ => False) ?_ fun _ _ hnone => hnone.elim
  refine Proc.ends_tryCatch (D := fun exit q => exit = .cancelled .timeout ∧ c.Failed exit q) ?_ ?_
  · rw [c.started]
    refine Proc.ends_bind (R := fun _ => c.Over) ?_ fun _ _ hover => hover
    refine Proc.ends_tryCatch (D := c.Failed) ?_ ?_
    · refine Proc.ends_bind (ends_phase1Drain h) fun _ q₁ hq₁ => ?_
      refine Proc.ends_bind (ends_phase2Snapshot hq₁) fun _ q₂ hq₂ => ?_
      refine Proc.ends_bind (ends_phase3Restore hq₂) fun _ q₃ hq₃ => ?_
      exact Proc.ends_bind (ends_phase4Terminate hq₃) fun _ q₄ hq₄ => hq₄
    · rintro (text | _ | _) q hq
      · exact hq.2
      · exact ⟨rfl, hq⟩
      · exact absurd rfl hq.1
  · rintro _ q ⟨rfl, hq⟩
    exact hq.2

/-- **Both are the same.** The coroutine returns, and a task that is answered as it is ends with its migration and its
    requests. -/
theorem reachable_executeMigration (c : Setting) (active : Dict String String) :
    ∃ p, (executeMigration c.env c.timeoutS).exec ⟨c.migration, [], active⟩ = (.ok ⟨⟩, p) ∧
      c.resumptions.Reachable (⟨p.migration, .finished⟩, p.calls.map Prod.fst) := by
  have hpending : c.resumptions.Reachable (⟨c.migration, .pending⟩, []) := Lts.Reachable.of_init rfl
  have hentered : c.Entered .phase1Drain ⟨c.migration, [], active⟩ :=
    hpending.tail (a := .start c.env.now) ⟨rfl, Or.inl rfl⟩
  rcases (ends_executeMigration hentered).of_exec with ⟨_, p, hexec, hover⟩ | ⟨_, _, _, hnone⟩
  · exact ⟨p, hexec, hover⟩
  · exact hnone.elim

end Setting
end Coroutine
end Aode
end HybridStream
