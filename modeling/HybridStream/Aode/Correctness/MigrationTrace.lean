import HybridStream.Aode.Coroutine
import HybridStream.Lib.Triple

/-!
# `Aode.Correctness.MigrationTrace` — what a migration calls and how it ends

Whatever the environment answers, the calls of a migration follow the protocol (`Follows`): they are the first ones of
drain, snapshot, restore and terminate, the snapshot with the offset map the drain returned, the restore with the key
the snapshot returned. The migration is completed exactly if all four returned with success (`AllReturned`), and one
that is not cancelled from outside ends completed or with an error text, never with both.

Each phase has one lemma, on where it gets from `Underway` and on how it stops short of that.
-/

namespace HybridStream
namespace Aode
namespace Coroutine

open Lib Py

variable {env : Environment} {m : PCTRMigration} {p : Progress}

/-! ## The protocol

Four requests in a fixed order, of which a trace is a beginning, and in each the data of the responses before it. -/

/-- The four requests, for an offset map and an object key. -/
def requests (m : PCTRMigration) (now : Int) (offsetMap : Dict Int Int) (objectKey : String) : List Rpc :=
  [ .drainOperator m.sourceTier m.operatorId,
    .triggerSnapshot m.sourceTier m.operatorId now (Json.dumpsIntMap offsetMap),
    .restoreOperator m.targetTier m.operatorId (some objectKey),
    .terminateOperator m.sourceTier m.operatorId true ]

/-- The calls are the first ones of the protocol, in its order and each at most once; the offset map is the one the
    first call returned, the object key the one the second returned. -/
def Follows (m : PCTRMigration) (now : Int) (calls : List (Rpc × Reply)) : Prop :=
  ∃ offsetMap objectKey, calls.map Prod.fst <+: requests m now offsetMap objectKey ∧
    (2 ≤ calls.length → ∃ r, (calls.map Prod.snd)[0]? = some (.returned r) ∧ r.offsetMap = .ok offsetMap) ∧
    (3 ≤ calls.length → ∃ r, (calls.map Prod.snd)[1]? = some (.returned r) ∧ r.objectKey = .ok objectKey)

/-- All four calls were made and returned, the snapshot without an error, the terminate with success. -/
def AllReturned (calls : List (Rpc × Reply)) : Prop :=
  ∃ r₁ r₂ r₃ r₄, calls.map Prod.snd = [.returned r₁, .returned r₂, .returned r₃, .returned r₄] ∧
    r₂.errorMsg = .ok "" ∧ r₄.success = .ok true

theorem Follows.of_concat {now : Int} {calls : List (Rpc × Reply)} {call : Rpc × Reply}
    (h : Follows m now (calls ++ [call])) : Follows m now calls := by
  obtain ⟨offsetMap, objectKey, hprotocol, hdrained, hsnapped⟩ := h
  have hlength : calls.length ≤ (calls ++ [call]).length := by simp
  refine ⟨offsetMap, objectKey, ?_, fun hlt => ?_, fun hlt => ?_⟩
  · rw [List.map_append] at hprotocol
    exact (List.prefix_append _ _).trans hprotocol
  · have hreply := hdrained (hlt.trans hlength)
    rwa [List.map_append, List.getElem?_append_left (by rw [List.length_map]; omega)] at hreply
  · have hreply := hsnapped (hlt.trans hlength)
    rwa [List.map_append, List.getElem?_append_left (by rw [List.length_map]; omega)] at hreply

theorem not_allReturned_of_length {calls : List (Rpc × Reply)} (h : calls.length < 4) : ¬ AllReturned calls := by
  rintro ⟨r₁, r₂, r₃, r₄, hreplies, -, -⟩
  have hlength := congrArg List.length hreplies
  rw [List.length_map] at hlength
  exact absurd hlength h.ne

/-- A call that did not return. -/
theorem not_allReturned_concat {calls : List (Rpc × Reply)} {rpc : Rpc} {reply : Reply}
    (h : ∀ r, reply ≠ .returned r) : ¬ AllReturned (calls ++ [(rpc, reply)]) := by
  rintro ⟨r₁, r₂, r₃, r₄, hreplies, -, -⟩
  have hlast := congrArg List.getLast? hreplies
  rw [List.map_append, List.map_singleton, List.getLast?_concat] at hlast
  exact h r₄ (Option.some.inj hlast)

/-- The first requests, each with a reply. -/
def made (m : PCTRMigration) (now : Int) (offsetMap : Dict Int Int) (objectKey : String) (replies : List Reply) :
    List (Rpc × Reply) :=
  (requests m now offsetMap objectKey).zip replies

section Made

variable {now : Int} {offsetMap : Dict Int Int} {objectKey : String} {replies : List Reply}

theorem map_fst_zip_prefix {α β : Type} (xs : List α) (ys : List β) : (xs.zip ys).map Prod.fst <+: xs := by
  induction xs generalizing ys with
  | nil => exact List.nil_prefix
  | cons x xs ih =>
      cases ys with
      | nil => exact List.nil_prefix
      | cons y ys => exact List.cons_prefix_cons.mpr ⟨rfl, ih ys⟩

theorem replies_made (h : replies.length ≤ 4) : (made m now offsetMap objectKey replies).map Prod.snd = replies :=
  List.map_snd_zip h

theorem length_made (h : replies.length ≤ 4) : (made m now offsetMap objectKey replies).length = replies.length := by
  have hreplies : (made m now offsetMap objectKey replies).map Prod.snd = replies := replies_made h
  rw [← List.length_map (f := Prod.snd), hreplies]

theorem follows_made (hlength : replies.length ≤ 4)
    (hdrained : 2 ≤ replies.length → ∃ r, replies[0]? = some (.returned r) ∧ r.offsetMap = .ok offsetMap)
    (hsnapped : 3 ≤ replies.length → ∃ r, replies[1]? = some (.returned r) ∧ r.objectKey = .ok objectKey) :
    Follows m now (made m now offsetMap objectKey replies) := by
  refine ⟨offsetMap, objectKey, map_fst_zip_prefix _ _, ?_, ?_⟩
  · rw [length_made hlength, replies_made hlength]
    exact hdrained
  · rw [length_made hlength, replies_made hlength]
    exact hsnapped

theorem allReturned_made (hlength : replies.length ≤ 4) : AllReturned (made m now offsetMap objectKey replies) ↔
    ∃ r₁ r₂ r₃ r₄, replies = [.returned r₁, .returned r₂, .returned r₃, .returned r₄] ∧
      r₂.errorMsg = .ok "" ∧ r₄.success = .ok true := by
  unfold AllReturned
  rw [replies_made hlength]

end Made

/-! ## One phase after the other

What is known when a phase begins, and the three ways in which it can end: the next phase may begin, an exception, a
cancellation. One lemma for each phase, all by the same rule for how a phase begins. -/

/-- The migration `m` is under way: it has made these calls, it has this offset map and this object key, and it has not
    ended. -/
structure Underway (m : PCTRMigration) (calls : List (Rpc × Reply)) (offsetMap : Dict Int Int)
    (objectKey : Option String) (p : Progress) : Prop where
  calls     : p.calls = calls
  route     : p.migration.route = m.route
  offsetMap : p.migration.drainOffsetMap = offsetMap
  objectKey : p.migration.snapshotObjectKey = objectKey
  completed : p.migration.completed = false
  error     : p.migration.error = none

/-- The cause has cancelled the migration before its start, or one of its calls. -/
def Cancelled (env : Environment) (cause : Cancellation) (p : Progress) : Prop :=
  env.early = some cause ∨ ∃ call ∈ p.calls, call.2 = .cancelled cause

/-- It has stopped short of the end, with an exception or a cancellation. -/
structure Stopped (env : Environment) (m : PCTRMigration) (exit : Exit) (p : Progress) : Prop where
  follows   : Follows m env.now p.calls
  short     : ¬ AllReturned p.calls
  completed : p.migration.completed = false
  error     : p.migration.error = none
  cause     : ∀ cause, exit = .cancelled cause → Cancelled env cause p

namespace Underway

variable {calls : List (Rpc × Reply)} {offsetMap : Dict Int Int} {objectKey : Option String}

/-- An exception where the calls so far follow the protocol. -/
theorem stopped (h : Underway m calls offsetMap objectKey p) (hfollows : Follows m env.now calls)
    (hshort : ¬ AllReturned calls) (text : String) : Stopped env m (.exception text) p :=
  ⟨h.calls ▸ hfollows, h.calls ▸ hshort, h.completed, h.error, nofun⟩

theorem operatorId (h : Underway m calls offsetMap objectKey p) : p.migration.operatorId = m.operatorId :=
  congrArg Prod.fst h.route

theorem sourceTier (h : Underway m calls offsetMap objectKey p) : p.migration.sourceTier = m.sourceTier :=
  congrArg (fun route => route.2.1) h.route

theorem targetTier (h : Underway m calls offsetMap objectKey p) : p.migration.targetTier = m.targetTier :=
  congrArg (fun route => route.2.2) h.route

end Underway

/-- What follows an expression that may raise. -/
theorem ends_evaluate_bind {α β : Type} {x : Except String α} {f : α → Coroutine β} {Q : β → Progress → Prop}
    {E : Exit → Progress → Prop} (hok : ∀ a, x = .ok a → Proc.Ends (f a) p Q E)
    (herror : ∀ text, E (.exception text) p) : Proc.Ends (evaluate x >>= f) p Q E := by
  cases x with
  | ok a       => exact hok a rfl
  | error text => exact herror text

/-- **The beginning of a phase.** It stops before its call or with it, or the call returns. -/
theorem ends_request {phase : MigrationPhase} {rpcOf : HeaClients → PCTRMigration → Except String Rpc} {rpc : Rpc}
    {calls : List (Rpc × Reply)} {offsetMap : Dict Int Int} {objectKey : Option String}
    (h : Underway m calls offsetMap objectKey p)
    (hrpc : ∀ clients q, Underway m calls offsetMap objectKey q →
      ∀ rpc', rpcOf clients q.migration = .ok rpc' → rpc' = rpc)
    (hlength : calls.length < 4) (hfollows : ∀ reply, Follows m env.now (calls ++ [(rpc, reply)])) :
    Proc.Ends (request env phase rpcOf) p
      (fun r => Underway m (calls ++ [(rpc, .returned r)]) offsetMap objectKey) (Stopped env m) := by
  refine Proc.ends_modify_bind (Proc.ends_get_bind ?_)
  -- the phase is noted
  have hnoted : Underway m calls offsetMap objectKey { p with migration := { p.migration with phase := phase } } :=
    ⟨h.calls, h.route, h.offsetMap, h.objectKey, h.completed, h.error⟩
  refine ends_evaluate_bind (fun rpc' hok => ?_)
    (hnoted.stopped (hfollows (.raised "")).of_concat (not_allReturned_of_length hlength))
  obtain rfl := hrpc _ _ hnoted rpc' hok
  refine Proc.ends_modify_bind ?_
  -- the call is made and ends
  have hstopped : ∀ exit reply, (∀ r, reply ≠ .returned r) →
      (∀ cause, exit = .cancelled cause → reply = .cancelled cause) →
      Stopped env m exit
        { p with migration := { p.migration with phase := phase }, calls := p.calls ++ [(rpc', reply)] } := by
    intro exit reply hreply hcause
    rw [h.calls]
    exact ⟨hfollows reply, not_allReturned_concat hreply, h.completed, h.error, fun cause hexit =>
      Or.inr ⟨_, List.mem_append_right _ List.mem_cons_self, hcause cause hexit⟩⟩
  cases hreply : env.reply phase with
  | returned r =>
      exact ⟨congrArg (· ++ [(rpc', Reply.returned r)]) h.calls, h.route, h.offsetMap, h.objectKey, h.completed,
        h.error⟩
  | raised text => exact hstopped _ _ nofun nofun
  | cancelled cause => exact hstopped _ _ nofun fun cause' hcause => by cases hcause; rfl

/-- What a phase sends once the client of the source tier is found. -/
theorem rpc_of_sourceClient {clients : HeaClients} {rpc rpc' : Rpc}
    (h : (m.sourceClient clients >>= fun _ => .ok rpc) = .ok rpc') : rpc' = rpc := by
  obtain ⟨client, -, hrpc⟩ := bind_eq_ok.mp h
  cases hrpc
  rfl

theorem ends_phase1Drain (h : Underway m (made m env.now ∅ "" []) ∅ none p) :
    Proc.Ends (phase1Drain env) p
      (fun _ q => ∃ r offsetMap, r.offsetMap = .ok offsetMap ∧
        Underway m (made m env.now offsetMap "" [.returned r]) offsetMap none q)
      (Stopped env m) := by
  have hfollows : ∀ reply, Follows m env.now (made m env.now ∅ "" [reply]) := fun reply =>
    follows_made (by simp) (by simp) (by simp)
  refine Proc.ends_bind (ends_request h ?_ (by simp [made, requests]) hfollows) ?_
  · intro clients q hq rpc hrpc
    rw [rpc_of_sourceClient hrpc, hq.sourceTier, hq.operatorId]
  · intro r q hq
    refine ends_evaluate_bind (fun offsetMap hoffsetMap => ?_)
      (hq.stopped (hfollows _) (not_allReturned_of_length (by simp [made, requests])))
    exact Proc.ends_modify ⟨r, offsetMap, hoffsetMap, hq.calls, hq.route, rfl, hq.objectKey, hq.completed, hq.error⟩

theorem ends_phase2Snapshot {r₁ : RpcResponse} {offsetMap : Dict Int Int} (h₁ : r₁.offsetMap = .ok offsetMap)
    (h : Underway m (made m env.now offsetMap "" [.returned r₁]) offsetMap none p) :
    Proc.Ends (phase2Snapshot env) p
      (fun _ q => ∃ r objectKey, r.errorMsg = .ok "" ∧ r.objectKey = .ok objectKey ∧
        Underway m (made m env.now offsetMap objectKey [.returned r₁, .returned r]) offsetMap (some objectKey) q)
      (Stopped env m) := by
  have hfollows : ∀ reply, Follows m env.now (made m env.now offsetMap "" [.returned r₁, reply]) := fun reply =>
    follows_made (by simp) (fun _ => ⟨r₁, rfl, h₁⟩) (by simp)
  refine Proc.ends_bind (ends_request h ?_ (by simp [made, requests]) hfollows) ?_
  · intro clients q hq rpc hrpc
    rw [rpc_of_sourceClient hrpc, hq.sourceTier, hq.operatorId, hq.offsetMap]
  · intro r q hq
    have hshort : ¬ AllReturned (made m env.now offsetMap "" [.returned r₁, .returned r]) :=
      not_allReturned_of_length (by simp [made, requests])
    refine ends_evaluate_bind (fun errorMsg herrorMsg => ?_) (hq.stopped (hfollows _) hshort)
    split_ifs with herror
    · exact Proc.ends_throw (hq.stopped (hfollows _) hshort _)
    · rw [not_not.mp herror] at herrorMsg
      refine ends_evaluate_bind (fun objectKey hobjectKey => ?_) (hq.stopped (hfollows _) hshort)
      -- the key is kept even if the size cannot be read
      refine Proc.ends_modify_bind (ends_evaluate_bind (fun byteSize _ => ?_) fun text => ?_)
      · exact ⟨r, objectKey, herrorMsg, hobjectKey, hq.calls, hq.route, hq.offsetMap, rfl, hq.completed, hq.error⟩
      · exact ⟨hq.calls ▸ hfollows _, hq.calls ▸ hshort, hq.completed, hq.error, nofun⟩

theorem ends_phase3Restore {r₁ r₂ : RpcResponse} {offsetMap : Dict Int Int} {objectKey : String}
    (h₁ : r₁.offsetMap = .ok offsetMap) (h₂ : r₂.objectKey = .ok objectKey)
    (h : Underway m (made m env.now offsetMap objectKey [.returned r₁, .returned r₂]) offsetMap (some objectKey) p) :
    Proc.Ends (phase3Restore env) p
      (fun _ q => ∃ r, Underway m (made m env.now offsetMap objectKey [.returned r₁, .returned r₂, .returned r])
        offsetMap (some objectKey) q)
      (Stopped env m) := by
  have hfollows : ∀ reply, Follows m env.now
      (made m env.now offsetMap objectKey [.returned r₁, .returned r₂, reply]) := fun reply =>
    follows_made (by simp) (fun _ => ⟨r₁, rfl, h₁⟩) (fun _ => ⟨r₂, rfl, h₂⟩)
  refine Proc.ends_bind (ends_request h ?_ (by simp [made, requests]) hfollows) ?_
  · intro clients q hq rpc hrpc
    unfold PCTRMigration.phase3Restore at hrpc
    rw [hq.targetTier, hq.operatorId, hq.objectKey] at hrpc
    split_ifs at hrpc
    · cases hrpc
      rfl
    · split at hrpc
      · cases hrpc
        rfl
      · cases hrpc
  · intro r q hq
    exact Proc.ends_pure ⟨r, hq⟩

theorem ends_phase4Terminate {r₁ r₂ r₃ : RpcResponse} {offsetMap : Dict Int Int} {objectKey : String}
    (h₁ : r₁.offsetMap = .ok offsetMap) (h₂ : r₂.objectKey = .ok objectKey) (herrorMsg : r₂.errorMsg = .ok "")
    (h : Underway m (made m env.now offsetMap objectKey [.returned r₁, .returned r₂, .returned r₃])
      offsetMap (some objectKey) p) :
    Proc.Ends (phase4Terminate env) p
      (fun _ q => ∃ calls, Follows m env.now calls ∧ AllReturned calls ∧
        Underway m calls offsetMap (some objectKey) q)
      (Stopped env m) := by
  have hfollows : ∀ reply, Follows m env.now
      (made m env.now offsetMap objectKey [.returned r₁, .returned r₂, .returned r₃, reply]) := fun reply =>
    follows_made (by simp) (fun _ => ⟨r₁, rfl, h₁⟩) (fun _ => ⟨r₂, rfl, h₂⟩)
  -- the fourth reply decides
  have hall : ∀ reply,
      AllReturned (made m env.now offsetMap objectKey [.returned r₁, .returned r₂, .returned r₃, reply]) ↔
        ∃ r, reply = .returned r ∧ r.success = .ok true := by
    intro reply
    rw [allReturned_made (by simp)]
    constructor
    · rintro ⟨_, _, _, r₄, hreplies, -, hsuccess⟩
      cases hreplies
      exact ⟨r₄, rfl, hsuccess⟩
    · rintro ⟨r, rfl, hsuccess⟩
      exact ⟨r₁, r₂, r₃, r, rfl, herrorMsg, hsuccess⟩
  refine Proc.ends_bind (ends_request h ?_ (by simp [made, requests]) hfollows) ?_
  · intro clients q hq rpc hrpc
    rw [rpc_of_sourceClient hrpc, hq.sourceTier, hq.operatorId]
  · intro r q hq
    have hstopped : r.success ≠ .ok true → ∀ text, Stopped env m (.exception text) q := by
      intro hsuccess
      refine hq.stopped (hfollows _) fun hreturned => ?_
      obtain ⟨_, hsame, hok⟩ := (hall _).mp hreturned
      cases hsame
      exact hsuccess hok
    cases hsuccess : r.success with
    | error text => exact hstopped (by rw [hsuccess]; exact nofun) text
    | ok success =>
        cases success with
        | true => exact ⟨_, hfollows _, (hall _).mpr ⟨r, rfl, hsuccess⟩, hq⟩
        | false =>
            have hrefused := hstopped (by rw [hsuccess]; exact nofun)
            show Proc.Ends (evaluate r.errorMsg >>= fun errorMsg =>
              throw (.exception s!"Termination failed: {errorMsg}")) q _ _
            exact ends_evaluate_bind (fun errorMsg _ => hrefused _) hrefused

/-! ## The whole migration

The trace and the attributes of the migration together: it is completed where all four calls were made and returned as
they should, and has an error text where it stopped by an exception. -/

/-- What is always so when a migration ends. -/
structure Ended (m : PCTRMigration) (now : Int) (p : Progress) : Prop where
  follows   : Follows m now p.calls
  completed : p.migration.completed = true ↔ AllReturned p.calls

theorem Stopped.ended {exit : Exit} (h : Stopped env m exit p) : Ended m env.now p :=
  ⟨h.follows, iff_of_false (by rw [h.completed]; exact nofun) h.short⟩

/-- An error text for a migration that has stopped. -/
theorem Stopped.failed {exit : Exit} (h : Stopped env m exit p) (text : String) :
    Ended m env.now { p with migration := { p.migration with error := some text } } ∧
      (p.migration.completed = true ↔ some text = none) := by
  have hnot : ¬ p.migration.completed = true := by
    rw [h.completed]
    exact nofun
  exact ⟨⟨h.follows, iff_of_false hnot h.short⟩, iff_of_false hnot nofun⟩

/-- `execute` returns with the migration completed or with an error text; a cancellation leaves neither. -/
theorem ends_execute (h : Underway m (made m env.now ∅ "" []) ∅ none p) :
    Proc.Ends (execute env) p
      (fun _ q => Ended m env.now q ∧ (q.migration.completed = true ↔ q.migration.error = none))
      (fun exit q => (∃ cause, exit = .cancelled cause) ∧ Stopped env m exit q) := by
  refine Proc.ends_tryCatch (D := Stopped env m) ?_ ?_
  · refine Proc.ends_bind (ends_phase1Drain h) ?_
    rintro - q₁ ⟨r₁, offsetMap, h₁, hq₁⟩
    refine Proc.ends_bind (ends_phase2Snapshot h₁ hq₁) ?_
    rintro - q₂ ⟨r₂, objectKey, herrorMsg, h₂, hq₂⟩
    refine Proc.ends_bind (ends_phase3Restore h₁ h₂ hq₂) ?_
    rintro - q₃ ⟨r₃, hq₃⟩
    refine Proc.ends_bind (ends_phase4Terminate h₁ h₂ herrorMsg hq₃) ?_
    rintro - q₄ ⟨calls, hfollows, hall, hq₄⟩
    exact ⟨⟨hq₄.calls ▸ hfollows, iff_of_true rfl (hq₄.calls ▸ hall)⟩, iff_of_true rfl hq₄.error⟩
  · intro exit q hq
    cases exit with
    | exception text  => exact hq.failed text
    | cancelled cause => exact ⟨⟨cause, rfl⟩, hq⟩

/-- `_execute_migration` returns where the migration is not cancelled from outside. -/
theorem ends_executeMigration (timeoutS : Int) (h : Underway m (made m env.now ∅ "" []) ∅ none p) :
    Proc.Ends (executeMigration env timeoutS) p
      (fun _ q => Ended m env.now q ∧ (q.migration.completed = true ↔ q.migration.error = none))
      (fun _ q => Ended m env.now q ∧ Cancelled env .outside q) := by
  refine Proc.ends_bind (R := fun _ q => Ended m env.now q ∧ (q.migration.completed = true ↔ q.migration.error = none))
    ?_ fun _ q hq => ⟨⟨hq.1.follows, hq.1.completed⟩, hq.2⟩
  refine Proc.ends_tryCatch (D := fun _ q => Ended m env.now q ∧ Cancelled env .outside q) ?_
    fun _ q hq => ⟨⟨hq.1.follows, hq.1.completed⟩, hq.2⟩
  refine Proc.ends_tryCatch (D := fun exit q => (∃ cause, exit = .cancelled cause) ∧ Stopped env m exit q) ?_ ?_
  · cases hearly : env.early with
    | none => exact Proc.ends_bind (ends_execute h) fun _ q hq => hq
    | some cause =>
        have hnone : ¬ AllReturned (made m env.now ∅ "" []) := not_allReturned_of_length (by simp [made, requests])
        refine ⟨⟨cause, rfl⟩, ⟨h.calls ▸ follows_made (by simp) (by simp) (by simp), h.calls ▸ hnone, h.completed,
          h.error, fun cause' hcause => Or.inl ?_⟩⟩
        cases hcause
        exact hearly
  · rintro _ q ⟨⟨cause, rfl⟩, hq⟩
    cases cause with
    | timeout => exact hq.failed _
    | outside => exact ⟨hq.ended, hq.cause _ rfl⟩

/-- **The trace of a migration.** For every environment: the calls follow the protocol; the migration is completed
    exactly if all four returned with success; and unless something other than the timeout has cancelled it,
    `_execute_migration` returns, with the migration completed or with an error and never both. The phases are followed
    one by one, with `Underway` for what a migration has done so far, and every way in which one ends is an end of the
    method. -/
theorem migration_trace (env : Environment) (timeoutS : Int) (active : Dict String String)
    (migrationId operatorId sourceTier targetTier : String) :
    ∃ outcome p, (executeMigration env timeoutS).exec (created active migrationId operatorId sourceTier targetTier) =
        (outcome, p) ∧
      Follows (PCTRMigration.new migrationId operatorId sourceTier targetTier) env.now p.calls ∧
      (p.migration.completed = true ↔ AllReturned p.calls) ∧
      (¬ Cancelled env .outside p →
        outcome = .ok ⟨⟩ ∧ Xor (p.migration.completed = true) (p.migration.error ≠ none)) := by
  have hstart : Underway (PCTRMigration.new migrationId operatorId sourceTier targetTier)
      (made (PCTRMigration.new migrationId operatorId sourceTier targetTier) env.now ∅ "" []) ∅ none
      (created active migrationId operatorId sourceTier targetTier) := ⟨rfl, rfl, rfl, rfl, rfl, rfl⟩
  rcases (ends_executeMigration timeoutS hstart).of_exec with
    ⟨_, p, hexec, hended, hone⟩ | ⟨exit, p, hexec, hended, houtside⟩
  · refine ⟨_, p, hexec, hended.follows, hended.completed, fun _ => ⟨rfl, ?_⟩⟩
    by_cases hcompleted : p.migration.completed = true
    · exact Or.inl ⟨hcompleted, not_not.mpr (hone.mp hcompleted)⟩
    · exact Or.inr ⟨fun herror => hcompleted (hone.mpr herror), hcompleted⟩
  · exact ⟨_, p, hexec, hended.follows, hended.completed, fun hnot => absurd houtside hnot⟩

/-- Every call returns, the snapshot without an error and the terminate with success. -/
def smooth : Environment where
  clients _ := Dict.ofList [("edge-node-1", ⟨"edge-node-1:50051"⟩)]
  now       := 7
  reply _   := .returned ⟨.ok ∅, .ok "", .ok "op/7/snapshot.msgpack", .ok 64, .ok true⟩
  early     := none

/-- The migration makes all four calls and completes. -/
theorem migration_trace_smooth :
    ∃ p, (executeMigration smooth 30).exec (created ∅ "migration-0001" "op" "edge-node-1" "cloud") = (.ok ⟨⟩, p) ∧
      p.calls.length = 4 ∧ p.migration.completed = true ∧ AllReturned p.calls := by
  obtain ⟨outcome, p, hexec, -, hcompleted, -⟩ :=
    migration_trace smooth 30 ∅ "migration-0001" "op" "edge-node-1" "cloud"
  have hreturns : (executeMigration smooth 30).exec (created ∅ "migration-0001" "op" "edge-node-1" "cloud") =
      (.ok ⟨⟩, _) := rfl
  rw [hreturns] at hexec
  cases hexec
  exact ⟨_, hreturns, rfl, rfl, hcompleted.mp rfl⟩

end Coroutine
end Aode
end HybridStream
