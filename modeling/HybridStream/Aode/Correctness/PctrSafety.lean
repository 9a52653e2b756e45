import HybridStream.Aode.Execution
import Mathlib.Tactic.IntervalCases

/-!
# `Aode.Correctness.PctrSafety` — what a migration does to its operator

The run invariant `OnProtocol` is preserved by every step (`onProtocol_step`), hence holds of every state of
every run (`onProtocol_reachable`). Read off it:

* a terminate request is preceded by a *successful* restore exactly in the runs whose restore response,
  if one arrived, reported success: the response of phase 3 is never looked at;
* a migration that fails is not compensated: afterwards the instances are what the RPCs carried out so far
  have made of them.
-/

namespace HybridStream
namespace Aode
namespace Execution

open Lib Py

variable {clients : HeaClients} {timeoutS : Int} {x x' : Execution} {s : Script} {n : Nat} {a : Answer}

/-! ## The run invariant

Every state of a run stands at a position of the protocol, and that says what the wire holds, what the migration has
kept and which RPCs can have been carried out. One lemma for each answer of each phase. -/

/-- Short of the end, a migration is not completed. -/
theorem OnProtocol.not_completed (hx : OnProtocol clients x s n) (hn : n ≠ 8) :
    x.task.migration.completed = false := by
  rw [← Bool.not_eq_true, hx.completed]
  exact fun h => hn h.1

/-- Answering the outstanding RPC carries out that RPC or nothing. -/
theorem OnProtocol.carriedOut_iff {c : Bool} (hx : OnProtocol clients x s n)
    (hstatus : x.task.status = .awaiting)
    (hcarried : x'.carriedOut = x.carriedOut ++ (if c then x.outstanding.toList else [])) (p : MigrationPhase) :
    HasPhase x'.carriedOut p ↔ HasPhase x.carriedOut p ∨ c = true ∧ x.task.migration.phase = p := by
  obtain ⟨-, rpc, hrpc, hphase⟩ := hx.awaiting hstatus
  rw [hcarried, hrpc, Option.toList_some, hasPhase_append, hasPhase_if, hphase]

/-- Answering the outstanding RPC carries out nothing beyond the current position. -/
theorem OnProtocol.carriedOut_le {c : Bool} (hx : OnProtocol clients x s n)
    (hstatus : x.task.status = .awaiting)
    (hcarried : x'.carriedOut = x.carriedOut ++ (if c then x.outstanding.toList else [])) :
    ∀ p, HasPhase x'.carriedOut p → position p ≤ n := by
  intro p hp
  rcases (hx.carriedOut_iff hstatus hcarried p).mp hp with hp | ⟨-, rfl⟩
  · exact hx.only p hp
  · exact (hx.awaiting hstatus).1.ge

/-- From position 6 on, the outstanding RPC is not the restore. -/
theorem OnProtocol.told_of_carriedOut {c : Bool} (hx : OnProtocol clients x s n)
    (hstatus : x.task.status = .awaiting)
    (hcarried : x'.carriedOut = x.carriedOut ++ (if c then x.outstanding.toList else [])) (h6 : 6 ≤ n) :
    HasPhase x'.carriedOut .phase3Restore ↔ s.restored.success = true := by
  have hn := (hx.awaiting hstatus).1
  have hnot : x.task.migration.phase ≠ .phase3Restore := by
    intro hrestore
    rw [hrestore, position_restore] at hn
    omega
  rw [hx.carriedOut_iff hstatus hcarried, or_iff_left (fun h => hnot h.2)]
  exact hx.told h6

/-- The task ends in an error and nothing arrived: the position stays. -/
theorem OnProtocol.fail {text : String} {c : Bool} (hx : OnProtocol clients x s n)
    (hstatus : x.task.status = .awaiting)
    (htask : x'.task = (MigrationTask.fail x.task.migration text).1)
    (hwire : x'.wire = x.wire)
    (hcarried : x'.carriedOut = x.carriedOut ++ (if c then x.outstanding.toList else [])) :
    OnProtocol clients x' s n := by
  have hfinished : x'.task.status = .finished := by rw [htask]; rfl
  constructor
  case wire => rw [hwire, hx.wire, htask]; rfl
  case pending => intro h; rw [hfinished] at h; cases h
  case awaiting => intro h; rw [hfinished] at h; cases h
  case bound => exact hx.bound
  case around => rw [htask]; exact hx.around
  case client => rw [htask]; exact hx.client
  case offsets => rw [htask]; exact hx.offsets
  case key => rw [htask]; exact hx.key
  case completed => rw [htask]; exact hx.completed
  case fresh => intro h; rw [hfinished] at h; cases h
  case drained => exact fun h2 => (hx.carriedOut_iff hstatus hcarried _).mpr (Or.inl (hx.drained h2))
  case only => exact hx.carriedOut_le hstatus hcarried
  case told => exact hx.told_of_carriedOut hstatus hcarried

/-- The awaited response arrived and the position advances, to that of the next RPC or to an end. What is said
    here once, no phase has to show of itself. -/
theorem OnProtocol.advance {s' : Script} {n' : Nat} {c : Bool} (hx : OnProtocol clients x s n)
    (hstatus : x.task.status = .awaiting)
    (hcarried : x'.carriedOut = x.carriedOut ++ (if c then x.outstanding.toList else []))
    (hlt : n < n') (hbound : n' ≤ 8 ∧ n' ≠ 2 ∧ n' ≠ 6)
    (hsource : x'.task.migration.sourceTier = x.task.migration.sourceTier)
    (hnext : x'.task.status = .finished ∨
      x'.task.status = .awaiting ∧ n' = position x'.task.migration.phase ∧
        ∃ rpc, x'.outstanding = some rpc ∧ rpc.phase = x'.task.migration.phase)
    (hwire : x'.wire = (protocol x'.task.migration s').take n')
    (haround : position x'.task.migration.phase ≤ n' + 1 ∧ n' ≤ position x'.task.migration.phase + 1)
    (hoffsets : x'.task.migration.drainOffsetMap = s'.drained.offsetMap.getD ∅)
    (hkey : 5 ≤ n' → s'.snapped.errorMsg = "" ∧
      x'.task.migration.snapshotObjectKey = some s'.snapped.objectKey)
    (hcompleted : x'.task.migration.completed = true ↔ n' = 8 ∧ s'.terminated.success = true)
    (hdrained : HasPhase x'.carriedOut .phase1Drain)
    (htold : 6 ≤ n' → (HasPhase x'.carriedOut .phase3Restore ↔ s'.restored.success = true)) :
    OnProtocol clients x' s' n' := by
  -- what has been carried out belongs to the phases up to this one, and there is at least the drain on the wire
  have hle := hx.carriedOut_le hstatus hcarried
  have hfirst : 1 ≤ n := by
    rw [(hx.awaiting hstatus).1]
    cases x.task.migration.phase <;> decide
  constructor
  -- most fields are the hypotheses; the others ask only whether the migration has ended or awaits the next call
  case wire => exact hwire
  case pending =>
    intro h
    rcases hnext with hfin | ⟨hawait, -⟩
    · rw [hfin] at h; cases h
    · rw [hawait] at h; cases h
  case awaiting =>
    intro h
    rcases hnext with hfin | ⟨-, hn', hrpc⟩
    · rw [hfin] at h; cases h
    · exact ⟨hn', hrpc⟩
  case bound => exact hbound
  case around => exact haround
  case client => rw [hsource]; exact fun _ => hx.client hfirst
  case offsets => exact fun _ => hoffsets
  case key => exact hkey
  case completed => exact hcompleted
  case fresh =>
    intro h hp
    rcases hnext with hfin | ⟨-, hn', -⟩
    · rw [hfin] at h; cases h
    · exact absurd (hle _ hp) (by omega)
  case drained => exact fun _ => hdrained
  case only => exact fun p hp => (hle p hp).trans hlt.le
  case told => exact htold

theorem onProtocol_start {now : Int} {c : Bool} (hx : OnProtocol clients x s n)
    (h : step clients timeoutS x ⟨.start now, c⟩ = some x') : ∃ s' n', OnProtocol clients x' s' n' := by
  obtain ⟨rpc, hstep, -, -, hwire, hout, hcarried⟩ := step_eq_some h
  obtain ⟨hstatus, hp⟩ := MigrationTask.step_start hstep
  obtain ⟨rfl, hnone⟩ := hx.pending hstatus
  have hcompleted := hx.not_completed (by decide)
  -- nothing is outstanding, so nothing is carried out
  have hnil : ∀ p, ¬ HasPhase x'.carriedOut p := by
    intro p hp
    have h0 : position p ≤ 0 := hx.only p (by simpa [hcarried, hnone] using hp)
    cases p <;> simp at h0
  have hempty : x.wire = [] := hx.wire
  cases hsrc : clients.get x.task.migration.sourceTier with
  | none =>
      obtain ⟨text, hfail⟩ : ∃ text, MigrationTask.enter clients now .phase1Drain x.task.migration = _ :=
        MigrationTask.enter_drain_of_none hsrc
      obtain ⟨htask, rfl⟩ := Prod.mk.inj (hp.trans hfail)
      have hfinished : x'.task.status = .finished := by rw [htask]
      refine ⟨s, 0, ?_⟩
      constructor
      case wire => rw [hwire, hempty]; rfl
      case pending => intro h; rw [hfinished] at h; cases h
      case awaiting => intro h; rw [hfinished] at h; cases h
      case bound => decide
      case around => rw [htask]; exact ⟨Nat.le_refl 1, Nat.zero_le 2⟩
      case client => exact fun h => absurd h (by decide)
      case offsets => exact fun h => absurd h (by decide)
      case key => exact fun h => absurd h (by decide)
      case completed => rw [htask]; exact hx.completed
      case fresh => intro h; rw [hfinished] at h; cases h
      case drained => exact fun h => absurd h (by decide)
      case only => exact fun p hp => absurd hp (hnil p)
      case told => exact fun h => absurd h (by decide)
  | some client =>
      obtain ⟨htask, rfl⟩ := Prod.mk.inj (hp.trans (MigrationTask.enter_source hsrc).1)
      refine ⟨s, 1, ?_⟩
      constructor
      case wire => rw [hwire, hempty, htask]; rfl
      case pending => intro h; rw [htask] at h; cases h
      case awaiting => intro _; rw [htask]; exact ⟨rfl, _, hout, rfl⟩
      case bound => decide
      case around => rw [htask]; exact ⟨Nat.le_succ 1, Nat.le_succ 1⟩
      case client => rw [htask]; exact fun _ => ⟨client, hsrc⟩
      case offsets => exact fun h => absurd h (by decide)
      case key => exact fun h => absurd h (by decide)
      case completed => rw [htask]; exact iff_of_false (Bool.eq_false_iff.mp hcompleted) (by simp)
      case fresh => exact fun _ => hnil _
      case drained => exact fun h => absurd h (by decide)
      case only => exact fun p hp => absurd hp (hnil p)
      case told => exact fun h => absurd h (by decide)

/-- The drain returned: the offsets are kept and the snapshot is requested with them. -/
theorem onProtocol_drain {r : DrainResponse} {now : Int} {c : Bool} (hx : OnProtocol clients x s n)
    (h : step clients timeoutS x ⟨.returned (.drain r) now, c⟩ = some x') :
    ∃ s' n', OnProtocol clients x' s' n' := by
  obtain ⟨rpc, hstep, hhonest, -, hwire, hout, hcarried⟩ := step_eq_some h
  obtain ⟨hstatus, hres⟩ := MigrationTask.step_returned hstep
  obtain ⟨hphase, hp⟩ := MigrationTask.resume_drain hres
  have hn := (hx.awaiting hstatus).1
  rw [hphase, position_drain] at hn
  subst hn
  obtain ⟨client, hsrc⟩ := hx.client (by decide)
  obtain ⟨htask, rfl⟩ := Prod.mk.inj (hp.trans
    (MigrationTask.enter_source (m := x.task.migration.phase1Drained r) hsrc).2.1)
  refine ⟨{ s with migrationSeq := now, drained := r }, 3, hx.advance hstatus hcarried (by decide) (by decide)
    ?_ ?_ ?_ ?_ ?_ ?_ ?_ ?_ ?_⟩
  · rw [htask]; rfl
  · rw [htask]; exact Or.inr ⟨rfl, rfl, _, hout, rfl⟩
  · rw [hwire, hx.wire, htask]; rfl
  · rw [htask]; exact ⟨Nat.le_succ 3, Nat.le_succ 3⟩
  · rw [htask]; rfl
  · exact fun h => absurd h (by decide)
  · have hcompleted := hx.not_completed (by decide)
    rw [htask]
    exact iff_of_false (Bool.eq_false_iff.mp hcompleted) (fun h => absurd h.1 (by decide))
  · exact (hx.carriedOut_iff hstatus hcarried _).mpr (Or.inr ⟨hhonest, hphase⟩)
  · exact fun h => absurd h (by decide)

/-- The snapshot returned: without an error text its object key is what the restore request carries. -/
theorem onProtocol_snapshot {r : SnapshotResponse} {now : Int} {c : Bool} (hx : OnProtocol clients x s n)
    (h : step clients timeoutS x ⟨.returned (.snapshot r) now, c⟩ = some x') :
    ∃ s' n', OnProtocol clients x' s' n' := by
  obtain ⟨rpc, hstep, -, -, hwire, hout, hcarried⟩ := step_eq_some h
  obtain ⟨hstatus, hres⟩ := MigrationTask.step_returned hstep
  obtain ⟨hphase, hcase⟩ := MigrationTask.resume_snapshot hres
  have hn := (hx.awaiting hstatus).1
  rw [hphase, position_snap] at hn
  subst hn
  have hcompleted := hx.not_completed (by decide)
  have hdrained : HasPhase x'.carriedOut .phase1Drain :=
    (hx.carriedOut_iff hstatus hcarried _).mpr (Or.inl (hx.drained (by decide)))
  -- with an error text, or for want of a client, the task ends with the response received
  have hended : ∀ phase key size text, position phase ≤ 5 ∧ 3 ≤ position phase →
      (x'.task, rpc) = MigrationTask.fail { x.task.migration with
        phase := phase, snapshotObjectKey := key, snapshotSize := size } text →
      ∃ s' n', OnProtocol clients x' s' n' := by
    intro phase key size text hnear hp
    obtain ⟨htask, rfl⟩ := Prod.mk.inj hp
    refine ⟨{ s with snapped := r }, 4, hx.advance hstatus hcarried (by decide) (by decide)
      ?_ ?_ ?_ ?_ ?_ ?_ ?_ hdrained ?_⟩
    · rw [htask]
    · rw [htask]; exact Or.inl rfl
    · rw [hwire, hx.wire, htask]; rfl
    · rw [htask]; exact ⟨hnear.1, Nat.succ_le_succ hnear.2⟩
    · rw [htask]; exact hx.offsets (by decide)
    · exact fun h => absurd h (by decide)
    · rw [htask]; exact iff_of_false (Bool.eq_false_iff.mp hcompleted) (fun h => absurd h.1 (by decide))
    · exact fun h => absurd h (by decide)
  rcases hcase with ⟨-, text, hp⟩ | ⟨herr, hp⟩
  · exact hended _ _ _ text (by rw [hphase]; decide) hp
  · rcases MigrationTask.enter_restore with hrestore | ⟨text, hfail⟩
    · obtain ⟨htask, rfl⟩ := Prod.mk.inj (hp.trans hrestore)
      refine ⟨{ s with snapped := r }, 5, hx.advance hstatus hcarried (by decide) (by decide)
        ?_ ?_ ?_ ?_ ?_ ?_ ?_ hdrained ?_⟩
      · rw [htask]
      · rw [htask]; exact Or.inr ⟨rfl, rfl, _, hout, rfl⟩
      · rw [hwire, hx.wire, htask]; rfl
      · rw [htask]; exact ⟨Nat.le_succ 5, Nat.le_succ 5⟩
      · rw [htask]; exact hx.offsets (by decide)
      · rw [htask]; exact fun _ => ⟨herr, rfl⟩
      · rw [htask]; exact iff_of_false (Bool.eq_false_iff.mp hcompleted) (fun h => absurd h.1 (by decide))
      · exact fun h => absurd h (by decide)
    · exact hended _ _ _ text (by decide) (hp.trans hfail)

/-- The restore returned, with success or without: the terminate request follows at once. -/
theorem onProtocol_restore {r : RestoreResponse} {now : Int} {c : Bool} (hx : OnProtocol clients x s n)
    (h : step clients timeoutS x ⟨.returned (.restore r) now, c⟩ = some x') :
    ∃ s' n', OnProtocol clients x' s' n' := by
  obtain ⟨rpc, hstep, hhonest, -, hwire, hout, hcarried⟩ := step_eq_some h
  obtain ⟨hstatus, hres⟩ := MigrationTask.step_returned hstep
  obtain ⟨hphase, hp⟩ := MigrationTask.resume_restore hres
  have hn := (hx.awaiting hstatus).1
  have hfresh := hx.fresh hstatus
  rw [hphase, position_restore] at hn
  rw [hphase] at hfresh
  subst hn
  obtain ⟨client, hsrc⟩ := hx.client (by decide)
  obtain ⟨htask, rfl⟩ := Prod.mk.inj (hp.trans (MigrationTask.enter_source hsrc).2.2)
  refine ⟨{ s with restored := r }, 7, hx.advance hstatus hcarried (by decide) (by decide)
    ?_ ?_ ?_ ?_ ?_ ?_ ?_ ?_ ?_⟩
  · rw [htask]
  · rw [htask]; exact Or.inr ⟨rfl, rfl, _, hout, rfl⟩
  · rw [hwire, hx.wire, htask]; rfl
  · rw [htask]; exact ⟨Nat.le_succ 7, Nat.le_succ 7⟩
  · rw [htask]; exact hx.offsets (by decide)
  · rw [htask]; exact fun _ => hx.key (by decide)
  · have hcompleted := hx.not_completed (by decide)
    rw [htask]
    exact iff_of_false (Bool.eq_false_iff.mp hcompleted) (fun h => absurd h.1 (by decide))
  · exact (hx.carriedOut_iff hstatus hcarried _).mpr (Or.inl (hx.drained (by decide)))
  · -- the restore was carried out exactly if its response says so
    intro _
    have hreported : c = r.success := beq_iff_eq.mp hhonest
    rw [hx.carriedOut_iff hstatus hcarried, or_iff_right hfresh, and_iff_left hphase, hreported]

theorem onProtocol_terminate {r : TerminateAck} {now : Int} {c : Bool} (hx : OnProtocol clients x s n)
    (h : step clients timeoutS x ⟨.returned (.terminate r) now, c⟩ = some x') :
    ∃ s' n', OnProtocol clients x' s' n' := by
  obtain ⟨rpc, hstep, -, -, hwire, hout, hcarried⟩ := step_eq_some h
  obtain ⟨hstatus, hres⟩ := MigrationTask.step_returned hstep
  obtain ⟨hphase, hcase⟩ := MigrationTask.resume_terminate hres
  have hn := (hx.awaiting hstatus).1
  rw [hphase, position_term] at hn
  subst hn
  have hcompleted := hx.not_completed (by decide)
  -- completed or not, the task is at its end
  have hended : ∀ completed text, (completed = true ↔ r.success = true) →
      (x'.task, rpc) = (⟨{ x.task.migration with completed := completed, error := text }, .finished⟩, none) →
      ∃ s' n', OnProtocol clients x' s' n' := by
    intro completed text hok hp
    obtain ⟨htask, rfl⟩ := Prod.mk.inj hp
    refine ⟨{ s with terminated := r }, 8, hx.advance hstatus hcarried (by decide) (by decide)
      ?_ ?_ ?_ ?_ ?_ ?_ ?_ ?_ ?_⟩
    · rw [htask]
    · rw [htask]; exact Or.inl rfl
    · rw [hwire, hx.wire, htask]; rfl
    · rw [htask]
      show position x.task.migration.phase ≤ 9 ∧ 8 ≤ position x.task.migration.phase + 1
      rw [hphase]
      decide
    · rw [htask]; exact hx.offsets (by decide)
    · rw [htask]; exact fun _ => hx.key (by decide)
    · rw [htask]; exact hok.trans (iff_and_self.mpr fun _ => rfl)
    · exact (hx.carriedOut_iff hstatus hcarried _).mpr (Or.inl (hx.drained (by decide)))
    · exact fun _ => hx.told_of_carriedOut hstatus hcarried (by decide)
  rcases hcase with ⟨hok, hp⟩ | ⟨hok, text, hp⟩
  · exact hended true x.task.migration.error (iff_of_true rfl hok) hp
  · refine hended false (some text) (iff_of_false (by simp) (by simp [hok])) (hp.trans ?_)
    rw [← hcompleted]
    rfl

/-- **Every step keeps the run on the protocol.** -/
theorem onProtocol_step (hx : OnProtocol clients x s n) (h : step clients timeoutS x a = some x') :
    ∃ s' n', OnProtocol clients x' s' n' := by
  obtain ⟨e, c⟩ := a
  have hfailed : ((∃ text, e = .raised text) ∨ e = .timedOut) → e.response = [] →
      ∃ s' n', OnProtocol clients x' s' n' := by
    intro he hresp
    obtain ⟨rpc, hstep, -, -, hwire, -, hcarried⟩ := step_eq_some h
    obtain ⟨hstatus, text, hp⟩ := MigrationTask.step_failed he hstep
    obtain ⟨htask, rfl⟩ := Prod.mk.inj hp
    exact ⟨s, n, hx.fail hstatus htask (by rw [hwire, hresp]; simp) hcarried⟩
  cases e with
  | start now => exact onProtocol_start hx h
  | raised text => exact hfailed (Or.inl ⟨text, rfl⟩) rfl
  | timedOut => exact hfailed (Or.inr rfl) rfl
  | returned r now =>
      cases r with
      | drain r => exact onProtocol_drain hx h
      | snapshot r => exact onProtocol_snapshot hx h
      | restore r => exact onProtocol_restore hx h
      | terminate r => exact onProtocol_terminate hx h

/-- Every state of every run is on the protocol. -/
theorem onProtocol_reachable (h : (system clients timeoutS).Reachable x) :
    ∃ s n, OnProtocol clients x s n := by
  refine Lts.Reachable.invariant (I := fun x => ∃ s n, OnProtocol clients x s n) ?_ ?_ h
  · rintro _ ⟨active, mid, op, src, tgt, rfl⟩
    refine ⟨⟨0, ⟨none⟩, ⟨"", 0, ""⟩, ⟨false, "", ""⟩, ⟨false, ""⟩⟩, 0, ?_⟩
    constructor <;> simp [created, PCTRMigration.new]
  · rintro x a x' ⟨s, n, hx⟩ hstep
    exact onProtocol_step hx hstep

/-- The wire holds the responses of the run's answers and nothing else was received. -/
theorem received_of_run {x₀ : Execution} {as : List Answer} (h : (system clients timeoutS).Run x₀ as x)
    (r : Response) :
    .received r ∈ x.wire ↔ .received r ∈ x₀.wire ∨ ∃ a ∈ as, ∃ now, a.event = .returned r now := by
  induction h with
  | refl => simp
  | @tail as x' a x'' _ hstep ih =>
      obtain ⟨rpc, -, -, -, hwire, -⟩ := step_eq_some hstep
      have hanswer : WireEvent.received r ∈ a.event.response ↔ ∃ now, a.event = .returned r now := by
        cases a.event <;> simp [TaskEvent.response, eq_comm]
      rw [hwire]
      simp only [List.mem_append, ih, hanswer, List.mem_map, reduceCtorEq, and_false, exists_false, or_false,
        List.mem_singleton, or_and_right, exists_or, exists_eq_left, or_assoc]

/-- A terminate request stands at position 6 of the protocol and nowhere else. -/
theorem OnProtocol.terminate_sent {before after : List WireEvent} {rpc : Rpc} (hx : OnProtocol clients x s n)
    (hwire : x.wire = before ++ .sent rpc :: after) (hphase : rpc.phase = .phase4Term) :
    7 ≤ n ∧ before = (protocol x.task.migration s).take 6 := by
  have hget : x.wire[before.length]? = some (.sent rpc) := by rw [hwire]; simp
  have hlen : before.length < n := by
    have hlt : before.length < x.wire.length := by rw [hwire]; simp
    rw [hx.wire, List.length_take] at hlt
    omega
  have hn := hx.bound.1
  have h6 : before.length = 6 := by
    rw [hx.wire, List.getElem?_take_of_lt hlen] at hget
    have hlt : before.length < 8 := by omega
    generalize before.length = k at hget hlt
    interval_cases k <;> simp [protocol] at hget <;> simp [← hget, Rpc.phase] at hphase ⊢
  refine ⟨by omega, ?_⟩
  have htake : before = x.wire.take 6 := by rw [hwire, ← h6]; simp
  rw [htake, hx.wire, List.take_take, Nat.min_eq_left (by omega)]

/-- The one restore response a run can receive stands at position 5. -/
theorem OnProtocol.restored_received {r : RestoreResponse} (hx : OnProtocol clients x s n) :
    .received (.restore r) ∈ x.wire ↔ r = s.restored ∧ 6 ≤ n := by
  rw [hx.wire]
  have hn := hx.bound.1
  interval_cases n <;> simp [protocol]

/-! ## Terminate only after a successful restore

The code terminates the source after the restore whatever the response says. So a run is safe exactly if no restore
response in it reports a failure, which is a condition on the answers of the servers. -/

/-- Each terminate request on the wire comes after the target tier reported the restore of the snapshot
    taken in phase 2 as successful. -/
def RestoredFirst (x : Execution) : Prop :=
  ∀ before after rpc, x.wire = before ++ .sent rpc :: after → rpc.phase = .phase4Term →
    ∃ (snapped : SnapshotResponse) (restored : RestoreResponse),
      [ .received (.snapshot snapped),
        .sent (.restoreOperator x.task.migration.targetTier x.task.migration.operatorId
          (some snapped.objectKey)),
        .received (.restore restored) ].Sublist before ∧
      restored.success = true

/-- The operator is gone from its source only where an instance runs on the target. -/
def NotLost (x : Execution) : Prop := x.instances.sourceExists = false → x.instances.targetRuns = true

/-- **Exactly the runs in which no restore response reports a failure terminate safely.** What is on the wire is a
    prefix of the protocol (`OnProtocol`), so before a terminate that has been sent stands a restore response, and it is
    the one that was given. -/
theorem terminates_safely_iff {x₀ : Execution} {as : List Answer} (hinit : Initial x₀)
    (h : (system clients timeoutS).Run x₀ as x) :
    (RestoredFirst x ∧ NotLost x) ↔
      ∀ a ∈ as, ∀ r now, a.event = .returned (.restore r) now → r.success = true := by
  obtain ⟨s, n, hx⟩ := onProtocol_reachable ⟨x₀, as, hinit, h⟩
  have hreceived := received_of_run h
  obtain ⟨_, _, _, _, _, rfl⟩ := hinit
  constructor
  -- a run that is safe: a failing response stands on the wire in front of the terminate that follows it
  · rintro ⟨hfirst, -⟩ a ha r now hevent
    obtain ⟨rfl, hn⟩ := hx.restored_received.mp ((hreceived _).mpr (Or.inr ⟨a, ha, now, hevent⟩))
    -- behind the restore response the protocol always sends the terminate
    have h7 : 7 ≤ n := by have := hx.bound.2.2; omega
    obtain ⟨after, hafter⟩ : ∃ after, x.wire = (protocol x.task.migration s).take 6 ++
        .sent (.terminateOperator x.task.migration.sourceTier x.task.migration.operatorId true) :: after := by
      rw [hx.wire]
      have hn := hx.bound.1
      interval_cases n <;> exact ⟨_, rfl⟩
    obtain ⟨_, r', hsub, hok⟩ := hfirst _ _ _ hafter rfl
    have hr' : .received (.restore r') ∈ x.wire := by
      rw [hafter]
      exact List.mem_append_left _ (hsub.subset (by simp))
    rw [← (hx.restored_received.mp hr').1]
    exact hok
  -- all restore responses are good: the one in front of a terminate is, and the target runs
  · intro hall
    have hok : 6 ≤ n → s.restored.success = true := by
      intro hn
      rcases (hreceived _).mp (hx.restored_received.mpr ⟨rfl, hn⟩) with h0 | ⟨a, ha, now, hevent⟩
      · simp [created] at h0
      · exact hall a ha _ now hevent
    refine ⟨?_, ?_⟩
    · intro before after rpc hwire hphase
      obtain ⟨h7, rfl⟩ := hx.terminate_sent hwire hphase
      refine ⟨s.snapped, s.restored, ?_, hok (by omega)⟩
      show List.Sublist _ [_, _, _, _, _, _]
      exact ((List.Sublist.refl _).cons _).cons _ |>.cons _
    · intro hgone
      obtain ⟨hexists, -, hruns⟩ := foldl_apply x.carriedOut Instances.before
      -- if the source is gone, a terminate was carried out
      have hterm : HasPhase x.carriedOut .phase4Term := by
        by_contra hno
        rw [instances, hexists.mpr ⟨rfl, hno⟩] at hgone
        exact absurd hgone (by simp)
      have h7 : 7 ≤ n := hx.only _ hterm
      exact hruns.mpr (Or.inr ((hx.told (by omega)).mpr (hok (by omega))))

/-- The clients of the example runs: one edge tier. -/
def edgeClients : HeaClients := Dict.ofList [("edge-node-1", ⟨"edge-node-1:50051"⟩)]

/-- A migration with every answer a success. -/
def smoothAnswers : List Answer :=
  [ ⟨.start 7, false⟩, ⟨.returned (.drain ⟨some ∅⟩) 7, true⟩,
    ⟨.returned (.snapshot ⟨"op/7/snapshot.msgpack", 64, ""⟩) 7, true⟩,
    ⟨.returned (.restore ⟨true, "job-1", ""⟩) 7, true⟩, ⟨.returned (.terminate ⟨true, ""⟩) 7, true⟩ ]

theorem terminates_safely_iff_smooth :
    ∃ x, (system edgeClients 30).Run (created ∅ "migration-0001" "op" "edge-node-1" "cloud") smoothAnswers x ∧
      RestoredFirst x ∧ NotLost x := by
  have hexec : Lts.exec (step edgeClients 30) smoothAnswers
      (created ∅ "migration-0001" "op" "edge-node-1" "cloud") = some _ := rfl
  have hrun : (system edgeClients 30).Run _ _ _ := Lts.run_of_exec hexec
  refine ⟨_, hrun, (terminates_safely_iff ⟨∅, _, _, _, _, rfl⟩ hrun).mpr ?_⟩
  simp [smoothAnswers]

/-- The cloud answers the restore with `success = false`; the migration goes on, terminates the source and
    completes. -/
theorem lost_after_failed_restore :
    ∃ x, (system edgeClients 30).Reachable x ∧ x.task.migration.completed = true ∧
      ¬ RestoredFirst x ∧ ¬ NotLost x := by
  have hexec : Lts.exec (step edgeClients 30)
      [ ⟨.start 7, false⟩, ⟨.returned (.drain ⟨some ∅⟩) 7, true⟩,
        ⟨.returned (.snapshot ⟨"op/7/snapshot.msgpack", 64, ""⟩) 7, true⟩,
        ⟨.returned (.restore ⟨false, "", "no such snapshot"⟩) 7, false⟩,
        ⟨.returned (.terminate ⟨true, ""⟩) 7, true⟩ ]
      (created ∅ "migration-0001" "op" "edge-node-1" "cloud") = some _ := rfl
  refine ⟨_, Lts.reachable_of_exec ⟨∅, _, _, _, _, rfl⟩ hexec, rfl, ?_, ?_⟩
  · intro hfirst
    obtain ⟨_, r, hsub, hok⟩ := hfirst [_, _, _, _, _, _] [_] _ rfl rfl
    have hmem := hsub.subset (a := .received (.restore r)) (by simp)
    simp only [List.mem_cons, reduceCtorEq, WireEvent.received.injEq, Response.restore.injEq, List.not_mem_nil,
      false_or, or_false] at hmem
    rw [hmem] at hok
    exact absurd hok (by decide)
  · intro hkept
    exact absurd (hkept rfl) (by decide)

/-! ## What a failed migration leaves behind

The instances by the phase at which a migration ended: what was carried out stays carried out, as nothing is ever
taken back. -/

/-- The `finally` block: a finished task has taken its operator out of `_active_migrations`. -/
theorem left_of_finished (h : (system clients timeoutS).Reachable x) :
    x.task.status = .finished → x.activeMigrations.get x.task.migration.operatorId = none := by
  refine Lts.Reachable.invariant (I := fun x => x.task.status = .finished →
    x.activeMigrations.get x.task.migration.operatorId = none) ?_ ?_ h
  · rintro _ ⟨active, mid, op, src, tgt, rfl⟩ hfin
    exact absurd hfin (by simp [created])
  · intro x a x' _ hstep hfin
    obtain ⟨rpc, htask, -, hactive, -⟩ := step_eq_some hstep
    rw [hactive, if_pos hfin, ← MigrationTask.step_operatorId htask]
    exact Dict.get_pop_self _ _

/-- What a migration that ended in the given phase leaves behind: whether the source is still there and
    consumes, and whether the target runs. -/
def LeftBehind (x : Execution) : MigrationPhase → Prop
  | .phase1Drain =>
      x.instances.sourceExists = true ∧ x.instances.targetRuns = false ∧
        (x.instances.sourceConsuming = true ↔ ¬ HasPhase x.carriedOut .phase1Drain)
  | .phase2Snap => x.instances = ⟨true, false, false⟩
  | .phase3Restore =>
      x.instances.sourceExists = true ∧ x.instances.sourceConsuming = false ∧
        (x.instances.targetRuns = true ↔ HasPhase x.carriedOut .phase3Restore)
  | .phase4Term =>
      x.instances.sourceConsuming = false ∧
        (x.instances.sourceExists = true ↔ ¬ HasPhase x.carriedOut .phase4Term) ∧
        (x.instances.targetRuns = true ↔ ∃ r, .received (.restore r) ∈ x.wire ∧ r.success = true)

/-- The instances read off which RPCs were carried out. -/
theorem instances_iff (x : Execution) :
    (x.instances.sourceExists = true ↔ ¬ HasPhase x.carriedOut .phase4Term) ∧
    (x.instances.sourceConsuming = true ↔
      ¬ HasPhase x.carriedOut .phase1Drain ∧ ¬ HasPhase x.carriedOut .phase4Term) ∧
    (x.instances.targetRuns = true ↔ HasPhase x.carriedOut .phase3Restore) := by
  have h := foldl_apply x.carriedOut Instances.before
  simp only [Instances.before, true_and, Bool.false_eq_true, false_or] at h
  exact h

theorem OnProtocol.leftBehind (hx : OnProtocol clients x s n) : x.LeftBehind x.task.migration.phase := by
  obtain ⟨hexists, hconsuming, hruns⟩ := instances_iff x
  obtain ⟨hlow, hhigh⟩ := hx.around
  have habove : ∀ p, n < position p → ¬ HasPhase x.carriedOut p :=
    fun p hlt hp => absurd (hx.only p hp) (by omega)
  have hbound := hx.bound
  unfold LeftBehind
  cases hp : x.task.migration.phase <;> rw [hp] at hlow hhigh <;> dsimp only [position] at hlow hhigh
  case phase1Drain =>
    have h3 := habove .phase3Restore (by dsimp only [position]; omega)
    have h4 := habove .phase4Term (by dsimp only [position]; omega)
    exact ⟨hexists.mpr h4, Bool.eq_false_iff.mpr (mt hruns.mp h3), hconsuming.trans (and_iff_left h4)⟩
  case phase2Snap =>
    have h1 := hx.drained (by omega)
    have h3 := habove .phase3Restore (by dsimp only [position]; omega)
    have h4 := habove .phase4Term (by dsimp only [position]; omega)
    have hdrained := Bool.eq_false_iff.mpr (mt hconsuming.mp (fun h => h.1 h1))
    show (⟨x.instances.sourceExists, x.instances.sourceConsuming, x.instances.targetRuns⟩ : Instances) = _
    rw [hexists.mpr h4, hdrained, Bool.eq_false_iff.mpr (mt hruns.mp h3)]
  case phase3Restore =>
    have h1 := hx.drained (by omega)
    have h4 := habove .phase4Term (by dsimp only [position]; omega)
    exact ⟨hexists.mpr h4, Bool.eq_false_iff.mpr (mt hconsuming.mp (fun h => h.1 h1)), hruns⟩
  case phase4Term =>
    have h1 := hx.drained (by omega)
    refine ⟨Bool.eq_false_iff.mpr (mt hconsuming.mp (fun h => h.1 h1)), hexists, ?_⟩
    rw [hruns, hx.told (by omega)]
    constructor
    · exact fun hok => ⟨s.restored, hx.restored_received.mpr ⟨rfl, by omega⟩, hok⟩
    · rintro ⟨r, hr, hok⟩
      rw [← (hx.restored_received.mp hr).1]
      exact hok

/-- **No phase is compensated.** When a migration has ended, failed or not, it has left `_active_migrations` and the
    instances are what the RPCs carried out have made of them. Everything is as before phase 1 exactly where not even
    the drain was carried out. The calls carried out are those of a prefix of the protocol, and the instances are what
    these calls, in their order, make of them. -/
theorem ended_migration_outcome (h : (system clients timeoutS).Reachable x)
    (hfin : x.task.status = .finished) :
    x.activeMigrations.get x.task.migration.operatorId = none ∧
    x.LeftBehind x.task.migration.phase ∧
    (x.instances = Instances.before ↔ ¬ HasPhase x.carriedOut .phase1Drain) := by
  obtain ⟨s, n, hx⟩ := onProtocol_reachable h
  obtain ⟨hexists, hconsuming, hruns⟩ := instances_iff x
  refine ⟨left_of_finished h hfin, hx.leftBehind, ?_, ?_⟩
  · intro hbefore
    exact (hconsuming.mp (by rw [hbefore]; rfl)).1
  · intro hno
    -- without the drain nothing later was carried out either
    have hlate : ∀ p, 2 ≤ position p → ¬ HasPhase x.carriedOut p :=
      fun p hp hdone => hno (hx.drained (hp.trans (hx.only p hdone)))
    have h3 := hlate .phase3Restore (by decide)
    have h4 := hlate .phase4Term (by decide)
    show (⟨x.instances.sourceExists, x.instances.sourceConsuming, x.instances.targetRuns⟩ : Instances) = _
    rw [hexists.mpr h4, hconsuming.mpr ⟨hno, h4⟩, Bool.eq_false_iff.mpr (mt hruns.mp h3)]
    rfl

/-- The outcomes of two migrations: in one the very first RPC raises, in the other the restore is carried out and its
    answer gets lost, so that both the drained source and the target are there. -/
theorem ended_migration_outcome_raised :
    (∃ x, (system edgeClients 30).Reachable x ∧ x.task.status = .finished ∧
      x.task.migration.completed = false ∧ x.instances = Instances.before) ∧
    ∃ x, (system edgeClients 30).Reachable x ∧ x.task.status = .finished ∧
      x.task.migration.phase = .phase3Restore ∧ x.instances.sourceExists = true ∧
      x.instances.sourceConsuming = false ∧ x.instances.targetRuns = true := by
  constructor
  · have hexec : Lts.exec (step edgeClients 30) [⟨.start 7, false⟩, ⟨.raised "unavailable", false⟩]
        (created ∅ "migration-0001" "op" "edge-node-1" "cloud") = some _ := rfl
    have hreach : (system edgeClients 30).Reachable _ :=
      Lts.reachable_of_exec ⟨∅, _, _, _, _, rfl⟩ hexec
    exact ⟨_, hreach, rfl, rfl, (ended_migration_outcome hreach rfl).2.2.mpr hasPhase_nil⟩
  · have hexec : Lts.exec (step edgeClients 30)
        [⟨.start 7, false⟩, ⟨.returned (.drain ⟨some ∅⟩) 7, true⟩,
          ⟨.returned (.snapshot ⟨"op/7/snapshot.msgpack", 64, ""⟩) 7, true⟩, ⟨.raised "unavailable", true⟩]
        (created ∅ "migration-0001" "op" "edge-node-1" "cloud") = some _ := rfl
    have hreach : (system edgeClients 30).Reachable _ :=
      Lts.reachable_of_exec ⟨∅, _, _, _, _, rfl⟩ hexec
    obtain ⟨-, ⟨hexists, hconsuming, hruns⟩, -⟩ := ended_migration_outcome hreach rfl
    exact ⟨_, hreach, rfl, rfl, hexists, hconsuming, hruns.mpr ⟨_, List.mem_cons_of_mem _ (List.mem_cons_of_mem _
      List.mem_cons_self), rfl⟩⟩

/-- The snapshot raises after the drain: the migration has ended and left, and the source stays drained. -/
theorem not_compensated_after_failed_snapshot :
    ∃ x, (system edgeClients 30).Reachable x ∧ x.task.status = .finished ∧
      x.task.migration.completed = false ∧
      x.activeMigrations.get x.task.migration.operatorId = none ∧
      x.instances.sourceConsuming = false := by
  have hexec : Lts.exec (step edgeClients 30)
      [⟨.start 7, false⟩, ⟨.returned (.drain ⟨some ∅⟩) 7, true⟩, ⟨.raised "unavailable", false⟩]
      (created ∅ "migration-0001" "op" "edge-node-1" "cloud") = some _ := rfl
  exact ⟨_, Lts.reachable_of_exec ⟨∅, _, _, _, _, rfl⟩ hexec, rfl, rfl, rfl, rfl⟩

end Execution
end Aode
end HybridStream
