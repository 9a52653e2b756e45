import HybridStream.Aode.Correctness.SingleLeader

/-!
# `Aode.Correctness.LeaseRelease` — what `stop_election` leaves behind

One instance over its history, with the leases it has been granted and those it has revoked. `Released` is what a stop
should leave: no leader, and none of the leases granted for the lock alive. `stop_election` awaits the maintenance task
before it releases, and the exception of a task that has died comes out there; a second lease takes the place of one
that is remembered. `Smooth` keeps such steps out, and the runs without them are tidy: what is not revoked is
remembered, and the instance leads as long as it remembers a lease (`Tidy`).
-/

namespace HybridStream
namespace Aode

open Lib Py

/-! ## The history of one instance

One instance with the store it talks to, and two lists that nothing in the code keeps: the leases it was granted for
the lock, and those it has revoked. Other clients may do what they like in between. -/

/-- An instance and its store, the leases granted to it for the lock and those it has revoked. -/
structure Tenure where
  session : Session
  granted : List Nat
  revoked : List Nat

/-- What the instance does next, and what etcd makes of its calls; between its steps other clients leave the store in
    any state. -/
inductive TenureStep where
  | start (now : Int) (leaseCall txnCall : CallOutcome)
  | refresh (task : Nat) (refreshCall : CallOutcome)
  | stop (revokeCall : CallOutcome)
  | others (etcd : Etcd)

namespace Tenure

open LeaderElection

/-- The leases granted by a `client.lease(ttl)` that ends so. -/
def newLeases (etcd : Etcd) : CallOutcome → List Nat
  | .answered => [etcd.grantLease.1]
  | .raised _ => []

/-- The lease that a step has given up: `_lease` is set to `None` only where its revocation has returned. -/
def givenUp (s s' : Session) : List Nat :=
  if s'.lease = none then s.lease.toList else []

/-- One step of the instance or of the others. -/
def step (keyPrefix : String) (t : Tenure) : TenureStep → Option Tenure
  | .start now leaseCall txnCall =>
      some { t with
        session := ((startElection keyPrefix now leaseCall txnCall).exec t.session).2
        granted := t.granted ++ newLeases t.session.etcd leaseCall }
  | .refresh task refreshCall => (resumeTask task refreshCall t.session).map fun s => { t with session := s }
  | .stop revokeCall =>
      let s := ((stopElection revokeCall).exec t.session).2
      some { t with session := s, revoked := t.revoked ++ givenUp t.session s }
  | .others etcd => some { t with session := { t.session with etcd := etcd } }

/-- A fresh instance over a store in any state. -/
def Initial (t : Tenure) : Prop := ∃ etcd, t = ⟨{ Instance.new with etcd := etcd }, [], []⟩

/-- The histories of an instance. -/
def system (keyPrefix : String) : Lts Tenure TenureStep := Lts.ofStep Initial (step keyPrefix)

/-- The instance has stepped down and its leases are revoked. -/
def Released (t : Tenure) : Prop := t.session.isLeader = false ∧ ∀ lease ∈ t.granted, lease ∈ t.revoked

/-- Steps that lose no lease: a lease is granted only where none is remembered, and then the transaction is answered;
    no refresh raises; the revocation of a leader that stops is answered. -/
def Smooth (t : Tenure) : TenureStep → Prop
  | .start _ leaseCall txnCall => leaseCall = .answered → t.session.lease = none ∧ txnCall = .answered
  | .refresh task refreshCall  => t.session.tasks[task]? = some .sleeping → refreshCall = .answered
  | .stop revokeCall           => t.session.isLeader = true → revokeCall = .answered
  | .others _                  => True

instance (t : Tenure) (a : TenureStep) : Decidable (Smooth t a) := by
  cases a <;> unfold Smooth <;> infer_instance

/-! ## The invariant

The instance leads as long as it remembers a lease, and every lease that it does not remember is revoked. A step that
forgets a lease it has not revoked would break it; those are the steps that are excluded. -/

/-- The instance leads as long as it remembers a lease, every other lease is revoked, and the only task that is not
    cancelled is that of the leader. -/
structure Tidy (t : Tenure) : Prop where
  leads   : t.session.isLeader = true ↔ t.session.lease ≠ none
  revoked : ∀ lease ∈ t.granted, lease ∈ t.revoked ∨ t.session.lease = some lease
  tasks   : ∀ k task, t.session.tasks[k]? = some task → task = .cancelled ∨
    t.session.isLeader = true ∧ t.session.leadershipTask = some k ∧ (task = .created ∨ task = .sleeping)

variable {keyPrefix : String} {t t' : Tenure}

theorem Tidy.of_initial (h : Initial t) : Tidy t := by
  obtain ⟨etcd, rfl⟩ := h
  exact ⟨by simp [Instance.new], by simp, by simp [Instance.new]⟩

/-- The task of a tidy instance has not failed. -/
theorem Tidy.not_failed (h : Tidy t) {k : Nat} {e : PyError} : t.session.tasks[k]? ≠ some (.failed e) := by
  intro hk
  rcases h.tasks k _ hk with hcancelled | ⟨-, -, hcreated | hsleeping⟩
  · cases hcancelled
  · cases hcreated
  · cases hsleeping

/-- A task that has not failed is cancelled. -/
theorem exec_cancelTask {s : Session} {k : Nat} (h : ∀ e, s.tasks[k]? ≠ some (.failed e)) :
    (cancelTask k).exec s = (.ok ⟨⟩, { s with tasks := s.tasks.set k .cancelled }) := by
  unfold cancelTask
  rw [Proc.exec_get_bind]
  split
  · rename_i e hk
    exact absurd hk (h e)
  · rfl

/-- The second half of `stop_election`, where the leader has a lease and its revocation is answered. -/
theorem exec_stepDown {s : Session} {revokeCall : CallOutcome} (hleads : s.isLeader = true ↔ s.lease ≠ none)
    (hrevoke : s.isLeader = true → revokeCall = .answered) :
    ∃ etcd, (Proc.exec (do
        if (← get).isLeader then
          EtcdClient.releaseLeaderLock revokeCall
          modify (fun s => { s with isLeader := false }) : Proc PyError Session PUnit) s).2 =
      { s with lease := none, isLeader := false, etcd := etcd } := by
  obtain ⟨⟨lease, isLeader, leadershipTask, tasks⟩, etcd⟩ := s
  rw [Proc.exec_get_bind]
  cases isLeader with
  | false =>
      have hnone : lease = none := Option.not_isSome_iff_eq_none.mp fun hsome =>
        absurd (hleads.mpr (Option.isSome_iff_ne_none.mp hsome)) nofun
      rw [hnone]
      exact ⟨etcd, rfl⟩
  | true =>
      obtain ⟨l, rfl⟩ := Option.ne_none_iff_exists'.mp (hleads.mp rfl)
      rw [hrevoke rfl]
      exact ⟨etcd.revoke l, rfl⟩

/-- **Stopping a tidy instance** whose revocation is answered. -/
theorem Tidy.exec_stopElection (h : Tidy t) {revokeCall : CallOutcome}
    (hrevoke : t.session.isLeader = true → revokeCall = .answered) :
    ∃ tasks etcd, ((stopElection revokeCall).exec t.session).2 =
        { t.session with lease := none, isLeader := false, tasks := tasks, etcd := etcd } ∧
      ∀ (k : Nat) task, tasks[k]? = some task → task = .cancelled := by
  unfold stopElection
  rw [Proc.exec_get_bind]
  cases htask : t.session.leadershipTask with
  | none =>
      obtain ⟨etcd, hexec⟩ := exec_stepDown h.leads hrevoke
      refine ⟨t.session.tasks, etcd, hexec, fun k task hk => ?_⟩
      rcases h.tasks k task hk with hcancelled | ⟨-, hleader, -⟩
      · exact hcancelled
      · rw [htask] at hleader
        cases hleader
  | some k =>
      dsimp only
      rw [Proc.exec_bind_ok (exec_cancelTask fun e => h.not_failed)]
      obtain ⟨etcd, hexec⟩ := exec_stepDown (s := { t.session with tasks := t.session.tasks.set k .cancelled })
        h.leads hrevoke
      refine ⟨_, etcd, hexec, fun j task hj => ?_⟩
      rw [List.getElem?_set] at hj
      split_ifs at hj with hkj
      · exact (Option.some.inj hj).symm
      · rcases h.tasks j task hj with hcancelled | ⟨-, hleader, -⟩
        · exact hcancelled
        · rw [htask] at hleader
          exact absurd (Option.some.inj hleader) hkj

/-- **A stop releases**, and leaves the instance tidy. -/
theorem Tidy.stop (h : Tidy t) {revokeCall : CallOutcome} (hguard : Smooth t (.stop revokeCall))
    (hstep : step keyPrefix t (.stop revokeCall) = some t') : Tidy t' ∧ Released t' := by
  obtain ⟨tasks, etcd, hexec, htasks⟩ := h.exec_stopElection hguard
  obtain rfl := Option.some.inj hstep
  have hrevoked : ∀ lease ∈ t.granted, lease ∈ t.revoked ++ givenUp t.session
      ((stopElection revokeCall).exec t.session).2 := by
    intro lease hlease
    rw [hexec, givenUp, if_pos rfl, List.mem_append]
    rcases h.revoked lease hlease with hrevoked | hheld
    · exact Or.inl hrevoked
    · exact Or.inr (by rw [hheld]; simp)
  refine ⟨⟨?_, fun lease hlease => Or.inl (hrevoked lease hlease), ?_⟩, ?_, hrevoked⟩
  · rw [hexec]
    simp
  · intro k task hk
    rw [hexec] at hk
    exact Or.inl (htasks k task hk)
  · rw [hexec]

/-- A lease is granted to an instance that remembers none, and it leads; or none is granted. -/
theorem Tidy.start (h : Tidy t) {now : Int} {leaseCall txnCall : CallOutcome}
    (hguard : Smooth t (.start now leaseCall txnCall))
    (hstep : step keyPrefix t (.start now leaseCall txnCall) = some t') : Tidy t' := by
  obtain rfl := Option.some.inj hstep
  cases leaseCall with
  | raised c =>
      rw [startElection_lease_raised]
      have hsame : Tidy { t with granted := t.granted ++ newLeases t.session.etcd (.raised c) } :=
        ⟨h.leads, by simpa [newLeases] using h.revoked, h.tasks⟩
      cases c with
      | false => exact hsame
      | true => exact ⟨hsame.leads, hsame.revoked, hsame.tasks⟩
  | answered =>
      obtain ⟨hnone, rfl⟩ := hguard rfl
      have hidle : t.session.isLeader ≠ true := fun hleader => h.leads.mp hleader hnone
      rw [startElection_answered]
      refine ⟨iff_of_true rfl nofun, fun lease hlease => ?_, fun k task hk => ?_⟩
      · rcases List.mem_append.mp hlease with hlease | hlease
        · rcases h.revoked lease hlease with hrevoked | hheld
          · exact Or.inl hrevoked
          · exact absurd (hnone.symm.trans hheld) nofun
        · exact Or.inr (congrArg some (List.mem_singleton.mp hlease).symm)
      · -- the new task is the leader's, those before it were cancelled
        have happend : (t.session.tasks ++ [.created])[k]? = some task := hk
        rw [List.getElem?_append] at happend
        split_ifs at happend with hlt
        · rcases h.tasks k task happend with hcancelled | ⟨hleader, -⟩
          · exact Or.inl hcancelled
          · exact absurd hleader hidle
        · obtain ⟨hbound, hcreated⟩ := List.getElem?_eq_some_iff.mp happend
          rw [List.length_singleton] at hbound
          have hlast : t.session.tasks.length = k := by omega
          exact Or.inr ⟨rfl, congrArg some hlast, Or.inl (by rw [← hcreated]; simp)⟩

/-- The task of an instance with a lease goes on, unless its refresh raises. -/
theorem runTask_of_lease {s : Session} {k lease : Nat} {first : Bool} {refreshCall : CallOutcome}
    (hlease : s.lease = some lease) (hrefresh : first = false → refreshCall = .answered) :
    runTask k first refreshCall s = { s with tasks := s.tasks.set k .sleeping } := by
  obtain ⟨⟨_, isLeader, leadershipTask, tasks⟩, etcd⟩ := s
  subst hlease
  cases first with
  | true => rfl
  | false =>
      rw [hrefresh rfl]
      rfl

/-- The leader's task goes on. -/
theorem Tidy.refresh (h : Tidy t) {task : Nat} {refreshCall : CallOutcome}
    (hguard : Smooth t (.refresh task refreshCall))
    (hstep : step keyPrefix t (.refresh task refreshCall) = some t') : Tidy t' := by
  obtain ⟨s, hresume, rfl⟩ := Option.map_eq_some_iff.mp hstep
  -- what is resumed is alive, and so the leader's task
  have hsession : t.session.isLeader = true ∧ t.session.leadershipTask = some task ∧
      s = { t.session with tasks := t.session.tasks.set task .sleeping } := by
    unfold resumeTask at hresume
    split at hresume
    · rename_i hcreated
      rcases h.tasks task _ hcreated with hcancelled | ⟨hleader, htask, -⟩
      · cases hcancelled
      · obtain ⟨l, hlease⟩ := Option.ne_none_iff_exists'.mp (h.leads.mp hleader)
        have hrun : runTask task true refreshCall t.session = _ := runTask_of_lease hlease nofun
        exact ⟨hleader, htask, (Option.some.inj hresume).symm.trans hrun⟩
    · rename_i hsleeping
      rcases h.tasks task _ hsleeping with hcancelled | ⟨hleader, htask, -⟩
      · cases hcancelled
      · obtain ⟨l, hlease⟩ := Option.ne_none_iff_exists'.mp (h.leads.mp hleader)
        have hrun : runTask task false refreshCall t.session = _ :=
          runTask_of_lease hlease fun _ => hguard hsleeping
        exact ⟨hleader, htask, (Option.some.inj hresume).symm.trans hrun⟩
    · cases hresume
  obtain ⟨hleader, htask, rfl⟩ := hsession
  refine ⟨h.leads, h.revoked, fun k state hk => ?_⟩
  have hset : (t.session.tasks.set task .sleeping)[k]? = some state := hk
  rw [List.getElem?_set] at hset
  split_ifs at hset with hkt
  · subst hkt
    exact Or.inr ⟨hleader, htask, Or.inr (Option.some.inj hset).symm⟩
  · exact h.tasks k state hset

/-- **What one step keeps.** -/
theorem Tidy.step (h : Tidy t) {a : TenureStep} (hguard : Smooth t a) (hstep : Tenure.step keyPrefix t a = some t') :
    Tidy t' := by
  cases a with
  | start now leaseCall txnCall => exact h.start hguard hstep
  | refresh task refreshCall    => exact h.refresh hguard hstep
  | stop revokeCall             => exact (h.stop hguard hstep).1
  | others etcd                 =>
      obtain rfl := Option.some.inj hstep
      exact ⟨h.leads, h.revoked, h.tasks⟩

theorem tidy_reachable (h : ((system keyPrefix).restrict Smooth).Reachable t) : Tidy t :=
  h.invariant (fun _ => Tidy.of_initial) fun _ _ _ htidy hstep => htidy.step hstep.2 hstep.1

/-! ## Stopping

A stop of an instance in this state revokes its lease and forgets it. The one way out is the exception of a task that
has died, which leaves before the release. -/

/-- **Stepping down releases the lock** in every run of smooth steps: after each of its stops the instance does not lead
    and all leases granted to it are revoked. `Tidy` says that an instance leads as long as it remembers a lease, and
    that every lease it does not remember is revoked; a smooth stop revokes the remembered one. -/
theorem released_of_stop {revokeCall : CallOutcome} (h : ((system keyPrefix).restrict Smooth).Reachable t)
    (hstep : ((system keyPrefix).restrict Smooth).step t (.stop revokeCall) t') : Released t' :=
  ((tidy_reachable h).stop hstep.2 hstep.1).2

/-- A fresh instance over an empty store. -/
def fresh : Tenure := ⟨{ Instance.new with etcd := ⟨fun _ => none, 0⟩ }, [], []⟩

/-- An instance leads twice, the second time after an attempt that got no lease. -/
theorem released_of_stop_twice : ∃ t, ((system "/").restrict Smooth).Reachable t ∧ t.granted = [0, 1] ∧ Released t := by
  have hexec : Lts.exec (Lts.guardStep (step "/") Smooth)
      [ .start 100 .answered .answered, .refresh 0 .answered, .refresh 0 .answered, .stop .answered,
        .start 110 (.raised false) .answered, .start 120 .answered .answered ] fresh = some _ := rfl
  have hreach : ((system "/").restrict Smooth).Reachable _ :=
    Lts.restrict_reachable_of_exec ⟨_, rfl⟩ hexec
  exact ⟨_, hreach.tail (a := .stop .answered) ⟨rfl, fun _ => rfl⟩, rfl, released_of_stop hreach ⟨rfl, fun _ => rfl⟩⟩

/-- **A refresh that raises**: the stop raises the exception of the task, and the instance goes on leading with its
    lease. -/
theorem not_released_after_failed_refresh :
    ∃ t t', (system "/").Reachable t ∧ (system "/").step t (.stop .answered) t' ∧ ¬ Released t' := by
  have hexec : Lts.exec (step "/")
      [.start 100 .answered .answered, .refresh 0 .answered, .refresh 0 (.raised false)] fresh = some _ := rfl
  refine ⟨_, _, Lts.reachable_of_exec ⟨_, rfl⟩ hexec, rfl, ?_⟩
  intro hreleased
  exact absurd hreleased.1 nofun

end Tenure

end Aode
end HybridStream
