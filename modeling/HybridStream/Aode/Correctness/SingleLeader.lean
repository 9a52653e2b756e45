import HybridStream.Aode.LeaderElection

/-!
# `Aode.Correctness.SingleLeader` — when at most one instance believes it leads

`acquire_leader_lock` tests the *pair* `client.transaction` returns, and a pair is always true: an answered
election is won, whoever holds the lock (`startElection_answered`). Two answered elections are two leaders
(`two_leaders`).

The lock itself works. `Owned` says so: the key is attached to a lease of the instance that leads, and
leases have one owner each. It survives every step in which no other instance is answered while the key
exists, and no revoke is carried out behind a raised call (`Uncontended`), so in the runs made of such steps
there is at most one leader (`at_most_one_leader`).
-/

namespace HybridStream
namespace Aode

open Lib Py

/-! ## What the methods do

The two methods of the election, run by their constructs for each way in which the calls can end. An election that is
answered is won whatever the transaction has found: the result of the transaction is a pair, and a pair is true. -/

section Methods

variable {s : Session} {keyPrefix key value : String} {now : Int} {leaseCall txnCall : CallOutcome}

namespace Etcd

variable {e : Etcd} {lease : Nat}

theorem transaction_of_none (h : e.kv key = none) :
    (e.transaction key value lease).2 = e.put key value lease := by
  unfold transaction
  rw [h]

theorem transaction_of_some {x : KeyValue} (h : e.kv key = some x) :
    (e.transaction key value lease).2 = e := by
  unfold transaction
  rw [h]

@[simp] theorem granted_transaction : (e.transaction key value lease).2.granted = e.granted := by
  unfold transaction
  split <;> rfl

theorem kv_put_self : (e.put key value lease).kv key = some ⟨value, lease⟩ := if_pos rfl

/-- A key put with another lease outlives the revocation. -/
theorem kv_revoke_of_ne {x : KeyValue} (h : e.kv key = some x) (hne : x.lease ≠ lease) :
    (e.revoke lease).kv key = some x := by
  simp [revoke, h, hne]

end Etcd

/-- The session once the lease of an election has been granted and kept. -/
def Session.leased (s : Session) : Session :=
  { s with lease := some s.etcd.granted, etcd := s.etcd.grantLease.2 }

/-- The store after the transaction of an election. -/
def Session.contested (s : Session) (keyPrefix : String) (now : Int) : Etcd :=
  (s.etcd.grantLease.2.transaction (Cluster.lockKey keyPrefix) s!"leader-{now}" s.etcd.granted).2

namespace LeaderElection

open EtcdClient

theorem startElection_lease_raised (c : Bool) :
    ((startElection keyPrefix now (.raised c) txnCall).exec s).2 =
      if c then { s with etcd := s.etcd.grantLease.2 } else s := rfl

theorem startElection_txn_raised (c : Bool) :
    (startElection keyPrefix now .answered (.raised c)).exec s =
      (.ok false, if c then { s.leased with etcd := s.contested keyPrefix now } else s.leased) := by
  cases c <;> rfl

/-- **An answered election is won**, whatever the transaction has found. -/
theorem startElection_answered :
    (startElection keyPrefix now .answered .answered).exec s =
      (.ok true,
        { s.leased with
          etcd           := s.contested keyPrefix now
          isLeader       := true
          leadershipTask := some s.tasks.length
          tasks          := s.tasks ++ [.created] }) := rfl

/-- Refreshing a lease changes nothing here. -/
theorem maintainLeadership_state (first : Bool) (refreshCall : CallOutcome) :
    ((maintainLeadership first refreshCall).exec s).2 = s := by
  unfold maintainLeadership
  rw [Proc.exec_bind, Proc.exec_get]
  dsimp only
  cases s.lease with
  | none => cases first <;> rfl
  | some lease => cases first <;> rcases refreshCall with _ | ⟨_ | _⟩ <;> rfl

theorem runTask_eq (k : Nat) (first : Bool) (refreshCall : CallOutcome) :
    ∃ tasks, runTask k first refreshCall s = { s with tasks := tasks } := by
  have hs := maintainLeadership_state (s := s) first refreshCall
  unfold runTask
  rcases hexec : (maintainLeadership first refreshCall).exec s with ⟨e | _, t⟩
  all_goals
    rw [hexec] at hs
    rw [show t = s from hs]
    exact ⟨_, rfl⟩

/-- A resumption of the leadership task touches neither the lease, nor the flag, nor the store. -/
theorem resumeTask_frame {k : Nat} {refreshCall : CallOutcome} {s' : Session}
    (h : resumeTask k refreshCall s = some s') :
    s'.lease = s.lease ∧ s'.isLeader = s.isLeader ∧ s'.etcd = s.etcd := by
  have hrun : ∃ first, runTask k first refreshCall s = s' := by
    unfold resumeTask at h
    split at h
    · exact ⟨true, Option.some.inj h⟩
    · exact ⟨false, Option.some.inj h⟩
    · exact absurd h (by simp)
  obtain ⟨first, rfl⟩ := hrun
  obtain ⟨tasks, htasks⟩ := runTask_eq (s := s) k first refreshCall
  rw [htasks]
  exact ⟨rfl, rfl, rfl⟩

/-- Cancelling the task touches neither the lease, nor the flag, nor the store. -/
theorem cancelTask_frame (k : Nat) :
    ∃ tasks, ((cancelTask k).exec s).2 = { s with tasks := tasks } := by
  unfold cancelTask
  rw [Proc.exec_bind, Proc.exec_get]
  dsimp only
  split
  · exact ⟨s.tasks, rfl⟩
  · exact ⟨_, rfl⟩

/-- What `stop_election` does: nothing to the lease, the flag and the store (no leader, or the task's
    exception came first, or the revoke raised), or the leader's lease is revoked and it steps down. A
    revoke that raises may have been carried out nevertheless. -/
theorem stopElection_cases (revokeCall : CallOutcome) :
    let s' := ((stopElection revokeCall).exec s).2
    (s'.lease = s.lease ∧ s'.isLeader = s.isLeader ∧ s'.etcd = s.etcd) ∨
    (s'.lease = none ∧ s'.isLeader = false ∧
      (s'.etcd = s.etcd ∨ ∃ lease, s.lease = some lease ∧ s'.etcd = s.etcd.revoke lease)) ∨
    (s.isLeader = true ∧ revokeCall = .raised true) := by
  have hrest : ∀ (t : Session), t.lease = s.lease → t.isLeader = s.isLeader → t.etcd = s.etcd →
      let s' := (Proc.exec (do
        if (← get).isLeader then
          releaseLeaderLock revokeCall
          modify (fun s => { s with isLeader := false }) : Proc PyError Session PUnit) t).2
      (s'.lease = s.lease ∧ s'.isLeader = s.isLeader ∧ s'.etcd = s.etcd) ∨
      (s'.lease = none ∧ s'.isLeader = false ∧
        (s'.etcd = s.etcd ∨ ∃ lease, s.lease = some lease ∧ s'.etcd = s.etcd.revoke lease)) ∨
      (s.isLeader = true ∧ revokeCall = .raised true) := by
    intro t hlease hleader hetcd
    rw [Proc.exec_bind, Proc.exec_get]
    dsimp only
    cases hl : t.isLeader with
    | false => exact Or.inl ⟨hlease, hleader, hetcd⟩
    | true =>
        rw [if_pos rfl, Proc.exec_bind]
        unfold releaseLeaderLock
        rw [Proc.exec_bind, Proc.exec_get]
        dsimp only
        cases ht : t.lease with
        | none => exact Or.inr (Or.inl ⟨ht, rfl, Or.inl hetcd⟩)
        | some lease =>
            -- the revoke is answered; or it raises, without effect or with it
            rcases revokeCall with _ | ⟨_ | _⟩
            · refine Or.inr (Or.inl ⟨rfl, rfl, Or.inr ⟨lease, by rw [← hlease, ht], ?_⟩⟩)
              rw [← hetcd]
              rfl
            · exact Or.inl ⟨hlease, hleader, hetcd⟩
            · exact Or.inr (Or.inr ⟨by rw [← hleader, hl], rfl⟩)
  unfold stopElection
  rw [Proc.exec_bind, Proc.exec_get]
  dsimp only
  -- the task is cancelled first, and its own exception comes out there
  cases s.leadershipTask with
  | none => exact hrest s rfl rfl rfl
  | some k =>
      obtain ⟨tasks, htasks⟩ := cancelTask_frame (s := s) k
      dsimp only
      rw [Proc.exec_bind]
      rcases hexec : (cancelTask k).exec s with ⟨e | _, t⟩
      all_goals
        rw [hexec] at htasks
        rw [show t = _ from htasks]
      · exact Or.inl ⟨rfl, rfl, rfl⟩
      · exact hrest _ rfl rfl rfl

end LeaderElection

end Methods

namespace Cluster

variable {ι : Type} [DecidableEq ι] {keyPrefix : String} {c c' : Cluster ι} {a : ElectionStep ι}

/-! ## The invariant

A leader's lease holds the lock, and a lease is granted once. As the lock has one lease, there is one leader at most;
nothing is said of who remembers leases that hold nothing. -/

/-- Every instance's lease is one that was granted to it, and a leader's lease holds the lock. A lease has
    one owner, so the lock has. -/
structure Owned (keyPrefix : String) (c : Cluster ι) (owner : Nat → Option ι) : Prop where
  held : ∀ i lease, (c.instances i).lease = some lease → lease < c.etcd.granted ∧ owner lease = some i
  lock : ∀ i, c.isLeader i = true → ∃ x, c.etcd.kv (lockKey keyPrefix) = some x ∧
           x.lease < c.etcd.granted ∧ owner x.lease = some i

/-- At most one instance believes it leads. -/
def AtMostOneLeader (c : Cluster ι) : Prop :=
  ∀ i j, c.isLeader i = true → c.isLeader j = true → i = j

omit [DecidableEq ι] in
theorem Owned.atMostOneLeader {owner : Nat → Option ι} (h : Owned keyPrefix c owner) :
    AtMostOneLeader c := by
  intro i j hi hj
  obtain ⟨x, hx, -, hown⟩ := h.lock i hi
  obtain ⟨y, hy, -, hown'⟩ := h.lock j hj
  rw [hx] at hy
  cases hy
  rw [hown] at hown'
  exact Option.some.inj hown'

/-! ### Preservation, one kind of change at a time

What an instance does to its own lease and flag, for the three kinds of change; the other instances are as they were,
and keep the lock as long as its key is not taken away. -/

theorem instances_after_self (c : Cluster ι) (i : ι) (s : Session) :
    (c.after i s).instances i = s.toInstance := Function.update_self i _ c.instances

theorem instances_after_ne (c : Cluster ι) {i j : ι} (s : Session) (h : j ≠ i) :
    (c.after i s).instances j = c.instances j := Function.update_of_ne h _ c.instances

variable {owner : Nat → Option ι} {i : ι} {s : Session}

/-- A step that leaves lease, flag and store of the instance alone. -/
theorem Owned.idle (h : Owned keyPrefix c owner) (hlease : s.lease = (c.instances i).lease)
    (hleader : s.isLeader = c.isLeader i) (hetcd : s.etcd = c.etcd) :
    Owned keyPrefix (c.after i s) owner := by
  have hleases : ∀ j, ((c.after i s).instances j).lease = (c.instances j).lease := by
    intro j
    by_cases hj : j = i
    · rw [hj, instances_after_self, hlease]
    · rw [instances_after_ne c s hj]
  have hleaders : ∀ j, (c.after i s).isLeader j = c.isLeader j := by
    intro j
    by_cases hj : j = i
    · rw [hj, isLeader, instances_after_self, hleader]
    · rw [isLeader, instances_after_ne c s hj, isLeader]
  have hstore : (c.after i s).etcd = c.etcd := hetcd
  constructor
  · intro j lease hj
    rw [hleases] at hj
    rw [hstore]
    exact h.held j lease hj
  · intro j hj
    rw [hleaders] at hj
    rw [hstore]
    exact h.lock j hj

/-- A lease granted to the instance, whether it has heard of it or not. -/
theorem Owned.granted (h : Owned keyPrefix c owner)
    (hlease : s.lease = (c.instances i).lease ∨ s.lease = some c.etcd.granted)
    (hetcd : s.etcd.granted = c.etcd.granted + 1)
    (hlock : ∀ j, (c.after i s).isLeader j = true →
      (c.isLeader j = true ∧ s.etcd.kv (lockKey keyPrefix) = c.etcd.kv (lockKey keyPrefix)) ∨
      (j = i ∧ ∃ value, s.etcd.kv (lockKey keyPrefix) = some ⟨value, c.etcd.granted⟩)) :
    Owned keyPrefix (c.after i s) (Function.update owner c.etcd.granted (some i)) := by
  have hlt : c.etcd.granted < (c.after i s).etcd.granted := by
    show _ < s.etcd.granted
    omega
  -- leases granted earlier keep their owners
  have hold : ∀ lease j, lease < c.etcd.granted → owner lease = some j →
      lease < (c.after i s).etcd.granted ∧
        Function.update owner c.etcd.granted (some i) lease = some j := by
    intro lease j hl ho
    exact ⟨hl.trans hlt, by rw [Function.update_of_ne hl.ne, ho]⟩
  constructor
  · intro j lease hj
    by_cases hji : j = i
    · rw [hji, instances_after_self] at hj
      rcases hlease with heq | hnew
      · -- it keeps the lease it had
        rw [heq] at hj
        obtain ⟨hl, ho⟩ := h.held i lease hj
        exact hji ▸ hold lease i hl ho
      · rw [hnew] at hj
        -- the lease just granted
        cases hj
        exact ⟨hlt, by rw [Function.update_self, hji]⟩
    · rw [instances_after_ne c s hji] at hj
      obtain ⟨hl, ho⟩ := h.held j lease hj
      exact hold lease j hl ho
  · intro j hj
    rcases hlock j hj with ⟨hwas, hkv⟩ | ⟨hji, value, hkv⟩
    · obtain ⟨x, hx, hl, ho⟩ := h.lock j hwas
      exact ⟨x, by rw [← hx]; exact hkv, hold x.lease j hl ho⟩
    · exact ⟨_, hkv, hlt, by rw [Function.update_self, hji]⟩

/-- The instance steps down; the key disappears only if it was put with the instance's own lease. -/
theorem Owned.resigned (h : Owned keyPrefix c owner) (hlease : s.lease = none) (hleader : s.isLeader = false)
    (hetcd : s.etcd = c.etcd ∨
      ∃ lease, (c.instances i).lease = some lease ∧ s.etcd = c.etcd.revoke lease) :
    Owned keyPrefix (c.after i s) owner := by
  have hgranted : (c.after i s).etcd.granted = c.etcd.granted := by
    show s.etcd.granted = _
    rcases hetcd with heq | ⟨lease, -, heq⟩
    · rw [heq]
    · rw [heq]; rfl
  constructor
  · intro j lease hj
    rw [hgranted]
    by_cases hji : j = i
    · rw [hji, instances_after_self, hlease] at hj
      exact absurd hj (by simp)
    · rw [instances_after_ne c s hji] at hj
      exact h.held j lease hj
  · intro j hj
    rw [hgranted]
    by_cases hji : j = i
    · rw [hji, isLeader, instances_after_self, hleader] at hj
      exact absurd hj (by simp)
    · rw [isLeader, instances_after_ne c s hji] at hj
      obtain ⟨x, hx, hl, ho⟩ := h.lock j hj
      refine ⟨x, ?_, hl, ho⟩
      show s.etcd.kv _ = _
      rcases hetcd with heq | ⟨lease, hi, heq⟩
      · rw [heq, hx]
      · rw [heq]
        refine Etcd.kv_revoke_of_ne hx ?_
        -- the revoked lease belongs to `i`, the one on the key to `j`
        intro hsame
        rw [hsame, (h.held i lease hi).2] at ho
        exact hji (Option.some.inj ho).symm

/-! ## The steps that keep it

An election that is answered while the key is free, and a stop whose revocation is answered. Whether the key is free
is read off the store, before the step. -/

/-- The election of an instance that does not lead is answered only while the key is free, and no revoke of
    a leader's lease is carried out behind a call that raises. -/
def Uncontended (keyPrefix : String) (c : Cluster ι) : ElectionStep ι → Prop
  | .start i _ leaseCall txnCall =>
      leaseCall = .answered → txnCall = .answered → c.isLeader i = false →
        (c.etcd.kv (lockKey keyPrefix)).isNone = true
  | .refresh .. => True
  | .stop i revokeCall => c.isLeader i = true → revokeCall ≠ .raised true

instance (c : Cluster ι) (a : ElectionStep ι) : Decidable (Uncontended keyPrefix c a) := by
  cases a <;> unfold Uncontended <;> infer_instance

/-- The lock after the transaction of an election: as before, or put just now. -/
theorem kv_contested (s : Session) (now : Int) :
    ((∃ x, s.etcd.kv (lockKey keyPrefix) = some x) ∧
      (s.contested keyPrefix now).kv (lockKey keyPrefix) = s.etcd.kv (lockKey keyPrefix)) ∨
    (s.etcd.kv (lockKey keyPrefix) = none ∧
      (s.contested keyPrefix now).kv (lockKey keyPrefix) = some ⟨s!"leader-{now}", s.etcd.granted⟩) := by
  unfold Session.contested
  cases hkv : s.etcd.kv (lockKey keyPrefix) with
  | none =>
      rw [Etcd.transaction_of_none (show s.etcd.grantLease.2.kv _ = none from hkv), Etcd.kv_put_self]
      exact Or.inr ⟨rfl, rfl⟩
  | some x =>
      rw [Etcd.transaction_of_some (show s.etcd.grantLease.2.kv _ = some x from hkv)]
      exact Or.inl ⟨⟨x, rfl⟩, hkv⟩

theorem granted_contested (s : Session) (now : Int) :
    (s.contested keyPrefix now).granted = s.etcd.granted + 1 := by
  unfold Session.contested
  rw [Etcd.granted_transaction]
  rfl

/-- An election of `i` that ends without a flag being set keeps every leader's lock: a transaction finds
    the key of a leader there. -/
theorem Owned.lost (h : Owned keyPrefix c owner) (i : ι) (now : Int) {s : Session}
    (hlease : s.lease = some c.etcd.granted) (hleader : s.isLeader = c.isLeader i)
    (hetcd : s.etcd = (c.session i).etcd.grantLease.2 ∨ s.etcd = (c.session i).contested keyPrefix now) :
    ∃ owner', Owned keyPrefix (c.after i s) owner' := by
  refine ⟨_, h.granted (Or.inr hlease) ?_ ?_⟩
  · rcases hetcd with heq | heq
    · rw [heq]; rfl
    · rw [heq]; exact granted_contested _ now
  · intro j hj
    have hwas : c.isLeader j = true := by
      by_cases hji : j = i
      · rw [hji, isLeader, instances_after_self, hleader] at hj
        rw [hji, hj]
      · rw [isLeader, instances_after_ne c s hji] at hj
        exact hj
    obtain ⟨x, hx, -⟩ := h.lock j hwas
    refine Or.inl ⟨hwas, ?_⟩
    rcases hetcd with heq | heq
    · rw [heq]; rfl
    · rw [heq]
      rcases kv_contested (c.session i) now with ⟨-, hkv⟩ | ⟨hnone, -⟩
      · exact hkv
      · exact absurd (hx.symm.trans hnone) (by simp)

theorem owned_start {now : Int} {leaseCall txnCall : CallOutcome} (h : Owned keyPrefix c owner)
    (hstep : step keyPrefix c (.start i now leaseCall txnCall) = some c')
    (hG : Uncontended keyPrefix c (.start i now leaseCall txnCall)) :
    ∃ owner', Owned keyPrefix c' owner' := by
  have hc' := Option.some.inj hstep
  subst hc'
  rcases leaseCall with _ | b
  · rcases txnCall with _ | b
    · -- the transaction is answered, and the instance leads
      rw [LeaderElection.startElection_answered]
      refine ⟨_, h.granted (Or.inr rfl) (granted_contested (c.session i) now) ?_⟩
      intro j hj
      by_cases hji : j = i
      · rcases kv_contested (c.session i) now with ⟨⟨x, hx⟩, hkv⟩ | ⟨-, hkv⟩
        · refine Or.inl ⟨?_, hkv⟩
          rw [hji]
          -- the key was there: only a leader may contest it
          by_contra hno
          have hfree := hG rfl rfl (Bool.eq_false_iff.mpr hno)
          rw [show c.etcd.kv _ = some x from hx] at hfree
          exact absurd hfree (by simp)
        · exact Or.inr ⟨hji, _, hkv⟩
      · rw [isLeader, instances_after_ne c _ hji] at hj
        obtain ⟨x, hx, -⟩ := h.lock j hj
        rcases kv_contested (c.session i) now with ⟨-, hkv⟩ | ⟨hnone, -⟩
        · exact Or.inl ⟨hj, hkv⟩
        · exact absurd (hx.symm.trans hnone) (by simp)
    · rw [LeaderElection.startElection_txn_raised]
      cases b with
      | true => exact h.lost i now rfl rfl (Or.inr rfl)
      | false => exact h.lost i now rfl rfl (Or.inl rfl)
  · rw [LeaderElection.startElection_lease_raised]
    cases b with
    | false => exact ⟨owner, h.idle rfl rfl rfl⟩
    | true =>
        refine ⟨_, h.granted (Or.inl rfl) rfl ?_⟩
        intro j hj
        refine Or.inl ⟨?_, rfl⟩
        by_cases hji : j = i
        · rw [hji, isLeader, instances_after_self] at hj
          rw [hji]
          exact hj
        · rw [isLeader, instances_after_ne c _ hji] at hj
          exact hj

/-- **Every uncontended step keeps the lock with the leader.** -/
theorem owned_step (h : Owned keyPrefix c owner) (hstep : step keyPrefix c a = some c')
    (hG : Uncontended keyPrefix c a) : ∃ owner', Owned keyPrefix c' owner' := by
  cases a with
  | start i now leaseCall txnCall => exact owned_start h hstep hG
  | refresh i task refreshCall =>
      obtain ⟨s, hs, rfl⟩ := Option.map_eq_some_iff.mp hstep
      obtain ⟨hlease, hleader, hetcd⟩ := LeaderElection.resumeTask_frame hs
      exact ⟨owner, h.idle hlease hleader hetcd⟩
  | stop i revokeCall =>
      cases Option.some.inj hstep
      rcases LeaderElection.stopElection_cases (s := c.session i) revokeCall with
        ⟨hlease, hleader, hetcd⟩ | ⟨hlease, hleader, hetcd⟩ | ⟨hleader, hraised⟩
      · exact ⟨owner, h.idle hlease hleader hetcd⟩
      · exact ⟨owner, h.resigned hlease hleader hetcd⟩
      · exact absurd hraised (hG hleader)

theorem owned_reachable (h : ((system keyPrefix).restrict (Uncontended keyPrefix)).Reachable c) :
    ∃ owner, Owned keyPrefix c owner := by
  refine Lts.Reachable.invariant (I := fun c => ∃ owner, Owned keyPrefix c owner) ?_ ?_ h
  · intro c hc
    refine ⟨fun _ => none, ?_, ?_⟩
    · intro i lease hi
      rw [hc i] at hi
      exact absurd hi (by simp [Instance.new])
    · intro i hi
      rw [isLeader, hc i] at hi
      exact absurd hi (by simp [Instance.new])
  · rintro c a c' ⟨owner, hown⟩ ⟨hstep, hG⟩
    exact owned_step hown hstep hG

/-! ## At most one leader

The result, a run in which two instances lead in turn, and the run of one deployment in which both lead at once. -/

/-- **In every state of every uncontended run at most one instance believes it leads.** Who believes so has a lease that
    owns the key, which is an invariant, and the key has one owner. -/
theorem at_most_one_leader (h : ((system keyPrefix).restrict (Uncontended keyPrefix)).Reachable c) :
    AtMostOneLeader c := by
  obtain ⟨owner, hown⟩ := owned_reachable h
  exact hown.atMostOneLeader

/-- Fresh instances over an empty store. -/
def fresh : Cluster ι := ⟨fun _ => Instance.new, ⟨fun _ => none, 0⟩⟩

/-- One instance leads and steps down, and the next one leads. -/
theorem at_most_one_leader_in_turn :
    ∃ c : Cluster Nat, ((system "/").restrict (Uncontended "/")).Reachable c ∧
      c.isLeader 1 = true ∧ AtMostOneLeader c := by
  have hexec : Lts.exec (Lts.guardStep (step "/") (Uncontended "/"))
      [ .start 0 100 .answered .answered, .refresh 0 0 .answered, .start 1 101 .answered (.raised false),
        .stop 0 .answered, .start 1 102 .answered .answered ] (fresh (ι := Nat)) = some _ := rfl
  have hreach : ((system "/").restrict (Uncontended "/")).Reachable _ :=
    Lts.restrict_reachable_of_exec (fun _ => rfl) hexec
  exact ⟨_, hreach, rfl, at_most_one_leader hreach⟩

/-- **Whoever starts an election leads**, so a second election makes a second leader. -/
theorem two_leaders {j : ι} (now : Int) (hj : c.isLeader j = true) (hne : j ≠ i) :
    ∃ c', step keyPrefix c (.start i now .answered .answered) = some c' ∧
      c'.isLeader i = true ∧ c'.isLeader j = true := by
  refine ⟨_, rfl, ?_, ?_⟩
  · rw [isLeader, instances_after_self, LeaderElection.startElection_answered]
  · rw [isLeader, instances_after_ne c _ hne]
    exact hj

/-- Two instances of one deployment start their elections, and both lead. -/
theorem both_elected :
    ∃ c : Cluster Nat, (system "/").Reachable c ∧ ¬ AtMostOneLeader c := by
  have hexec : Lts.exec (step "/") [.start 0 100 .answered .answered, .start 1 101 .answered .answered]
      (fresh (ι := Nat)) = some _ := rfl
  refine ⟨_, Lts.reachable_of_exec (fun _ => rfl) hexec, ?_⟩
  intro hone
  exact absurd (hone 0 1 rfl rfl) (by decide)

end Cluster

end Aode
end HybridStream
