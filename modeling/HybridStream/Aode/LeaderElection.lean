import HybridStream.Lib.Lts
import HybridStream.Lib.Proc
import HybridStream.Py.Value
import Mathlib.Logic.Function.Basic

/-!
# `Aode.LeaderElection` — AODE instances competing for one lock in etcd

`aode/etcd/client.py`: the leader lock of `EtcdClient` and the class `LeaderElection` on top of it. Every
instance owns one `EtcdClient` and one `LeaderElection`; they share the store.

`etcd3` is a blocking client, so a method body issues its calls one after the other. What etcd makes of a
call is part of the label of a step (`CallOutcome`): it is answered, or it raises, and then the store may
or may not have carried it out. Transactions are atomic, and revoking a lease removes the keys that were
put with it. No lease expires on its own.
-/

namespace HybridStream
namespace Aode

open Lib Py

/-! ## The store

The part of etcd that the lock uses: keys with the lease they were put with, and a transaction that puts a key if it
is not there. Leases do not expire in the model, which only favours the code. -/

/-- A key's value and the lease it was put with. -/
structure KeyValue where
  value : String
  lease : Nat

/-- etcd: its keys, and how many leases it has granted so far. Lease ids are handed out in order. -/
structure Etcd where
  kv      : String → Option KeyValue
  granted : Nat

namespace Etcd

/-- `client.lease(ttl)`: a lease that has not been granted before. -/
def grantLease (e : Etcd) : Nat × Etcd := (e.granted, { e with granted := e.granted + 1 })

/-- `put(key, value, lease=lease)`: the key has this value for as long as the lease lasts. -/
def put (key value : String) (lease : Nat) (e : Etcd) : Etcd :=
  { e with kv := fun k => if k = key then some ⟨value, lease⟩ else e.kv k }

/-- `client.transaction(compare=[create(key) == 0], success=[put(key, value, lease)], failure=[])`: the
    pair of whether the comparison held and the responses of the branch taken. -/
def transaction (key value : String) (lease : Nat) (e : Etcd) : (Bool × List Unit) × Etcd :=
  match e.kv key with
  | none   => ((true, [()]), e.put key value lease)
  | some _ => ((false, []), e)

/-- `lease.revoke()`: the keys under the lease are gone. -/
def revoke (lease : Nat) (e : Etcd) : Etcd :=
  { e with kv := fun k => (e.kv k).filter (fun x => x.lease != lease) }

/-- `lease.refresh()`: leases never expire here, so nothing changes. -/
def refresh (_lease : Nat) (e : Etcd) : Etcd := e

end Etcd

/-- How a call to etcd ends. -/
inductive CallOutcome where
  | answered
  | raised (carriedOut : Bool)
  deriving DecidableEq

/-! ## One instance

The client and the election of one process. A call to etcd may be answered, or raise, carried out or not; the
maintenance task runs from one sleep to the next. -/

/-- A `maintain_leadership` task. It has no end of its own. -/
inductive TaskState where
  | created | sleeping | cancelled
  | failed (e : PyError)
  deriving DecidableEq

/-- The attributes of one instance: `_lease` of its `EtcdClient`, `_is_leader` and `_leadership_task` of its
    `LeaderElection`. The latter refers to a position of `tasks`: a task stays alive when the attribute is
    overwritten. -/
structure Instance where
  lease          : Option Nat
  isLeader       : Bool
  leadershipTask : Option Nat
  tasks          : List TaskState

/-- `EtcdClient.__init__` and `LeaderElection.__init__`: no lease, no leadership, no task. -/
def Instance.new : Instance := ⟨none, false, none, []⟩

/-- An instance and the store it talks to. -/
structure Session extends Instance where
  etcd : Etcd

/-- A blocking call to etcd: it is answered, or it raises, in which case it may have been carried out or not. -/
def call {α : Type} (outcome : CallOutcome) (f : Etcd → α × Etcd) : Proc PyError Session α := do
  let s ← get
  match outcome with
  | .answered =>
      modify (fun s => { s with etcd := (f s.etcd).2 })
      pure (f s.etcd).1
  | .raised carriedOut =>
      modify (fun s => if carriedOut then { s with etcd := (f s.etcd).2 } else s)
      throw ⟨.other, "etcd call failed"⟩

/-- `bool(pair)`: a tuple is true unless it is empty, and a pair is not. -/
def boolOfPair {α β : Type} (_pair : α × β) : Bool := true

namespace EtcdClient

/-- The key of a lock, under the prefix of the deployment. -/
def lockKey (keyPrefix lockName : String) : String := s!"{keyPrefix}leaders/{lockName}"

/-- `acquire_leader_lock`; `now` is `int(time.time())`. A lease is granted and remembered first, and then the key is
    taken if it is free; what the transaction raises counts as a lock that is not acquired. -/
def acquireLeaderLock (keyPrefix lockName : String) (now : Int) (leaseCall txnCall : CallOutcome) :
    Proc PyError Session Bool := do
  let lease ← call leaseCall Etcd.grantLease
  modify (fun s => { s with lease := some lease })
  tryCatch
    (do
      let success ← call txnCall (Etcd.transaction (lockKey keyPrefix lockName) s!"leader-{now}" lease)
      if boolOfPair success then pure true else pure false)
    (fun _ => pure false)

/-- `release_leader_lock`: the remembered lease is revoked, and forgotten only if that returns. -/
def releaseLeaderLock (revokeCall : CallOutcome) : Proc PyError Session PUnit := do
  match (← get).lease with
  | some lease =>
      call revokeCall (fun e => ((), e.revoke lease))
      modify (fun s => { s with lease := none })
  | none => pure ⟨⟩

/-- `maintain_leadership` from one suspension to the next: the first check, or one refresh. -/
def maintainLeadership (first : Bool) (refreshCall : CallOutcome) : Proc PyError Session PUnit := do
  match (← get).lease with
  | some lease => if first then pure ⟨⟩ else call refreshCall (fun e => ((), e.refresh lease))
  | none       =>
      if first then throw ⟨.valueError, "No active lease to maintain"⟩
      else throw ⟨.attributeError, "'NoneType' object has no attribute 'refresh'"⟩

end EtcdClient

namespace LeaderElection

open EtcdClient

/-- `start_election`: if the lock is acquired the instance leads, and its maintenance task is created. -/
def startElection (keyPrefix : String) (now : Int) (leaseCall txnCall : CallOutcome) :
    Proc PyError Session Bool := do
  let isLeader ← acquireLeaderLock keyPrefix "aode" now leaseCall txnCall
  if isLeader then
    modify (fun s => { s with
      isLeader       := true
      leadershipTask := some s.tasks.length
      tasks          := s.tasks ++ [.created] })
  pure isLeader

/-- `task.cancel()` and `await task`: a task that is still alive is cancelled, one that has failed raises
    its exception again. -/
def cancelTask (k : Nat) : Proc PyError Session PUnit := do
  match (← get).tasks[k]? with
  | some (.failed e) => throw e
  | _                => modify (fun s => { s with tasks := s.tasks.set k .cancelled })

/-- `stop_election`: the task is cancelled and awaited first, so what it raises leaves before the release. -/
def stopElection (revokeCall : CallOutcome) : Proc PyError Session PUnit := do
  match (← get).leadershipTask with
  | some k => cancelTask k
  | none   => pure ⟨⟩
  if (← get).isLeader then
    releaseLeaderLock revokeCall
    modify (fun s => { s with isLeader := false })

/-- The `k`-th leadership task runs to its next suspension or fails. -/
def runTask (k : Nat) (first : Bool) (refreshCall : CallOutcome) (s : Session) : Session :=
  match (maintainLeadership first refreshCall).exec s with
  | (.ok _, s')    => { s' with tasks := s'.tasks.set k .sleeping }
  | (.error e, s') => { s' with tasks := s'.tasks.set k (.failed e) }

/-- One resumption of the `k`-th leadership task, if it is alive. -/
def resumeTask (k : Nat) (refreshCall : CallOutcome) (s : Session) : Option Session :=
  match s.tasks[k]? with
  | some .created  => some (runTask k true refreshCall s)
  | some .sleeping => some (runTask k false refreshCall s)
  | _              => none

end LeaderElection

/-! ## The instances together

Several processes over one store; each method runs from its call to its end as one step of one instance, as the calls
to etcd in it block the event loop. -/

variable {ι : Type} [DecidableEq ι]

/-- All instances and the store they share. -/
structure Cluster (ι : Type) where
  instances : ι → Instance
  etcd      : Etcd

/-- What an instance does next, and what etcd makes of its calls. A method body runs from its call to its
    return without a step of another instance in between. -/
inductive ElectionStep (ι : Type) where
  | start (i : ι) (now : Int) (leaseCall txnCall : CallOutcome)
  | refresh (i : ι) (task : Nat) (refreshCall : CallOutcome)
  | stop (i : ι) (revokeCall : CallOutcome)

namespace Cluster

/-- The instance as its methods see it. -/
def session (c : Cluster ι) (i : ι) : Session := { c.instances i with etcd := c.etcd }

/-- The cluster after a method of the instance. -/
def after (c : Cluster ι) (i : ι) (s : Session) : Cluster ι where
  instances := Function.update c.instances i s.toInstance
  etcd      := s.etcd

/-- `is_leader()`: what the instance believes of itself. -/
def isLeader (c : Cluster ι) (i : ι) : Bool := (c.instances i).isLeader

/-- The lock the instances compete for. -/
def lockKey (keyPrefix : String) : String := EtcdClient.lockKey keyPrefix "aode"

/-- One step of one instance; the others and what they remember stay as they are. -/
def step (keyPrefix : String) (c : Cluster ι) : ElectionStep ι → Option (Cluster ι)
  | .start i now leaseCall txnCall =>
      some (c.after i ((LeaderElection.startElection keyPrefix now leaseCall txnCall).exec (c.session i)).2)
  | .refresh i task refreshCall =>
      (LeaderElection.resumeTask task refreshCall (c.session i)).map (c.after i)
  | .stop i revokeCall =>
      some (c.after i ((LeaderElection.stopElection revokeCall).exec (c.session i)).2)

/-- Freshly constructed instances, over a store in any state. -/
def Initial (c : Cluster ι) : Prop := ∀ i, c.instances i = Instance.new

/-- The runs of the instances, in any order of their steps. -/
def system (keyPrefix : String) : Lts (Cluster ι) (ElectionStep ι) := Lts.ofStep Initial (step keyPrefix)

end Cluster

end Aode
end HybridStream
