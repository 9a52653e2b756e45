import HybridStream.Aode.Placement
import HybridStream.Lib.Lts
import HybridStream.Py.MessagePack

/-!
# `Aode.PlacementStore` — the placement record over the store

`aode/etcd/client.py`, what of `EtcdClient` the placement uses, and the methods of `PlacementState` over it. The
etcd3 client is a map from keys to values, both bytes. An operator's tier is stored under a key put together from the
client's prefix and the operator type, and found again by a scan of the keys and a strip.

The client's methods are plain ones: they do their work when they are called, and hand back an object that
`PlacementState` awaits. `await` refuses what is no coroutine.
-/

namespace HybridStream
namespace Aode

open Lib Py

/-! ## Awaiting

What is handed to `await` need not be awaitable: the client's methods are plain ones in the one class and coroutines
in the other, and awaiting what a plain one returns raises. -/

/-- What a call hands to `await`: a coroutine, with the way it will end, or an object of a type that is none. -/
inductive Returned (α : Type) where
  | coroutine (outcome : Except PyError α)
  | plain (typeName : String) (value : α)

/-- `await`: of a coroutine it gives the outcome, and of anything else it raises. -/
def Returned.await {α : Type} : Returned α → Except PyError α
  | .coroutine outcome => outcome
  | .plain typeName _  => .error ⟨.typeError, s!"object {typeName} can't be used in 'await' expression"⟩

/-! ## `EtcdClient`

Its methods on keys, with the prefix of the deployment. Reading a dictionary strips the prefix and the slashes behind
it from each key it finds. -/

/-- The keys and values of the etcd3 client. -/
abbrev EtcdStore := Dict (List UInt8) (List UInt8)

namespace EtcdClient

/-- `bytes.decode()`; the text of its exception is not modelled. -/
def decode (bytes : List UInt8) : Except PyError String :=
  match MessagePack.ofUtf8 bytes with
  | some s => .ok s
  | none   => .error ⟨.valueError, "invalid utf-8"⟩

/-- The bytes `decode` reads are those of the text it returns. -/
theorem utf8_of_decode {bytes : List UInt8} {s : String} (h : decode bytes = .ok s) : MessagePack.utf8 s = bytes := by
  unfold decode at h
  split at h
  · rename_i hs
    cases h
    exact MessagePack.utf8_of_ofUtf8 hs
  · cases h

/-- `f"{self._prefix}{key}"`, as the etcd3 client encodes it. -/
def fullKey (keyPrefix key : String) : List UInt8 := MessagePack.utf8 (keyPrefix ++ key)

/-- `put`: a plain method, so the store is written before anybody awaits. -/
def put (keyPrefix key value : String) (store : EtcdStore) : Returned Unit × EtcdStore :=
  (.plain "NoneType" (), store.set (fullKey keyPrefix key) (MessagePack.utf8 value))

/-- `delete`: a plain method as well, for which a key that is missing is no error. -/
def delete (keyPrefix key : String) (store : EtcdStore) : Returned Unit × EtcdStore :=
  (.plain "NoneType" (), store.pop (fullKey keyPrefix key))

/-- `full_key[len(full_prefix):].lstrip("/")`: what is left of a key behind the prefix. -/
def suffixOf (fullPrefix fullKey : String) : String :=
  String.ofList ((fullKey.toList.drop fullPrefix.length).dropWhile (fun c => c = '/'))

/-- One turn of the loop of `get_dict`. -/
def collect (fullPrefix : String) (kvDict : Dict String String) (e : List UInt8 × List UInt8) :
    Except PyError (Dict String String) := do
  let suffix := suffixOf fullPrefix (← decode e.1)
  if suffix = "" then .ok kvDict else do .ok (kvDict.set suffix (← decode e.2))

/-- The dictionary `get_dict` builds from the keys with the prefix. -/
def readDict (keyPrefix pre : String) (store : EtcdStore) : Except PyError (Dict String String) :=
  (store.entries.filter (fun e => (fullKey keyPrefix pre).isPrefixOf e.1)).foldlM (collect (keyPrefix ++ pre)) ∅

/-- `get_dict`: a plain method that reads all keys under the prefix. -/
def getDict (keyPrefix pre : String) (store : EtcdStore) : Except PyError (Returned (Dict String String)) := do
  .ok (.plain "dict" (← readDict keyPrefix pre store))

end EtcdClient

/-! ## `PlacementState` over the store

The methods of the record with the store they write to, made one after the other. -/

/-- `f"/placement/operators/{operator_type}"`: the key of an operator, before the prefix. -/
def operatorKey (operatorType : String) : String := "/placement/operators/" ++ operatorType

/-- A `PlacementState` and the store its client writes to. -/
structure StoredPlacement where
  state : PlacementState
  store : EtcdStore

/-- A call of a method of `PlacementState`. -/
inductive PlacementCall where
  | load
  | update (operatorType tierId : String)
  | remove (operatorType : String)
  deriving DecidableEq

namespace StoredPlacement

/-- The call, made with nothing else under way: how it ends and what it leaves. -/
def call (keyPrefix : String) (s : StoredPlacement) : PlacementCall → Except PyError Unit × StoredPlacement
  | .load =>
      let placementData := EtcdClient.getDict keyPrefix "/placement/operators" s.store >>= Returned.await
      let (outcome, state) := s.state.loadFromEtcd placementData
      (outcome, { s with state := state })
  | .update operatorType tierId =>
      let (returned, store) := EtcdClient.put keyPrefix (operatorKey operatorType) tierId s.store
      let (outcome, state) := s.state.updateOperatorPlacement operatorType tierId returned.await
      (outcome, ⟨state, store⟩)
  | .remove operatorType =>
      let (returned, store) := EtcdClient.delete keyPrefix (operatorKey operatorType) s.store
      let (outcome, state) := s.state.removeOperator operatorType returned.await
      (outcome, ⟨state, store⟩)

/-- A history of calls: how each of them ends and what they leave. -/
def calls (keyPrefix : String) : List PlacementCall → StoredPlacement → List (Except PyError Unit) × StoredPlacement
  | [], s      => ([], s)
  | c :: cs, s =>
      let (outcome, s₁) := s.call keyPrefix c
      let (outcomes, s₂) := calls keyPrefix cs s₁
      (outcome :: outcomes, s₂)

end StoredPlacement

/-! ## Calls under way

The methods of one `PlacementState` as tasks, over a client whose operations suspend. A method takes the lock, does what
it does before its `await`, and gives the lock back when the client has answered. The lock is an `asyncio.Lock`: a task
that finds it taken, or others waiting for it, waits behind them. -/

namespace StoredPlacement

/-- What a method does under the lock before it awaits the client. -/
def entered (s : StoredPlacement) : PlacementCall → StoredPlacement
  | .load => s
  | .update operatorType tierId => { s with state := ⟨s.state.cache.set operatorType tierId⟩ }
  | .remove operatorType => { s with state := ⟨s.state.cache.pop operatorType⟩ }

/-- What happens when the client answers: its operation takes effect and the method goes on, or the operation raises
    without effect and the method with it. -/
def answered (keyPrefix : String) (s : StoredPlacement) : PlacementCall → Except PyError Unit →
    Except PyError Unit × StoredPlacement
  | _, .error e => (.error e, s)
  | .load, .ok () =>
      let (outcome, state) := s.state.loadFromEtcd (EtcdClient.readDict keyPrefix "/placement/operators" s.store)
      (outcome, { s with state := state })
  | .update operatorType tierId, .ok () =>
      (.ok (), { s with store := (EtcdClient.put keyPrefix (operatorKey operatorType) tierId s.store).2 })
  | .remove operatorType, .ok () =>
      (.ok (), { s with store := (EtcdClient.delete keyPrefix (operatorKey operatorType) s.store).2 })

/-- **The tie to the methods**: with no other task under way, a method up to its `await` and then what follows it
    come to the method as a whole. -/
theorem answered_entered (keyPrefix : String) (s : StoredPlacement) (c : PlacementCall)
    (outcome : Except PyError Unit) :
    (((s.entered c).answered keyPrefix c outcome).1, ((s.entered c).answered keyPrefix c outcome).2.state) =
      match c with
      | .load =>
          s.state.loadFromEtcd (outcome >>= fun _ => EtcdClient.readDict keyPrefix "/placement/operators" s.store)
      | .update operatorType tierId => s.state.updateOperatorPlacement operatorType tierId outcome
      | .remove operatorType => s.state.removeOperator operatorType outcome := by
  cases c <;> cases outcome <;> rfl

end StoredPlacement

/-- The operator a call writes; a load writes none. -/
def PlacementCall.written : PlacementCall → List String
  | .load => []
  | .update operatorType _ => [operatorType]
  | .remove operatorType => [operatorType]

/-- The tasks of one `PlacementState`. The last two fields are history, which no step reads: what the lock's last taker
    found, and the operators the calls that returned have written. -/
structure PlacementTasks where
  current : StoredPlacement
  holder  : Option PlacementCall
  waiting : List PlacementCall
  found   : StoredPlacement
  written : List String

/-- What moves the tasks: their calls, the lock, and the client. -/
inductive PlacementEvent where
  /-- A method is called. -/
  | call (c : PlacementCall)
  /-- The first task in the queue takes the lock. -/
  | resume
  /-- The client answers the task that has the lock. -/
  | answer (outcome : Except PyError Unit)

namespace PlacementTasks

/-- A task takes the lock, and runs up to its `await` of the client. -/
def enter (s : PlacementTasks) (c : PlacementCall) : PlacementTasks :=
  { s with current := s.current.entered c, holder := some c, found := s.current }

/-- The task that had the lock ends and gives it back. -/
def leave (s : PlacementTasks) (c : PlacementCall) : Except PyError Unit × StoredPlacement → PlacementTasks
  | (.ok (), current)   => { s with current := current, holder := none, written := c.written ++ s.written }
  | (.error _, current) => { s with current := current, holder := none }

/-- One step of the tasks: a call takes the lock at once if it is free and nobody waits, and otherwise gets into the
    queue. -/
def step (keyPrefix : String) (s : PlacementTasks) : PlacementEvent → Option PlacementTasks
  | .call c =>
      if s.holder = none ∧ s.waiting = [] then some (s.enter c) else some { s with waiting := s.waiting ++ [c] }
  | .resume =>
      match s.holder, s.waiting with
      | none, c :: waiting => some ({ s with waiting := waiting }.enter c)
      | _, _ => none
  | .answer outcome => s.holder.map (fun c => s.leave c (s.current.answered keyPrefix c outcome))

/-- Nothing is placed and no call is under way; the store may hold anything. -/
def Initial (s : PlacementTasks) : Prop :=
  s.current.state = ⟨∅⟩ ∧ s.holder = none ∧ s.waiting = [] ∧ s.written = []

/-- The tasks as a transition system. -/
def tasks (keyPrefix : String) : Lts PlacementTasks PlacementEvent := Lts.ofStep Initial (step keyPrefix)

end PlacementTasks

end Aode
end HybridStream
