import HybridStream.Aode.PlacementStore

/-!
# `Aode.Correctness.PlacementRestart` — the placement does not survive a restart

The methods of `EtcdClient` that `PlacementState` awaits are no coroutines. An update or a removal changes the cache
and the store, and then raises a `TypeError`; a load raises one before it has changed anything. So no call returns,
and a new process starts with an empty placement whatever the store holds.

The result is over every history of calls and every prefix of keys, and needs no assumption about the store: what
raises is the `await` itself. A store that holds placements of an earlier process changes nothing, as the load raises
before it has looked at them.
-/

namespace HybridStream
namespace Aode
namespace StoredPlacement

open Lib Py

/-- Nothing is placed and the store is empty. -/
def new : StoredPlacement := ⟨⟨∅⟩, ∅⟩

/-- A new `PlacementState` over the same store. -/
def restarted (s : StoredPlacement) : StoredPlacement := { s with state := ⟨∅⟩ }

/-- The placement survives a restart after a history of calls: none of them raises, and the new process loads the
    placement the old one had. -/
def Survives (keyPrefix : String) (history : List PlacementCall) : Prop :=
  (∀ outcome ∈ (new.calls keyPrefix history).1, outcome = .ok ()) ∧
  ∃ s, (new.calls keyPrefix history).2.restarted.call keyPrefix .load = (.ok (), s) ∧
    ∀ op, s.state.getCurrentPlacement.get op =
      (new.calls keyPrefix history).2.state.getCurrentPlacement.get op

/-- Every call raises. -/
theorem call_raises (keyPrefix : String) (s : StoredPlacement) (c : PlacementCall) :
    ∃ e, (s.call keyPrefix c).1 = .error e := by
  cases c with
  | update operatorType tierId => exact ⟨_, rfl⟩
  | remove operatorType => exact ⟨_, rfl⟩
  | load =>
      unfold call EtcdClient.getDict
      cases EtcdClient.readDict keyPrefix "/placement/operators" s.store with
      | error e => exact ⟨e, rfl⟩
      | ok data => exact ⟨_, rfl⟩

theorem calls_ok_iff (keyPrefix : String) (history : List PlacementCall) (s : StoredPlacement) :
    (∀ outcome ∈ (s.calls keyPrefix history).1, outcome = .ok ()) ↔ history = [] := by
  constructor
  · intro hok
    cases history with
    | nil => rfl
    | cons c history =>
        obtain ⟨e, he⟩ := call_raises keyPrefix s c
        have hcall : (s.call keyPrefix c).1 = .ok () := hok _ List.mem_cons_self
        rw [hcall] at he
        cases he
  · rintro rfl
    exact fun outcome h => absurd h List.not_mem_nil

/-- **The placement never survives a restart**: the load raises in the new process, whatever was called before. Even if
    nobody minds that, a call made before has raised as well, so that only the history without calls is left. Every call
    awaits the result of a plain method, which raises whatever the store has answered. -/
theorem restart_never_survives (keyPrefix : String) (history : List PlacementCall) :
    ¬ Survives keyPrefix history ∧
    (((∀ outcome ∈ (new.calls keyPrefix history).1, outcome = .ok ()) ∧
      ∀ op, ((new.calls keyPrefix history).2.restarted.call keyPrefix .load).2.state.getCurrentPlacement.get op =
        (new.calls keyPrefix history).2.state.getCurrentPlacement.get op) ↔ history = []) := by
  constructor
  · rintro ⟨-, s, hload, -⟩
    obtain ⟨e, he⟩ := call_raises keyPrefix (new.calls keyPrefix history).2.restarted .load
    rw [hload] at he
    cases he
  · rw [calls_ok_iff]
    constructor
    · exact fun h => h.1
    · rintro rfl
      exact ⟨rfl, fun op => rfl⟩

/-- One operator is placed: the call raises, though it has written to the cache and to the store; and the new process
    does not find the operator. -/
theorem placement_lost :
    (new.calls "/aode/" [.update "RiskCheck" "cloud"]).1 =
      [.error ⟨.typeError, "object NoneType can't be used in 'await' expression"⟩] ∧
    (new.calls "/aode/" [.update "RiskCheck" "cloud"]).2.state.getCurrentPlacement.get "RiskCheck" = some "cloud" ∧
    ((new.calls "/aode/" [.update "RiskCheck" "cloud"]).2.restarted.call "/aode/" .load).2.state.getCurrentPlacement.get
      "RiskCheck" = none ∧
    ¬ Survives "/aode/" [.update "RiskCheck" "cloud"] := by
  refine ⟨rfl, rfl, by decide +kernel, fun h => ?_⟩
  have hcall := h.1 (.error ⟨.typeError, "object NoneType can't be used in 'await' expression"⟩)
    (List.mem_singleton.mpr rfl)
  cases hcall

end StoredPlacement
end Aode
end HybridStream
