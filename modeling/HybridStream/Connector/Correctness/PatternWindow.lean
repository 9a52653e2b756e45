import HybridStream.Connector.Correctness.RestoredOperators
import HybridStream.Py.Collections

/-!
# `Connector.Correctness.PatternWindow` — three in a row within the last ten

What the Java `PatternDetector` stores is the window of the last ten entries: those it was restored with, followed by
the flags of its records (`Follows`). A restored list may be longer, and is cut with the first record. A record reports
a pattern exactly if three consecutive entries of the window are true.

The search is by index in the source, with three accesses that are only made as far as the conjunction reaches;
`search_flags` says what it finds in terms of the list, which is what the result is stated with.
-/

namespace HybridStream
namespace Connector

open Lib Py OperatorFactory

namespace PatternWindow

variable {F : Type}

/-- The flag a record carries; on any other value the logic throws. -/
def flagOf (record : Record F) : Except JavaException Bool :=
  unboxBoolean (record.getD "vehicle_detected" (.bool false))

/-- The flags of some records. -/
def flags (records : List (Record F)) : List Bool := records.filterMap (fun record => (flagOf record).toOption)

/-- The stored pattern ends as the entries do. -/
structure Follows (entries : List Bool) (op : MigratedOperator F) : Prop where
  logic   : op.logic = patternDetector
  pattern : ∃ stored : List Bool, op.currentState.getD "pattern" (.list []) = .list (stored.map .bool) ∧
    lastItems 10 stored = lastItems 10 entries

/-- What is put out for a record. -/
def output (record : Record F) (patternDetected : Bool) : Record F :=
  record.update [("pattern_detected", .bool patternDetected)]

variable {entries : List Bool} {op : MigratedOperator F} {record : Record F} {flag : Bool}

/-! ## One record

The flag of the record is appended, the list is trimmed to its last ten from the front, and three flags in a row are
looked for in what is left. -/

/-- **The trimming loop** leaves the last ten. -/
theorem trim_flags (stored : List Bool) (flag : Bool) :
    trim 10 (stored.map Value.bool ++ [.bool flag]) =
      .ok ((lastItems 10 (stored ++ [flag])).map Value.bool : List (Value F)) := by
  rw [trim_of_nonneg (by decide), ← List.map_singleton, ← List.map_append, ← List.map_drop, List.length_map]
  rfl

/-- **One record**: the window moves on by its flag, and is searched. -/
theorem Follows.exec_flatMap (h : Follows entries op) (hflag : flagOf record = .ok flag) :
    ∃ patternDetected, (MigratedOperator.flatMap record).exec op = (.ok [output record patternDetected], { op with
        flinkState := some (op.currentState.set "pattern"
          (.list ((lastItems 10 (entries ++ [flag])).map .bool))) }) ∧
      search ((lastItems 10 (entries ++ [flag])).map .bool : List (Value F)) = .ok patternDetected ∧
      (patternDetected = true ↔ [true, true, true] <:+: lastItems 10 (entries ++ [flag])) := by
  obtain ⟨stored, hstored, hlast⟩ := h.pattern
  obtain ⟨patternDetected, hfound, hiff⟩ := search_flags (F := F) (lastItems 10 (entries ++ [flag]))
  refine ⟨patternDetected, ?_, hfound, hiff⟩
  have htrim := trim_flags (F := F) stored flag
  rw [lastItems_concat_congr hlast] at htrim
  have hcopy : copyList (op.currentState.getD "pattern" (.list [])) = .ok (stored.map .bool) := by
    rw [hstored]
    rfl
  have hresult : patternDetector record op.currentState = .ok
      ⟨op.currentState.set "pattern" (.list ((lastItems 10 (entries ++ [flag])).map .bool)),
        [output record patternDetected]⟩ :=
    bind_eq_ok.mpr ⟨_, hcopy, bind_eq_ok.mpr ⟨_, hflag, bind_eq_ok.mpr ⟨_, htrim, bind_eq_ok.mpr ⟨_, hfound, rfl⟩⟩⟩⟩
  rw [MigratedOperator.exec_flatMap, h.logic, hresult]

/-- A record without a flag changes nothing. -/
theorem Follows.called_of_error (h : Follows entries op) {e : JavaException} (hflag : flagOf record = .error e) :
    called op record = op := by
  obtain ⟨stored, hstored, -⟩ := h.pattern
  have hthrown : patternDetector record op.currentState = .error e := by
    show copyList (op.currentState.getD "pattern" (.list [])) >>= _ = _
    rw [hstored]
    show flagOf record >>= _ = _
    exact bind_of_error hflag
  unfold called
  rw [MigratedOperator.exec_flatMap, h.logic, hthrown]

/-- The window with the flag, if there is one. -/
theorem Follows.step (h : Follows entries op) (record : Record F) :
    Follows (entries ++ (flagOf record).toOption.toList) (called op record) := by
  cases hflag : flagOf record with
  | ok flag =>
      obtain ⟨patternDetected, hexec, -, -⟩ := h.exec_flatMap hflag
      have hcalled := congrArg Prod.snd hexec
      change called op record = _ at hcalled
      rw [hcalled]
      refine ⟨h.logic, lastItems 10 (entries ++ [flag]), ?_, lastItems_idem 10 _⟩
      show (op.currentState.set "pattern" _).getD "pattern" _ = _
      rw [Dict.getD, Dict.get_set_self]
      rfl
  | error e =>
      rw [h.called_of_error hflag]
      simpa [Except.toOption] using h

/-! ## A stream

Trimming after every record keeps the end of all flags, those of the restored list included. A record without a flag
throws, and the state stays. -/

theorem flags_cons (record : Record F) (records : List (Record F)) :
    flags (record :: records) = (flagOf record).toOption.toList ++ flags records := by
  unfold flags
  rw [List.filterMap_cons]
  cases (flagOf record).toOption with
  | none => rfl
  | some flag => rfl

/-- **Every stream**: the stored pattern stays the end of the entries. -/
theorem run_follows (h : Follows entries op) (records : List (Record F)) :
    Follows (entries ++ flags records) (records.foldl called op) := by
  induction records generalizing entries op with
  | nil => simpa [flags] using h
  | cons record records ih =>
      rw [flags_cons, ← List.append_assoc, List.foldl_cons]
      exact ih (h.step record)

variable [JavaRuntime F]

/-- The operator restored with a state or with none, after some records. -/
def after (operatorId : String) (restoredState : Option (Record F)) (records : List (Record F)) : MigratedOperator F :=
  records.foldl called (create operatorId "PatternDetector" restoredState).opened

/-- The restored list is what there is to begin with. -/
theorem restored_follows (operatorId : String) {restoredState : Option (Record F)} {bs : List Bool}
    (h : (restoredState.getD ∅).getD "pattern" (.list []) = .list (bs.map .bool)) :
    Follows bs (create operatorId "PatternDetector" restoredState).opened where
  logic   := MigratedOperator.opened_logic _
  pattern := by
    refine ⟨bs, ?_, rfl⟩
    rw [MigratedOperator.currentState_opened rfl]
    exact h

/-- **Three in a row within the last ten.** Whatever flags the operator was restored with, and after any records: a
    further record with a flag is put out with whether three consecutive entries of the stored pattern are true, and the
    stored pattern is then the last ten of the restored flags followed by those of the records. The search by index ends
    as well, and no access is out of range. `Follows` keeps the stored list at the last ten flags, and a search by index
    that ends finds three in a row if there are any. -/
theorem three_in_a_row (operatorId : String) {restoredState : Option (Record F)} {bs : List Bool}
    (hrestored : (restoredState.getD ∅).getD "pattern" (.list []) = .list (bs.map .bool)) (past : List (Record F))
    {record : Record F} {flag : Bool} (hflag : flagOf record = .ok flag) :
    let entries := bs ++ flags (past ++ [record])
    let stored := lastItems 10 entries
    let op := after operatorId restoredState past
    ∃ patternDetected,
      ((MigratedOperator.flatMap record).exec op).1 = .ok [output record patternDetected] ∧
      (after operatorId restoredState (past ++ [record])).currentState.get "pattern" = some (.list (stored.map .bool)) ∧
      stored.length = min entries.length 10 ∧
      (patternDetected = true ↔ [true, true, true] <:+: stored) ∧
      search (stored.map .bool : List (Value F)) = .ok patternDetected := by
  intro entries stored op
  have hop : Follows (bs ++ flags past) op := run_follows (restored_follows operatorId hrestored) past
  have hentries : entries = bs ++ flags past ++ [flag] := by
    show bs ++ flags (past ++ [record]) = _
    rw [flags, List.filterMap_append, ← List.append_assoc]
    simp [hflag, flags, Except.toOption]
  obtain ⟨patternDetected, hexec, hfound, hiff⟩ := hop.exec_flatMap hflag
  rw [← hentries] at hexec hfound hiff
  refine ⟨patternDetected, congrArg Prod.fst hexec, ?_, length_lastItems 10 entries, hiff, ?_⟩
  · have hafter : after operatorId restoredState (past ++ [record]) = called op record := by
      unfold after
      rw [List.foldl_append]
      rfl
    have hcalled := congrArg Prod.snd hexec
    change called op record = _ at hcalled
    rw [hafter, hcalled]
    exact Dict.get_set_self _ _ _
  · exact hfound

/-- The record of a vehicle. -/
def vehicle : Record ℚ := Dict.ofList [("vehicle_detected", .bool true)]

/-- A state with more flags than the window takes. -/
def longState : Record ℚ := Dict.ofList [("pattern", .list ((List.replicate 12 false ++ [true]).map .bool))]

/-- The last restored flag and two vehicles are three in a row. -/
theorem three_in_a_row_vehicles :
    ((MigratedOperator.flatMap vehicle).exec (after "pattern-1" (some longState) [vehicle])).1 =
      .ok [output vehicle true] := by
  have hrestored : ((some longState).getD ∅).getD "pattern" (.list []) =
      .list ((List.replicate 12 false ++ [true]).map .bool) := rfl
  have hflag : flagOf vehicle = .ok true := rfl
  obtain ⟨patternDetected, hout, -, -, hiff, -⟩ := three_in_a_row "pattern-1" hrestored [vehicle] hflag
  have htrue : patternDetected = true := hiff.mpr (by decide)
  rw [hout, htrue]

end PatternWindow

end Connector
end HybridStream
