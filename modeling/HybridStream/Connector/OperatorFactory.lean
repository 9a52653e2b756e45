import HybridStream.Connector.Jvm

/-!
# `Connector.OperatorFactory` — the migrated operators and their processing logic

`MigratedOperator.java` and `OperatorFactory.java`. A migrated operator keeps a state map; its logic takes a
record and that map to a new map and the records put out. There is one logic for each operator type and a
pass-through for every other name. A logic that throws leaves the state as it was.

Where Java copies the record into a `HashMap` and puts entries into the copy, the model updates the record.
-/

namespace HybridStream
namespace Connector

open Lib Py

variable {F : Type}

/-! ## `MigratedOperator`

A logic with the state that Flink keeps for it: a restored state is handed over when the operator is opened, an empty
one is not. -/

/-- `OperatorLogic.ProcessResult`: the state that replaces the old one, and what is put out. -/
structure ProcessResult (F : Type) where
  newState      : Record F
  outputRecords : List (Record F)

/-- `OperatorLogic`: from the record and the current state. -/
abbrev OperatorLogic (F : Type) := Record F → Record F → Except JavaException (ProcessResult F)

/-- `MigratedOperator`; `flinkState` is `none` while it has never been written. -/
structure MigratedOperator (F : Type) where
  operatorId    : String
  operatorType  : String
  restoredState : Option (Record F)
  logic         : OperatorLogic F
  flinkState    : Option (Record F)

namespace MigratedOperator

/-- `open`: a state that is restored is handed over to Flink, an empty one is not. -/
def opened (op : MigratedOperator F) : MigratedOperator F :=
  match op.restoredState with
  | none       => op
  | some state =>
      if state.entries.isEmpty then op else { op with flinkState := some state, restoredState := none }

/-- The state a record is processed with. -/
def currentState (op : MigratedOperator F) : Record F := op.flinkState.getD ∅

/-- `flatMap`: the logic of the type is applied to the record and the current state, and the new state is written only
    if it returns. -/
def flatMap (record : Record F) : Proc JavaException (MigratedOperator F) (List (Record F)) := do
  let op ← get
  let result ← Proc.lift (op.logic record op.currentState)
  modify fun op => { op with flinkState := some result.newState }
  return result.outputRecords

/-- A call runs the logic once on the current state. -/
theorem exec_flatMap (record : Record F) (op : MigratedOperator F) :
    (flatMap record).exec op = match op.logic record op.currentState with
      | .ok result => (.ok result.outputRecords, { op with flinkState := some result.newState })
      | .error e   => (.error e, op) := by
  unfold flatMap
  rw [Proc.exec_get_bind, Proc.exec_bind, Proc.exec_lift]
  cases op.logic record op.currentState with
  | ok result => rfl
  | error e   => rfl

theorem flatMap_logic (record : Record F) (op : MigratedOperator F) :
    ((flatMap record).exec op).2.logic = op.logic := by
  rw [exec_flatMap]
  cases op.logic record op.currentState with
  | ok result => rfl
  | error e   => rfl

theorem opened_logic (op : MigratedOperator F) : op.opened.logic = op.logic := by
  unfold opened
  split
  · rfl
  · split
    · rfl
    · rfl

/-- An empty state is not handed over to Flink, which then has none: the first record finds an empty one. -/
theorem currentState_opened {op : MigratedOperator F} (h : op.flinkState = none) :
    op.opened.currentState = op.restoredState.getD ∅ := by
  unfold opened currentState
  cases hrestored : op.restoredState with
  | none => rw [h]
  | some state =>
      dsimp only [Option.getD_some]
      split_ifs with hempty
      · rw [h, Dict.entries_eq_nil.mp (List.isEmpty_iff.mp hempty)]
        rfl
      · rfl

end MigratedOperator

/-! ## Reading the maps

Numbers out of a map with a default, for a name that is missing, null or of another type. -/

section Helpers

variable [PyRuntime F]

/-- `getDouble`: the entry as a double, or the default where there is no number. -/
def getDouble (map : Record F) (key : String) (defaultValue : F) : F :=
  (doubleValue (map.getD key .none)).getD defaultValue

/-- `getInt`: the entry narrowed to an int, or the default where there is no number. -/
def getInt (map : Record F) (key : String) (defaultValue : Int) : Int :=
  (wholeValue 32 (map.getD key .none)).getD defaultValue

/-- `getLong`: the entry narrowed to a long, or the default where there is no number. -/
def getLong (map : Record F) (key : String) (defaultValue : Int) : Int :=
  (wholeValue 64 (map.getD key .none)).getD defaultValue

end Helpers

namespace OperatorFactory

variable [JavaRuntime F]

/-! ## W1

The four logics of the first workload, each from the record and the current state to the records put out and the next
state. -/

/-- `NormalizerOperator`: the value normalized by a mean and a deviation that stay as they were restored. -/
def normalizerOperator : OperatorLogic F := fun record state =>
  let mean := getDouble state "mean" 0.0
  let std := getDouble state "std" 1.0
  let raw := getDouble record "value" 0.0
  let normalized := if PyRuntime.lt 0.0 std then (raw - mean) / std else 0.0
  .ok ⟨state, [record.update [("normalized_value", .float normalized)]]⟩

/-- `FeatureAggWindow`: the value enters the window, and every call puts out its mean and extrema. -/
def featureAggWindow : OperatorLogic F := fun record state => do
  -- the defensive copy throws on null and on what is no list
  let window ← copyList (state.getD "window" (.list []))
  let value := getDouble record "value" 0.0
  let windowSize := getInt state "window_size" 100
  -- `while (window.size() > windowSize) window.remove(0)`
  let window ← trim windowSize (window ++ [.float value])
  let newState := state.set "window" (.list window)
  -- an element that is no `Double` throws only as it is unboxed
  let values ← window.mapM unboxDouble
  let sum := JavaRuntime.streamSum values
  let output ← mapOf
    [ ("sum",   .float sum),
      ("count", .int window.length),
      ("min",   .float (streamMin values)),
      ("max",   .float (streamMax values)),
      ("avg",   .float (if window.isEmpty then 0.0 else sum / doubleOf window.length)) ]
  .ok ⟨newState, [output]⟩

/-- `MultiStreamJoin`: the record is buffered under its key, and put out with the number of keys there are. -/
def multiStreamJoin : OperatorLogic F := fun record state => do
  let key ← castString (record.getD "join_key" (.str "unknown"))
  let joinBuffer ← castMap (state.getD "join_buffer" (.dict []))
  -- no copy here: the buffer of the old state is written to, and replaced by itself
  let joinBuffer := setEntry (ofString key) record.toValue joinBuffer
  let newState := state.set "join_buffer" (.dict joinBuffer)
  .ok ⟨newState, [record.update [("joined_records", .int joinBuffer.length)]]⟩

/-- `BinaryClassifier`: the score of the record against the threshold of the state, which is not changed. -/
def binaryClassifier : OperatorLogic F := fun record state =>
  let score := getDouble record "score" 0.0
  let threshold := getDouble state "threshold" 0.5
  let positive := PyRuntime.le threshold score
  .ok ⟨state, [record.update
    [ ("label",      .int (if positive then 1 else 0)),
      ("confidence", .float (if positive then score else 1.0 - score)) ]]⟩

/-! ## W2

The three logics of the second workload. The pattern detector searches a list by index, which is followed index by
index. -/

/-- `VehicleDetector`: a detection is read off the record alone. -/
def vehicleDetector : OperatorLogic F := fun record state =>
  let occupancy := getDouble record "occupancy" 0.0
  let speed := getDouble record "speed" 0.0
  let detected := PyRuntime.lt 0.1 occupancy && PyRuntime.lt 0.0 speed
  .ok ⟨state, [record.update
    [ ("vehicle_detected", .bool detected),
      ("confidence_score", .float (occupancy * (speed / 120.0))) ]]⟩

/-- `counts.merge(zone, 1, Integer::sum)`; only an `Integer` can be added to. -/
def mergeCount (zone : Value F) (counts : List (Value F × Value F)) :
    Except JavaException (List (Value F × Value F)) :=
  match (lookupEntry zone counts).getD .none with
  | .none  => .ok (setEntry zone (.int 1) counts)
  | .int i =>
      if narrow 32 i = i then .ok (setEntry zone (.int (narrow 32 (i + 1))) counts) else .error .classCast
  | _      => .error .classCast

/-- `ZoneAggregator`: detections are counted by zone, and every call puts the count of its zone out. -/
def zoneAggregator : OperatorLogic F := fun record state => do
  let zone ← castString (record.getD "zone_id" (.str "unknown"))
  let counts ← castMap (state.getD "zone_counts" (.dict []))
  let detected ← unboxBoolean (record.getD "vehicle_detected" (.bool false))
  let counts ← (if detected then mergeCount (ofString zone) counts else .ok counts)
  let newState := state.set "zone_counts" (.dict counts)
  -- `Map.of` takes no null
  let output ← mapOf
    [ ("zone_id",       ofString zone),
      ("vehicle_count", (lookupEntry (ofString zone) counts).getD (.int 0)),
      ("timestamp",     record.getD "timestamp" (.int 0)) ]
  .ok ⟨newState, [output]⟩

/-- `pattern.get(i) && pattern.get(i+1) && pattern.get(i+2)`; an element is unboxed only where `&&` reaches it. -/
def threeAt (pattern : List (Value F)) (i : Nat) : Except JavaException Bool := do
  if ← unboxBoolean (← listGet pattern i) then
    if ← unboxBoolean (← listGet pattern (i + 1)) then unboxBoolean (← listGet pattern (i + 2)) else .ok false
  else .ok false

/-- `for (int i = 0; i <= pattern.size() - 3; i++)`, from the index `i` on. -/
def searchFrom (pattern : List (Value F)) (i : Nat) : Except JavaException Bool :=
  if _h : (i : Int) ≤ pattern.length - 3 then do
    if ← threeAt pattern i then .ok true else searchFrom pattern (i + 1)
  else .ok false
termination_by pattern.length - i

/-- `patternDetected`, found index by index, from the first; fewer than three entries are not searched. -/
def search (pattern : List (Value F)) : Except JavaException Bool :=
  if pattern.length ≥ 3 then searchFrom pattern 0 else .ok false

omit [JavaRuntime F] in
/-- Within a list of flags, the accesses read three of them. -/
theorem threeAt_flags {xs rest : List Bool} {i : Nat} {x y z : Bool} (h : xs.drop i = x :: y :: z :: rest) :
    threeAt (xs.map Value.bool : List (Value F)) i = .ok (x && y && z) := by
  have hget : ∀ j, (xs.map Value.bool : List (Value F))[i + j]? =
      ((x :: y :: z :: rest).map Value.bool : List (Value F))[j]? := by
    intro j
    rw [← h, List.map_drop, List.getElem?_drop]
  have hx : listGet (xs.map Value.bool : List (Value F)) i = .ok (.bool x) := by
    unfold listGet
    rw [← Nat.add_zero i, hget]
    rfl
  have hy : listGet (xs.map Value.bool : List (Value F)) (i + 1) = .ok (.bool y) := by
    unfold listGet
    rw [hget]
    rfl
  have hz : listGet (xs.map Value.bool : List (Value F)) (i + 2) = .ok (.bool z) := by
    unfold listGet
    rw [hget]
    rfl
  unfold threeAt
  rw [hx, hy, hz]
  cases x <;> cases y <;> cases z <;> rfl

omit [JavaRuntime F] in
/-- The loop from an index on finds what is there in the rest of the list: no access is out of range. -/
theorem searchFrom_flags (xs : List Bool) (i : Nat) :
    ∃ b, searchFrom (xs.map Value.bool : List (Value F)) i = .ok b ∧
      (b = true ↔ [true, true, true] <:+: xs.drop i) := by
  by_cases hle : (i : Int) ≤ (xs.map Value.bool : List (Value F)).length - 3
  -- three entries from here on: they are tried, and then those from the next one on
  · have hlength : 3 ≤ (xs.drop i).length := by
      rw [List.length_map] at hle
      rw [List.length_drop]
      omega
    match hdrop : xs.drop i, hlength with
    | x :: y :: z :: rest, _ =>
        obtain ⟨b, hb, hiff⟩ := searchFrom_flags xs (i + 1)
        have hnext : xs.drop (i + 1) = y :: z :: rest := by
          rw [← List.drop_drop, hdrop]
          rfl
        have hstep : searchFrom (xs.map Value.bool : List (Value F)) i =
            if x && y && z then .ok true else searchFrom (xs.map Value.bool : List (Value F)) (i + 1) := by
          rw [searchFrom, dif_pos hle, threeAt_flags hdrop]
          rfl
        have hhere : [true, true, true] <+: x :: y :: z :: rest ↔ (x && y && z) = true := by
          cases x <;> cases y <;> cases z <;> simp
        rw [hnext] at hiff
        rw [hstep, List.infix_cons_iff, hhere, ← hiff]
        split_ifs with hthree
        · exact ⟨true, rfl, iff_of_true rfl (Or.inl hthree)⟩
        · exact ⟨b, hb, (or_iff_right hthree).symm⟩
  · refine ⟨false, ?_, iff_of_false nofun fun hinfix => ?_⟩
    -- fewer than three are left, which is no room for three in a row
    · rw [searchFrom, dif_neg hle]
    · have hlength := hinfix.length_le
      rw [List.length_map] at hle
      rw [List.length_drop] at hlength
      simp only [List.length_cons, List.length_nil] at hlength
      omega
termination_by xs.length - i
decreasing_by
  rw [List.length_map] at hle
  omega

omit [JavaRuntime F] in
/-- **Looking for three in a row** in a list of flags. -/
theorem search_flags (xs : List Bool) :
    ∃ b, search (xs.map Value.bool : List (Value F)) = .ok b ∧ (b = true ↔ [true, true, true] <:+: xs) := by
  unfold search
  by_cases h : (xs.map Value.bool : List (Value F)).length ≥ 3
  · rw [if_pos h]
    exact searchFrom_flags xs 0
  · rw [if_neg h]
    refine ⟨false, rfl, iff_of_false nofun fun hinfix => h ?_⟩
    rw [List.length_map]
    exact hinfix.length_le

/-- `PatternDetector`: the flag of the record enters the last ten, among which three in a row are looked for. -/
def patternDetector : OperatorLogic F := fun record state => do
  let pattern ← copyList (state.getD "pattern" (.list []))
  let detected ← unboxBoolean (record.getD "vehicle_detected" (.bool false))
  -- keep the last ten
  let pattern ← trim 10 (pattern ++ [.bool detected])
  let patternDetected ← search pattern
  let newState := state.set "pattern" (.list pattern)
  .ok ⟨newState, [record.update [("pattern_detected", .bool patternDetected)]]⟩

/-! ## W3

The four logics of the third workload. -/

/-- `RiskCheck`: the exposure of the record against the limit of the state, which is not changed. -/
def riskCheck : OperatorLogic F := fun record state =>
  let exposure := getDouble record "exposure" 0.0
  let limit := getDouble state "risk_limit" 1000000.0
  let exceeded := PyRuntime.lt limit exposure
  .ok ⟨state, [record.update
    [ ("risk_exceeded",  .bool exceeded),
      ("exposure_ratio", .float (if PyRuntime.lt 0.0 limit then exposure / limit else 0.0)) ]]⟩

/-- `AnomalyDetector`: the score is by the mean and the deviation before the record, which then take it in. -/
def anomalyDetector : OperatorLogic F := fun record state =>
  let value := getDouble record "value" 0.0
  let mean := getDouble state "ewma_mean" 0.0
  let stddev := getDouble state "ewma_std" 1.0
  let z := if PyRuntime.lt 0.0 stddev then pyAbs (value - mean) / stddev else 0.0
  let anomaly := PyRuntime.lt 3.0 z
  let alpha : F := 0.2
  let newMean := (1.0 - alpha) * mean + alpha * value
  let newStd := (1.0 - alpha) * stddev + alpha * pyAbs (value - newMean)
  let newState := state.update [("ewma_mean", .float newMean), ("ewma_std", .float newStd)]
  .ok ⟨newState, [record.update [("is_anomaly", .bool anomaly), ("z_score", .float z)]]⟩

/-- `StatAggregator`: count, sum and squared deviations take the value in, and every call puts the statistics out. -/
def statAggregator : OperatorLogic F := fun record state => do
  let value := getDouble record "value" 0.0
  let count := narrow 64 (getLong state "count" 0 + 1)
  let sum := getDouble state "sum" 0.0 + value
  let mean := sum / doubleOf count
  -- Welford's variance, with the mean before this record
  let m2 := getDouble state "m2" 0.0
  let delta := value - (sum - value) / doubleOf (max 1 (narrow 64 (count - 1)))
  let m2 := m2 + delta * (value - mean)
  let newState := state.update [("count", .int count), ("sum", .float sum), ("m2", .float m2)]
  let output ← mapOf
    [ ("count", .int count), ("sum", .float sum), ("mean", .float mean),
      ("variance", .float (if 1 < count then m2 / doubleOf (narrow 64 (count - 1)) else 0.0)) ]
  .ok ⟨newState, [output]⟩

/-- `ComplianceLogger`: records are counted, and put out with their number. -/
def complianceLogger : OperatorLogic F := fun record state => do
  -- the event type is cast and then not used
  let _ ← castString (record.getD "event_type" (.str "unknown"))
  let logged := narrow 64 (getLong state "logged_count" 0 + 1)
  let newState := state.set "logged_count" (.int logged)
  .ok ⟨newState, [record.update [("compliance_logged", .bool true), ("log_sequence", .int logged)]]⟩

/-! ## The factory

The logic by the name of the type; under an unknown name records pass through and the state stays. -/

/-- The logic `create` selects, by the name of the type; the last case is the one for any other name. -/
def logicFor : String → OperatorLogic F
  | "NormalizerOperator" => normalizerOperator
  | "FeatureAggWindow"   => featureAggWindow
  | "MultiStreamJoin"    => multiStreamJoin
  | "BinaryClassifier"   => binaryClassifier
  | "VehicleDetector"    => vehicleDetector
  | "ZoneAggregator"     => zoneAggregator
  | "PatternDetector"    => patternDetector
  | "RiskCheck"          => riskCheck
  | "AnomalyDetector"    => anomalyDetector
  | "StatAggregator"     => statAggregator
  | "ComplianceLogger"   => complianceLogger
  | _                    => fun record state => .ok ⟨state, [record]⟩

/-- `create`: nothing has been processed, so the state is the one that was restored. -/
def create (operatorId operatorType : String) (restoredState : Option (Record F)) : MigratedOperator F where
  operatorId    := operatorId
  operatorType  := operatorType
  restoredState := restoredState
  logic         := logicFor operatorType
  flinkState    := none

end OperatorFactory

end Connector
end HybridStream
