import Mathlib.Data.Set.List
import HybridStream.Connector.Correctness.Mirror
import HybridStream.Connector.Correctness.SchemaVersions

/-!
# `Connector.Correctness.RestoredOperators` — which restored operators throw

A restored state has correctly typed values or nulls under the names its logic reads, and so have the records
(`Typed`). The logics read numbers through getters that take a null for the default; what they read with
`getOrDefault` throws on a null that is there. `Condition` says for each type which states and records are safe, and
`neverThrows_iff` that these are exactly the sequences on which no call throws.
-/

namespace HybridStream
namespace Connector

open Lib Py Workloads

variable {F : Type}

/-! ## Typed maps

A state out of a translation has values of the types that the schema declares, or null. What a logic reads with a
default of the right type is then of the right type, or the null that is there. -/

/-- What a logic reads a field as. -/
inductive FieldType where
  | number | text | flag | numbers | flags | mapping | counts | anything

namespace FieldType

def isFloat : Value F → Bool
  | .float _ => true
  | _        => false

def isBool : Value F → Bool
  | .bool _ => true
  | _       => false

def isInt : Value F → Bool
  | .int _ => true
  | _      => false

/-- The value is of the type. -/
def holds : FieldType → Value F → Bool
  | number, .int _     => true
  | number, .float _   => true
  | text, .str _       => true
  | flag, .bool _      => true
  | numbers, .list xs  => xs.all isFloat
  | flags, .list xs    => xs.all isBool
  | mapping, .dict _   => true
  | counts, .dict kvs  => kvs.all (fun e => isInt e.2)
  | anything, _        => true
  | _, _               => false

theorem eq_of_holds_text {v : Value F} (h : text.holds v = true) : ∃ s, v = .str s := by
  cases v <;> first | exact ⟨_, rfl⟩ | cases h

theorem eq_of_holds_flag {v : Value F} (h : flag.holds v = true) : ∃ b, v = .bool b := by
  cases v <;> first | exact ⟨_, rfl⟩ | cases h

theorem eq_of_holds_mapping {v : Value F} (h : mapping.holds v = true) : ∃ kvs, v = .dict kvs := by
  cases v <;> first | exact ⟨_, rfl⟩ | cases h

theorem eq_of_holds_counts {v : Value F} (h : counts.holds v = true) :
    ∃ kvs, v = .dict kvs ∧ ∀ e ∈ kvs, ∃ i, e.2 = .int i := by
  cases v <;> first | cases h | skip
  rename_i kvs
  refine ⟨kvs, rfl, fun e he => ?_⟩
  have hint := List.all_eq_true.mp h e he
  obtain ⟨k, v⟩ := e
  cases v <;> first | exact ⟨_, rfl⟩ | cases hint

/-- A list whose items are all made by `f`. -/
theorem eq_map_of_all {α : Type} {f : α → Value F} {p : Value F → Bool} (hp : ∀ v, p v = true → ∃ x, f x = v)
    {vs : List (Value F)} (h : vs.all p = true) : ∃ xs : List α, vs = xs.map f := by
  have hrange : vs ∈ Set.range (List.map f) := by
    rw [Set.range_list_map]
    exact fun v hv => hp v (List.all_eq_true.mp h v hv)
  obtain ⟨xs, hxs⟩ := hrange
  exact ⟨xs, hxs.symm⟩

theorem eq_of_isFloat (v : Value F) (h : isFloat v = true) : ∃ x, Value.float x = v := by
  cases v <;> first | exact ⟨_, rfl⟩ | cases h

theorem eq_of_isBool (v : Value F) (h : isBool v = true) : ∃ b, Value.bool b = v := by
  cases v <;> first | exact ⟨_, rfl⟩ | cases h

theorem eq_of_holds_numbers {v : Value F} (h : numbers.holds v = true) :
    ∃ xs : List F, v = .list (xs.map .float) := by
  cases v <;> first | cases h | skip
  obtain ⟨xs, rfl⟩ := eq_map_of_all eq_of_isFloat h
  exact ⟨xs, rfl⟩

theorem eq_of_holds_flags {v : Value F} (h : flags.holds v = true) :
    ∃ xs : List Bool, v = .list (xs.map .bool) := by
  cases v <;> first | cases h | skip
  obtain ⟨xs, rfl⟩ := eq_map_of_all eq_of_isBool h
  exact ⟨xs, rfl⟩

theorem holds_numbers (xs : List F) : numbers.holds (.list (xs.map .float) : Value F) = true := by
  simp [holds, isFloat]

theorem holds_flags (xs : List Bool) : flags.holds (.list (xs.map .bool) : Value F) = true := by
  simp [holds, isBool]

theorem holds_counts {kvs : List (Value F × Value F)} (h : ∀ e ∈ kvs, ∃ i, e.2 = .int i) :
    counts.holds (.dict kvs) = true := by
  refine List.all_eq_true.mpr fun e he => ?_
  obtain ⟨i, hi⟩ := h e he
  rw [hi]
  rfl

end FieldType

/-- The values under the given names are null or of the given types. -/
def Typed (fields : List (String × FieldType)) (map : Record F) : Prop :=
  ∀ field ∈ fields, ∀ v, map.get field.1 = some v → v = .none ∨ field.2.holds v = true

/-- What is read with a default of the type is of the type, but for a null that is there. -/
theorem Typed.getD_cases {fields : List (String × FieldType)} {map : Record F} (h : Typed fields map) {name : String}
    {type : FieldType} (hfield : (name, type) ∈ fields) (dflt : Value F) (hnull : .none ≠ dflt)
    (hdflt : type.holds dflt = true) :
    (map.get name = some .none ∧ map.getD name dflt = .none) ∨
      (map.get name ≠ some .none ∧ type.holds (map.getD name dflt) = true) := by
  by_cases hnone : map.getD name dflt = .none
  · exact Or.inl ⟨(Dict.getD_eq_iff_of_ne hnull).mp hnone, hnone⟩
  · refine Or.inr ⟨fun hget => hnone ((Dict.getD_eq_iff_of_ne hnull).mpr hget), ?_⟩
    unfold Dict.getD at hnone ⊢
    cases hget : map.get name with
    | none => exact hdflt
    | some v =>
        rw [hget] at hnone
        exact (h _ hfield v hget).resolve_left hnone

/-- Writing a value of the right type, if the name has one. -/
theorem Typed.set {fields : List (String × FieldType)} {map : Record F} (h : Typed fields map) {name : String}
    {v : Value F} (hv : ∀ field ∈ fields, field.1 = name → field.2.holds v = true) : Typed fields (map.set name v) := by
  intro field hfield w hget
  rw [Dict.get_set] at hget
  split_ifs at hget with hname
  · cases hget
    exact Or.inr (hv field hfield hname)
  · exact h field hfield w hget

/-! ## What the logics read

For each type the state fields and the record fields that its logic reads, and the condition on both under which it
does not throw. What one record does to a typed state is one statement, `Settles`, proved type by type. -/

/-- The state fields the logic of a type reads. -/
def stateFields : OperatorType → List (String × FieldType)
  | .normalizerOperator => [("mean", .number), ("std", .number)]
  | .featureAggWindow   => [("window", .numbers), ("window_size", .number)]
  | .multiStreamJoin    => [("join_buffer", .mapping)]
  | .binaryClassifier   => [("threshold", .number)]
  | .vehicleDetector    => []
  | .zoneAggregator     => [("zone_counts", .counts)]
  | .patternDetector    => [("pattern", .flags)]
  | .riskCheck          => [("risk_limit", .number)]
  | .anomalyDetector    => [("ewma_mean", .number), ("ewma_std", .number)]
  | .statAggregator     => [("count", .number), ("sum", .number), ("m2", .number)]
  | .complianceLogger   => [("logged_count", .number)]

/-- The fields of a record it reads. -/
def recordFields : OperatorType → List (String × FieldType)
  | .normalizerOperator => [("value", .number)]
  | .featureAggWindow   => [("value", .number)]
  | .multiStreamJoin    => [("join_key", .text)]
  | .binaryClassifier   => [("score", .number)]
  | .vehicleDetector    => [("occupancy", .number), ("speed", .number)]
  | .zoneAggregator     => [("zone_id", .text), ("vehicle_detected", .flag), ("timestamp", .anything)]
  | .patternDetector    => [("vehicle_detected", .flag)]
  | .riskCheck          => [("exposure", .number)]
  | .anomalyDetector    => [("value", .number)]
  | .statAggregator     => [("value", .number)]
  | .complianceLogger   => [("event_type", .text)]

variable [JavaRuntime F]

/-- The logic that is created for the type. -/
def logicOf (F : Type) [JavaRuntime F] (t : OperatorType) : OperatorLogic F :=
  OperatorFactory.logicFor (t.operator F).operatorType

/-- The counts of a state. -/
def countsOf (state : Record F) : List (Value F × Value F) :=
  match state.get "zone_counts" with
  | some (.dict kvs) => kvs
  | _                => []

/-- A count that can be added to: none yet, or an `Integer`. -/
def Countable (v : Value F) : Prop := v = .none ∨ ∃ i, v = .int i ∧ narrow 32 i = i

/-- The states and records on which the logic of the type does not throw. -/
def Condition (t : OperatorType) (state record : Record F) : Prop :=
  match t with
  | .featureAggWindow => state.get "window" ≠ some .none ∧ 0 ≤ getInt state "window_size" 100
  | .multiStreamJoin  => state.get "join_buffer" ≠ some .none
  | .zoneAggregator   =>
      state.get "zone_counts" ≠ some .none ∧ record.get "zone_id" ≠ some .none ∧
      record.get "vehicle_detected" ≠ some .none ∧ record.get "timestamp" ≠ some .none ∧
      (record.get "vehicle_detected" = some (.bool true) →
        Countable ((lookupEntry (record.getD "zone_id" (.str "unknown")) (countsOf state)).getD .none))
  | .patternDetector  => state.get "pattern" ≠ some .none ∧ record.get "vehicle_detected" ≠ some .none
  | _                 => True

/-- What one record does to a typed state: the logic throws or not by the condition, and where it does not, it leaves
    a typed state on which the condition is what it was. -/
structure Settles (F : Type) [JavaRuntime F] (t : OperatorType) : Prop where
  returns_iff : ∀ {state record : Record F}, Typed (stateFields t) state → Typed (recordFields t) record →
    ((∃ result, logicOf F t record state = .ok result) ↔ Condition t state record)
  typed : ∀ {state record : Record F} {result : ProcessResult F}, Typed (stateFields t) state →
    Typed (recordFields t) record → logicOf F t record state = .ok result → Typed (stateFields t) result.newState
  kept : ∀ {state record : Record F} {result : ProcessResult F}, Typed (stateFields t) state →
    Typed (recordFields t) record → logicOf F t record state = .ok result →
    ∀ record', Typed (recordFields t) record' → (Condition t result.newState record' ↔ Condition t state record')

/-- On typed arguments a logic throws and the condition is not met, or it is met and kept. -/
theorem settles_of_cases {t : OperatorType} (h : ∀ {state record : Record F}, Typed (stateFields t) state →
    Typed (recordFields t) record →
    (¬ Condition t state record ∧ ∃ e, logicOf F t record state = .error e) ∨
      (Condition t state record ∧ ∃ result, logicOf F t record state = .ok result ∧
        Typed (stateFields t) result.newState ∧
        ∀ record', Typed (recordFields t) record' →
          (Condition t result.newState record' ↔ Condition t state record'))) : Settles F t where
  returns_iff hstate hrecord := by
    rcases h hstate hrecord with ⟨hnot, e, he⟩ | ⟨hcondition, result, hresult, -⟩
    · refine iff_of_false ?_ hnot
      rintro ⟨result, hresult⟩
      exact absurd (he.symm.trans hresult) nofun
    · exact iff_of_true ⟨result, hresult⟩ hcondition
  typed hstate hrecord hok := by
    rcases h hstate hrecord with ⟨-, e, he⟩ | ⟨-, result, hresult, htyped, -⟩
    · exact absurd (he.symm.trans hok) nofun
    · cases hresult.symm.trans hok
      exact htyped
  kept hstate hrecord hok := by
    rcases h hstate hrecord with ⟨-, e, he⟩ | ⟨-, result, hresult, -, hkept⟩
    · exact absurd (he.symm.trans hok) nofun
    · cases hresult.symm.trans hok
      exact hkept

/-! ## The logics that never throw

They read numbers and texts with defaults, and a null is a default to them as well. -/

/-- A logic that returns on everything and leaves a typed state. -/
theorem settles_of_returns {t : OperatorType} (hcondition : ∀ state record : Record F, Condition t state record)
    (h : ∀ {state record : Record F}, Typed (stateFields t) state → Typed (recordFields t) record →
      ∃ result, logicOf F t record state = .ok result ∧ Typed (stateFields t) result.newState) : Settles F t := by
  refine settles_of_cases fun hstate hrecord => ?_
  obtain ⟨result, hresult, htyped⟩ := h hstate hrecord
  exact Or.inr ⟨hcondition _ _, result, hresult, htyped, fun _ _ => iff_of_true (hcondition _ _) (hcondition _ _)⟩

theorem settles_normalizerOperator : Settles F .normalizerOperator :=
  settles_of_returns (fun _ _ => trivial) fun hstate _ => ⟨_, rfl, hstate⟩

theorem settles_binaryClassifier : Settles F .binaryClassifier :=
  settles_of_returns (fun _ _ => trivial) fun hstate _ => ⟨_, rfl, hstate⟩

theorem settles_vehicleDetector : Settles F .vehicleDetector :=
  settles_of_returns (fun _ _ => trivial) fun hstate _ => ⟨_, rfl, hstate⟩

theorem settles_riskCheck : Settles F .riskCheck :=
  settles_of_returns (fun _ _ => trivial) fun hstate _ => ⟨_, rfl, hstate⟩

theorem settles_anomalyDetector : Settles F .anomalyDetector := by
  refine settles_of_returns (fun _ _ => trivial) fun hstate _ => ⟨_, rfl, ?_⟩
  exact (hstate.set (by simp [stateFields, FieldType.holds])).set (by simp [stateFields, FieldType.holds])

theorem settles_statAggregator : Settles F .statAggregator := by
  refine settles_of_returns (fun _ _ => trivial) fun hstate _ => ⟨_, rfl, ?_⟩
  exact ((hstate.set (by simp [stateFields, FieldType.holds])).set (by simp [stateFields, FieldType.holds])).set
    (by simp [stateFields, FieldType.holds])

omit [JavaRuntime F] in
/-- The name a record gives, or its default; a null is none. -/
theorem castString_typed {fields : List (String × FieldType)} {map : Record F} (h : Typed fields map) {name : String}
    (hfield : (name, .text) ∈ fields) (dflt : String) :
    (map.get name = some .none ∧ castString (map.getD name (.str dflt)) = .ok none) ∨
      (map.get name ≠ some .none ∧ ∃ s, map.getD name (.str dflt) = .str s ∧
        castString (map.getD name (.str dflt)) = .ok (some s)) := by
  rcases h.getD_cases hfield (.str dflt) nofun rfl with ⟨hnull, hread⟩ | ⟨hnull, hread⟩
  · exact Or.inl ⟨hnull, by rw [hread]; rfl⟩
  · obtain ⟨s, hs⟩ := FieldType.eq_of_holds_text hread
    rw [hs]
    exact Or.inr ⟨hnull, s, rfl, rfl⟩

omit [JavaRuntime F] in
theorem castString_returns {fields : List (String × FieldType)} {map : Record F} (h : Typed fields map) {name : String}
    (hfield : (name, .text) ∈ fields) (dflt : String) :
    ∃ text, castString (map.getD name (.str dflt)) = .ok text := by
  rcases castString_typed h hfield dflt with ⟨-, hcast⟩ | ⟨-, s, -, hcast⟩
  · exact ⟨none, hcast⟩
  · exact ⟨some s, hcast⟩

theorem settles_complianceLogger : Settles F .complianceLogger := by
  refine settles_of_returns (fun _ _ => trivial) fun {state record} hstate hrecord => ?_
  obtain ⟨eventType, hcast⟩ := castString_returns hrecord List.mem_cons_self "unknown"
  have hlogic : logicOf F .complianceLogger record state = castString (record.getD "event_type" (.str "unknown")) >>=
      fun _ => .ok ⟨state.set "logged_count" (.int (narrow 64 (getLong state "logged_count" 0 + 1))),
        [record.update [("compliance_logged", .bool true),
          ("log_sequence", .int (narrow 64 (getLong state "logged_count" 0 + 1)))]]⟩ := rfl
  rw [hlogic, hcast]
  exact ⟨_, rfl, hstate.set (by simp [stateFields, FieldType.holds])⟩

/-! ## The logics that may throw

They copy a list or a map of the state, or unbox a flag of the record; on a null that throws, and on nothing else. -/

omit [JavaRuntime F] in
/-- The list of a state, or an empty one; on a null the copy throws. -/
theorem copyList_typed {α : Type} {fields : List (String × FieldType)} {map : Record F} (h : Typed fields map)
    {name : String} {type : FieldType} (hfield : (name, type) ∈ fields) {f : α → Value F}
    (hnil : type.holds (.list [] : Value F) = true)
    (hitems : ∀ v, type.holds v = true → ∃ xs : List α, v = .list (xs.map f)) :
    (map.get name = some .none ∧ copyList (map.getD name (.list [])) = .error .nullPointer) ∨
      (map.get name ≠ some .none ∧ ∃ xs : List α, copyList (map.getD name (.list [])) = .ok (xs.map f)) := by
  rcases h.getD_cases hfield (.list []) nofun hnil with ⟨hnull, hread⟩ | ⟨hnull, hread⟩
  · exact Or.inl ⟨hnull, by rw [hread]; rfl⟩
  · obtain ⟨xs, hxs⟩ := hitems _ hread
    exact Or.inr ⟨hnull, xs, by rw [hxs]; rfl⟩

omit [JavaRuntime F] in
/-- Trimming keeps what the items are made of. -/
theorem trim_map {α : Type} (f : α → Value F) {size : Int} (hsize : 0 ≤ size) (xs : List α) (x : α) :
    ∃ ys : List α, trim size (xs.map f ++ [f x]) = .ok (ys.map f) := by
  rw [trim_of_nonneg hsize, ← List.map_singleton, ← List.map_append, ← List.map_drop]
  exact ⟨_, rfl⟩

omit [JavaRuntime F] in
/-- A map of a state, or an empty one; on a null the copy throws. -/
theorem castMap_typed {fields : List (String × FieldType)} {map : Record F} (h : Typed fields map) {name : String}
    (hfield : (name, .mapping) ∈ fields) :
    (map.get name = some .none ∧ castMap (map.getD name (.dict [])) = .error .nullPointer) ∨
      (map.get name ≠ some .none ∧ ∃ kvs, castMap (map.getD name (.dict [])) = .ok kvs) := by
  rcases h.getD_cases hfield (.dict []) nofun rfl with ⟨hnull, hread⟩ | ⟨hnull, hread⟩
  · exact Or.inl ⟨hnull, by rw [hread]; rfl⟩
  · obtain ⟨kvs, hkvs⟩ := FieldType.eq_of_holds_mapping hread
    exact Or.inr ⟨hnull, kvs, by rw [hkvs]; rfl⟩

omit [JavaRuntime F] in
/-- A flag of a record, or false; a null cannot be unboxed. -/
theorem unboxBoolean_typed {fields : List (String × FieldType)} {map : Record F} (h : Typed fields map)
    {name : String} (hfield : (name, .flag) ∈ fields) :
    (map.get name = some .none ∧ unboxBoolean (map.getD name (.bool false)) = .error .nullPointer) ∨
      (map.get name ≠ some .none ∧ ∃ b, unboxBoolean (map.getD name (.bool false)) = .ok b ∧
        (b = true ↔ map.get name = some (.bool true))) := by
  rcases h.getD_cases hfield (.bool false) nofun rfl with ⟨hnull, hread⟩ | ⟨hnull, hread⟩
  · exact Or.inl ⟨hnull, by rw [hread]; rfl⟩
  · obtain ⟨b, hb⟩ := FieldType.eq_of_holds_flag hread
    refine Or.inr ⟨hnull, b, by rw [hb]; rfl, ?_⟩
    have htrue : (.bool true : Value F) ≠ .bool false := nofun
    rw [← Dict.getD_eq_iff_of_ne htrue, hb, Value.bool.injEq]

/-- The window is left as the last values, if there is one and its size is no negative number. -/
theorem featureAggWindow_of_window {state : Record F} {xs : List F}
    (record : Record F) (hcopy : copyList (state.getD "window" (.list [])) = .ok (xs.map .float)) :
    (getInt state "window_size" 100 < 0 ∧ ∃ e, logicOf F .featureAggWindow record state = .error e) ∨
      (0 ≤ getInt state "window_size" 100 ∧ ∃ (ys : List F) (outs : List (Record F)),
        logicOf F .featureAggWindow record state = .ok ⟨state.set "window" (.list (ys.map .float)), outs⟩) := by
  have hlogic : logicOf F .featureAggWindow record state = copyList (state.getD "window" (.list [])) >>= fun window =>
      trim (getInt state "window_size" 100) (window ++ [.float (getDouble record "value" 0.0)]) >>= fun window =>
      window.mapM unboxDouble >>= fun values => mapOf
        [("sum", .float (JavaRuntime.streamSum values)), ("count", .int window.length),
          ("min", .float (streamMin values)), ("max", .float (streamMax values)),
          ("avg", .float (if window.isEmpty then 0.0
            else JavaRuntime.streamSum values / doubleOf window.length))] >>= fun output =>
      .ok ⟨state.set "window" (.list window), [output]⟩ := rfl
  rw [hlogic, hcopy]
  rcases lt_or_ge (getInt state "window_size" 100) 0 with hsize | hsize
  · refine Or.inl ⟨hsize, .indexOutOfBounds, ?_⟩
    show trim _ _ >>= _ = _
    exact bind_of_error (trim_of_neg hsize _)
  · refine Or.inr ⟨hsize, ?_⟩
    obtain ⟨ys, hys⟩ := trim_map Value.float hsize xs (getDouble record "value" 0.0)
    have hvalues : (ys.map Value.float).mapM unboxDouble = .ok ys := mapM_map_of_inverse fun _ _ => rfl
    exact ⟨ys, _, bind_eq_ok.mpr ⟨_, rfl, bind_eq_ok.mpr ⟨_, hys, bind_eq_ok.mpr ⟨_, hvalues,
      bind_eq_ok.mpr ⟨_, rfl, rfl⟩⟩⟩⟩⟩

theorem settles_featureAggWindow : Settles F .featureAggWindow := by
  refine settles_of_cases fun {state record} hstate _ => ?_
  rcases copyList_typed hstate List.mem_cons_self rfl (fun _ => FieldType.eq_of_holds_numbers) with
    ⟨hnull, hcopy⟩ | ⟨hnull, xs, hcopy⟩
  · exact Or.inl ⟨fun h => h.1 hnull, .nullPointer, bind_of_error hcopy⟩
  · rcases featureAggWindow_of_window record hcopy with ⟨hsize, hthrown⟩ | ⟨hsize, ys, outs, hreturned⟩
    · exact Or.inl ⟨fun h => absurd h.2 (not_le.mpr hsize), hthrown⟩
    · refine Or.inr ⟨⟨hnull, hsize⟩, _, hreturned, ?_, fun record' _ => ?_⟩
      · refine hstate.set fun field hfield hname => ?_
        simp only [stateFields, List.mem_cons, List.not_mem_nil, or_false] at hfield
        rcases hfield with rfl | rfl
        · exact FieldType.holds_numbers ys
        · exact absurd hname (by decide)
      · have hkeep : getInt (state.set "window" (.list (ys.map .float))) "window_size" 100 =
            getInt state "window_size" 100 := by
          unfold getInt Dict.getD
          rw [Dict.get_set_ne _ (by decide)]
        refine iff_of_true ⟨?_, hkeep ▸ hsize⟩ ⟨hnull, hsize⟩
        rw [Dict.get_set_self]
        exact nofun

theorem settles_multiStreamJoin : Settles F .multiStreamJoin := by
  refine settles_of_cases fun {state record} hstate hrecord => ?_
  obtain ⟨key, hcast⟩ := castString_returns hrecord List.mem_cons_self "unknown"
  have hlogic : logicOf F .multiStreamJoin record state = castString (record.getD "join_key" (.str "unknown")) >>=
      fun key => castMap (state.getD "join_buffer" (.dict [])) >>= fun joinBuffer =>
      .ok ⟨state.set "join_buffer" (.dict (setEntry (ofString key) record.toValue joinBuffer)),
        [record.update [("joined_records", .int (setEntry (ofString key) record.toValue joinBuffer).length)]]⟩ := rfl
  rw [hlogic, hcast]
  rcases castMap_typed hstate List.mem_cons_self with ⟨hnull, hmap⟩ | ⟨hnull, kvs, hmap⟩
  · refine Or.inl ⟨fun h => h hnull, .nullPointer, ?_⟩
    show castMap _ >>= _ = _
    exact bind_of_error hmap
  · refine Or.inr ⟨hnull, _, bind_eq_ok.mpr ⟨_, rfl, bind_eq_ok.mpr ⟨_, hmap, rfl⟩⟩, ?_, fun record' _ => ?_⟩
    · exact hstate.set (by simp [stateFields, FieldType.holds])
    · refine iff_of_true ?_ hnull
      show (state.set "join_buffer" _).get "join_buffer" ≠ _
      rw [Dict.get_set_self]
      exact nofun

theorem settles_patternDetector : Settles F .patternDetector := by
  refine settles_of_cases fun {state record} hstate hrecord => ?_
  have hlogic : logicOf F .patternDetector record state = copyList (state.getD "pattern" (.list [])) >>= fun pattern =>
      unboxBoolean (record.getD "vehicle_detected" (.bool false)) >>= fun detected =>
      trim 10 (pattern ++ [.bool detected]) >>= fun pattern =>
      OperatorFactory.search pattern >>= fun patternDetected =>
      .ok ⟨state.set "pattern" (.list pattern),
        [record.update [("pattern_detected", .bool patternDetected)]]⟩ := rfl
  rw [hlogic]
  rcases copyList_typed hstate List.mem_cons_self rfl (fun _ => FieldType.eq_of_holds_flags) with
    ⟨hnull, hcopy⟩ | ⟨hnull, xs, hcopy⟩ <;> rw [hcopy]
  · exact Or.inl ⟨fun h => h.1 hnull, .nullPointer, rfl⟩
  · rcases unboxBoolean_typed hrecord List.mem_cons_self with ⟨hflag, hunbox⟩ | ⟨hflag, detected, hunbox, -⟩
    · refine Or.inl ⟨fun h => h.2 hflag, .nullPointer, ?_⟩
      show unboxBoolean _ >>= _ = _
      exact bind_of_error hunbox
    · obtain ⟨ys, hys⟩ := trim_map (Value.bool : Bool → Value F) (show (0 : Int) ≤ 10 by decide) xs detected
      obtain ⟨found, hfound, -⟩ := OperatorFactory.search_flags (F := F) ys
      refine Or.inr ⟨⟨hnull, hflag⟩, _, bind_eq_ok.mpr ⟨_, rfl, bind_eq_ok.mpr ⟨_, hunbox, bind_eq_ok.mpr
        ⟨_, hys, bind_eq_ok.mpr ⟨_, hfound, rfl⟩⟩⟩⟩, ?_, fun record' _ => ?_⟩
      · exact hstate.set (by simp [stateFields, FieldType.holds_flags])
      · refine and_congr_left fun _ => iff_of_true ?_ hnull
        show (state.set "pattern" _).get "pattern" ≠ _
        rw [Dict.get_set_self]
        exact nofun

/-! ### The counts of the zones

The zone aggregator adds to a count by a method that only takes an `Integer`, and builds a map that takes no null. Its
condition follows the reads in their order. -/

theorem beq_str_iff {v : Value F} {s : String} : (v == .str s) = true ↔ v = .str s := by
  cases v with
  | str t => rw [Value.beq_str, beq_iff_eq, Value.str.injEq]
  | _ => exact iff_of_false (Bool.eq_false_iff.mp rfl) nofun

theorem lookupEntry_setEntry_str (zone zone' : String) (v : Value F) (counts : List (Value F × Value F)) :
    lookupEntry (.str zone') (setEntry (.str zone) v counts) =
      if zone' = zone then some v else lookupEntry (.str zone') counts := by
  induction counts with
  | nil =>
      rw [setEntry, lookupEntry, lookupEntry, lookupEntry, Value.beq_str]
      by_cases hzone : zone' = zone
      · simp [hzone]
      · simp [hzone, Ne.symm hzone]
  | cons e counts ih =>
      unfold setEntry
      split_ifs with he hzone hzone
      · subst hzone
        rw [lookupEntry, if_pos he]
      · have hother : ¬ (e.1 == Value.str zone') = true := by
          rw [beq_str_iff.mp he, Value.beq_str, beq_iff_eq]
          exact Ne.symm hzone
        rw [lookupEntry, lookupEntry, if_neg hother, if_neg hother]
      · subst hzone
        rw [lookupEntry, if_neg he, ih, if_pos rfl]
      · rw [lookupEntry, lookupEntry, ih, if_neg hzone]

/-- What is found is the value of an entry. -/
theorem value_of_lookupEntry {key v : Value F} {counts : List (Value F × Value F)}
    (h : lookupEntry key counts = some v) : ∃ e ∈ counts, e.2 = v := by
  induction counts with
  | nil => cases h
  | cons e counts ih =>
      unfold lookupEntry at h
      split_ifs at h
      · exact ⟨e, List.mem_cons_self, Option.some.inj h⟩
      · obtain ⟨e', he', hv⟩ := ih h
        exact ⟨e', List.mem_cons_of_mem _ he', hv⟩

/-- Counting a zone: what it counts to is an `Integer` again. -/
theorem mergeCount_of_countable {zone : Value F} {counts : List (Value F × Value F)}
    (h : Countable ((lookupEntry zone counts).getD .none)) :
    ∃ i, narrow 32 i = i ∧ OperatorFactory.mergeCount zone counts = .ok (setEntry zone (.int i) counts) := by
  unfold OperatorFactory.mergeCount
  rcases h with h | ⟨i, h, hrange⟩ <;> rw [h]
  · exact ⟨1, by decide, rfl⟩
  · exact ⟨narrow 32 (i + 1), narrow_int_eq_iff.mpr (narrow_int_range _), if_pos hrange⟩

theorem mergeCount_of_not_countable {zone : Value F} {counts : List (Value F × Value F)}
    (h : ¬ Countable ((lookupEntry zone counts).getD .none)) :
    OperatorFactory.mergeCount zone counts = .error .classCast := by
  unfold OperatorFactory.mergeCount
  cases hcount : (lookupEntry zone counts).getD .none with
  | none => exact absurd (Or.inl hcount) h
  | int i => exact if_neg fun hrange => h (Or.inr ⟨i, hcount, hrange⟩)
  | _ => rfl

omit [JavaRuntime F] in
/-- The counts of a typed state are integers; on a null the copy throws. -/
theorem castMap_counts {state : Record F} (h : Typed (stateFields .zoneAggregator) state) :
    (state.get "zone_counts" = some .none ∧ castMap (state.getD "zone_counts" (.dict [])) = .error .nullPointer) ∨
      (state.get "zone_counts" ≠ some .none ∧
        castMap (state.getD "zone_counts" (.dict [])) = .ok (countsOf state) ∧
        ∀ e ∈ countsOf state, ∃ i, e.2 = .int i) := by
  rcases h.getD_cases List.mem_cons_self (.dict []) nofun rfl with ⟨hnull, hread⟩ | ⟨hnull, hread⟩
  · exact Or.inl ⟨hnull, by rw [hread]; rfl⟩
  · obtain ⟨kvs, hkvs, hints⟩ := FieldType.eq_of_holds_counts hread
    have hcounts : countsOf state = kvs := by
      unfold Dict.getD at hkvs
      unfold countsOf
      cases hget : state.get "zone_counts" with
      | none => rw [hget] at hkvs; cases hkvs; rfl
      | some v => rw [hget] at hkvs; cases hkvs; rfl
    rw [hcounts, hkvs]
    exact Or.inr ⟨hnull, rfl, hints⟩

/-- The counts with or without a detection: they are integers, and a zone can be counted where it could before. -/
structure Counted (counts counts' : List (Value F × Value F)) : Prop where
  ints      : ∀ e ∈ counts', ∃ i, e.2 = .int i
  countable : ∀ zone : String, Countable ((lookupEntry (.str zone) counts').getD .none) ↔
    Countable ((lookupEntry (.str zone) counts).getD .none)

theorem counted_of_countable {zone : String} {i : Int} {counts : List (Value F × Value F)}
    (hints : ∀ e ∈ counts, ∃ i, e.2 = .int i) (h : Countable ((lookupEntry (.str zone) counts).getD .none))
    (hi : narrow 32 i = i) : Counted counts (setEntry (.str zone) (.int i) counts) where
  ints e he := by
    rcases value_of_mem_setEntry he with hv | ⟨e', he', hv⟩
    · exact ⟨i, hv⟩
    · rw [← hv]
      exact hints e' he'
  countable zone' := by
    rw [lookupEntry_setEntry_str]
    split_ifs with hzone
    · subst hzone
      exact iff_of_true (Or.inr ⟨i, rfl, hi⟩) h
    · exact Iff.rfl

/-- What is put out for a zone has a null only where the record has one. -/
theorem mapOf_zone (zone : String) {counts : List (Value F × Value F)} (hints : ∀ e ∈ counts, ∃ i, e.2 = .int i)
    {timestamp : Value F} (h : timestamp ≠ .none) :
    ∃ output, mapOf [("zone_id", .str zone), ("vehicle_count", (lookupEntry (.str zone) counts).getD (.int 0)),
      ("timestamp", timestamp)] = .ok output := by
  refine ⟨_, mapOf_of_not_null ?_⟩
  intro e he
  simp only [List.mem_cons, List.not_mem_nil, or_false] at he
  rcases he with rfl | rfl | rfl
  · exact nofun
  · show (lookupEntry (.str zone) counts).getD (.int 0) ≠ .none
    cases hcount : lookupEntry (.str zone) counts with
    | none => exact nofun
    | some v =>
        obtain ⟨e', he', rfl⟩ := value_of_lookupEntry hcount
        obtain ⟨i, hi⟩ := hints e' he'
        rw [Option.getD_some, hi]
        exact nofun
  · exact h

/-- A block throws if it does after each result of its first call. -/
theorem throws_bind {α β : Type} {x : Except JavaException α} {f : α → Except JavaException β}
    (h : ∀ a, x = .ok a → ∃ e, f a = .error e) : ∃ e, (x >>= f) = .error e := by
  cases x with
  | error e => exact ⟨e, rfl⟩
  | ok a => exact h a rfl

/-- The logic, read by read. -/
theorem zoneAggregator_eq (state record : Record F) : logicOf F .zoneAggregator record state =
    castString (record.getD "zone_id" (.str "unknown")) >>= fun zone =>
    castMap (state.getD "zone_counts" (.dict [])) >>= fun counts =>
    unboxBoolean (record.getD "vehicle_detected" (.bool false)) >>= fun detected =>
    (if detected then OperatorFactory.mergeCount (ofString zone) counts else .ok counts) >>= fun counts =>
    mapOf [("zone_id", ofString zone), ("vehicle_count", (lookupEntry (ofString zone) counts).getD (.int 0)),
      ("timestamp", record.getD "timestamp" (.int 0))] >>= fun output =>
    .ok ⟨state.set "zone_counts" (.dict counts), [output]⟩ := rfl

/-- The condition after the counts are written. -/
theorem condition_counted {state record : Record F} {counts : List (Value F × Value F)}
    (hnull : state.get "zone_counts" ≠ some .none) (h : Counted (countsOf state) counts)
    (hrecord : Typed (recordFields .zoneAggregator) record) :
    Condition .zoneAggregator (state.set "zone_counts" (.dict counts)) record ↔
      Condition .zoneAggregator state record := by
  have hnew : countsOf (state.set "zone_counts" (.dict counts)) = counts := by
    unfold countsOf
    rw [Dict.get_set_self]
  unfold Condition
  dsimp only
  rw [hnew, Dict.get_set_self]
  refine and_congr (iff_of_true nofun hnull) (and_congr_right fun hid => ?_)
  refine and_congr_right fun _ => and_congr_right fun _ => imp_congr_right fun _ => ?_
  rcases castString_typed hrecord List.mem_cons_self "unknown" with ⟨hnone, -⟩ | ⟨-, zone, hzone, -⟩
  · exact absurd hnone hid
  · rw [hzone]
    exact h.countable zone

/-- A null that is read throws. -/
theorem zoneAggregator_of_null {state record : Record F} (hstate : Typed (stateFields .zoneAggregator) state)
    (hrecord : Typed (recordFields .zoneAggregator) record)
    (h : state.get "zone_counts" = some .none ∨ record.get "vehicle_detected" = some .none ∨
      record.get "zone_id" = some .none) : ∃ e, logicOf F .zoneAggregator record state = .error e := by
  rw [zoneAggregator_eq]
  refine throws_bind fun zone hzone => throws_bind fun counts hcounts => throws_bind fun detected hdetected => ?_
  rcases h with hnull | hnull | hnull
  · have hthrown := ((castMap_counts hstate).resolve_right fun h => h.1 hnull).2
    exact absurd (hthrown.symm.trans hcounts) nofun
  · have hflag : ("vehicle_detected", FieldType.flag) ∈ recordFields .zoneAggregator :=
      List.mem_cons_of_mem _ List.mem_cons_self
    have hthrown := ((unboxBoolean_typed hrecord hflag).resolve_right fun h => h.1 hnull).2
    exact absurd (hthrown.symm.trans hdetected) nofun
  · have hnone := ((castString_typed hrecord List.mem_cons_self "unknown").resolve_right fun h => h.1 hnull).2
    cases hnone.symm.trans hzone
    refine throws_bind fun counts _ => ?_
    rw [mapOf_of_null ⟨_, List.mem_cons_self, rfl⟩]
    exact ⟨_, rfl⟩

/-- Once its reads are done. -/
theorem zoneAggregator_of_reads {state record : Record F} {zone : String} {counts : List (Value F × Value F)}
    {detected : Bool} (hzone : castString (record.getD "zone_id" (.str "unknown")) = .ok (some zone))
    (hcounts : castMap (state.getD "zone_counts" (.dict [])) = .ok counts)
    (hdetected : unboxBoolean (record.getD "vehicle_detected" (.bool false)) = .ok detected) :
    logicOf F .zoneAggregator record state =
      (if detected then OperatorFactory.mergeCount (.str zone) counts else .ok counts) >>= fun counts =>
      mapOf [("zone_id", .str zone), ("vehicle_count", (lookupEntry (.str zone) counts).getD (.int 0)),
        ("timestamp", record.getD "timestamp" (.int 0))] >>= fun output =>
      .ok ⟨state.set "zone_counts" (.dict counts), [output]⟩ := by
  rw [zoneAggregator_eq, hzone, hcounts, hdetected]
  rfl

/-- Counting the zone of a record, if it is a detection. -/
theorem counted_of_record {zone : String} {detected : Bool} {counts : List (Value F × Value F)}
    (hints : ∀ e ∈ counts, ∃ i, e.2 = .int i)
    (h : detected = true → Countable ((lookupEntry (.str zone) counts).getD .none)) :
    ∃ counts', (if detected then OperatorFactory.mergeCount (.str zone) counts else .ok counts) = .ok counts' ∧
      Counted counts counts' := by
  cases detected with
  | false => exact ⟨counts, rfl, hints, fun _ => Iff.rfl⟩
  | true =>
      obtain ⟨i, hi, hmerge⟩ := mergeCount_of_countable (h rfl)
      exact ⟨_, hmerge, counted_of_countable hints (h rfl) hi⟩

theorem settles_zoneAggregator : Settles F .zoneAggregator := by
  refine settles_of_cases fun {state record} hstate hrecord => ?_
  have hthrows := zoneAggregator_of_null hstate hrecord
  -- what is read is checked in the order of the code: the counts, the flag, the zone
  rcases castMap_counts hstate with ⟨hnull, -⟩ | ⟨hnull, hcounts, hints⟩
  · exact Or.inl ⟨fun h => h.1 hnull, hthrows (Or.inl hnull)⟩
  rcases unboxBoolean_typed hrecord (List.mem_cons_of_mem _ List.mem_cons_self) with
    ⟨hflag, -⟩ | ⟨hflag, detected, hunbox, hdetected⟩
  · exact Or.inl ⟨fun h => h.2.2.1 hflag, hthrows (Or.inr (Or.inl hflag))⟩
  rcases castString_typed hrecord List.mem_cons_self "unknown" with ⟨hid, -⟩ | ⟨hid, zone, hget, hzone⟩
  · exact Or.inl ⟨fun h => h.2.1 hid, hthrows (Or.inr (Or.inr hid))⟩
  rw [zoneAggregator_of_reads hzone hcounts hunbox]
  have htime : record.getD "timestamp" (.int 0) = .none ↔ record.get "timestamp" = some .none :=
    Dict.getD_eq_iff_of_ne nofun
  by_cases hcountable : detected = true → Countable ((lookupEntry (.str zone) (countsOf state)).getD .none)
  · -- the zone is counted, or there is nothing to count
    obtain ⟨counts, hmerge, hcounted⟩ := counted_of_record hints hcountable
    rw [hmerge]
    -- the time is only read by `Map.of`, which takes no null
    by_cases hnotime : record.get "timestamp" = some .none
    · refine Or.inl ⟨fun h => h.2.2.2.1 hnotime, .nullPointer, ?_⟩
      show mapOf _ >>= _ = _
      apply bind_of_error
      exact mapOf_of_null ⟨_, List.mem_cons_of_mem _ (List.mem_cons_of_mem _ List.mem_cons_self), htime.mpr hnotime⟩
    · obtain ⟨output, houtput⟩ := mapOf_zone zone hcounted.ints fun h => hnotime (htime.mp h)
      refine Or.inr ⟨⟨hnull, hid, hflag, hnotime, ?_⟩, _, bind_eq_ok.mpr ⟨_, rfl, bind_eq_ok.mpr ⟨_, houtput, rfl⟩⟩, ?_,
        fun record' hrecord' => condition_counted hnull hcounted hrecord'⟩
      · rw [hget]
        exact fun h => hcountable (hdetected.mpr h)
      · refine hstate.set fun field hfield _ => ?_
        rw [List.mem_singleton.mp hfield]
        exact FieldType.holds_counts hcounted.ints
  · -- the count cannot be added to
    obtain ⟨hyes, hnot⟩ := Classical.not_imp.mp hcountable
    refine Or.inl ⟨fun h => hnot ?_, .classCast, ?_⟩
    · have hcount := h.2.2.2.2 (hdetected.mp hyes)
      rw [hget] at hcount
      exact hcount
    · rw [if_pos hyes, mergeCount_of_not_countable hnot]
      rfl

/-! ## The eleven types

One record for every type, and then all records: each is settled on the state that those before it have left. -/

/-- **One record**, for every type. -/
theorem settles (t : OperatorType) : Settles F t := by
  cases t with
  | normalizerOperator => exact settles_normalizerOperator
  | featureAggWindow   => exact settles_featureAggWindow
  | multiStreamJoin    => exact settles_multiStreamJoin
  | binaryClassifier   => exact settles_binaryClassifier
  | vehicleDetector    => exact settles_vehicleDetector
  | zoneAggregator     => exact settles_zoneAggregator
  | patternDetector    => exact settles_patternDetector
  | riskCheck          => exact settles_riskCheck
  | anomalyDetector    => exact settles_anomalyDetector
  | statAggregator     => exact settles_statAggregator
  | complianceLogger   => exact settles_complianceLogger

/-- The operator restored with a state, as it is after `open`. -/
def restored (operatorId : String) (t : OperatorType) (state : Record F) : MigratedOperator F :=
  (OperatorFactory.create operatorId (t.operator F).operatorType (some state)).opened

theorem restored_logic (operatorId : String) (t : OperatorType) (state : Record F) :
    (restored operatorId t state).logic = logicOf F t := MigratedOperator.opened_logic _

/-- The first record is processed with the restored state. -/
theorem restored_currentState (operatorId : String) (t : OperatorType) (state : Record F) :
    (restored operatorId t state).currentState = state := MigratedOperator.currentState_opened rfl

/-- The operator after a call, which may have thrown. -/
def called (op : MigratedOperator F) (record : Record F) : MigratedOperator F :=
  ((MigratedOperator.flatMap record).exec op).2

/-- The call returns. -/
def CallReturns (op : MigratedOperator F) (record : Record F) : Prop :=
  ((MigratedOperator.flatMap record).exec op).1.isOk = true

/-- No call of the restored operator throws on the records, one after the other. -/
def NeverThrows (operatorId : String) (t : OperatorType) (state : Record F) (records : List (Record F)) : Prop :=
  AtEachStep called CallReturns (restored operatorId t state) records

/-- The run lemma: each record is settled on the state before it, and the condition of the others stays what it is on
    the first state. -/
theorem neverThrows_of_typed {t : OperatorType} {op : MigratedOperator F} (hlogic : op.logic = logicOf F t)
    (hstate : Typed (stateFields t) op.currentState) {records : List (Record F)}
    (hrecords : ∀ record ∈ records, Typed (recordFields t) record) :
    AtEachStep called CallReturns op records ↔ ∀ record ∈ records, Condition t op.currentState record := by
  induction records generalizing op with
  | nil => exact iff_of_true trivial nofun
  | cons record records ih =>
      have hrecord : Typed (recordFields t) record := hrecords record List.mem_cons_self
      rw [List.forall_mem_cons, ← (settles t).returns_iff hstate hrecord, ← hlogic]
      show (CallReturns op record ∧ AtEachStep called CallReturns (called op record) records) ↔ _
      have hexec := MigratedOperator.exec_flatMap record op
      cases hresult : op.logic record op.currentState with
      | error e =>
          rw [hresult] at hexec
          have hthrows : ¬ CallReturns op record := by
            unfold CallReturns
            rw [hexec]
            exact nofun
          exact iff_of_false (fun h => hthrows h.1) fun h => absurd h.1.choose_spec nofun
      | ok result =>
          rw [hresult] at hexec
          have hreturns : CallReturns op record := by
            unfold CallReturns
            rw [hexec]
            rfl
          have hcalled : called op record = { op with flinkState := some result.newState } := congrArg Prod.snd hexec
          rw [hlogic] at hresult
          refine and_congr (iff_of_true hreturns ⟨result, rfl⟩) ?_
          have hrest : AtEachStep called CallReturns { op with flinkState := some result.newState } records ↔
              ∀ r ∈ records, Condition t result.newState r :=
            ih hlogic ((settles t).typed hstate hrecord hresult) fun r hr => hrecords r (List.mem_cons_of_mem _ hr)
          rw [hcalled, hrest]
          exact forall₂_congr fun r hr =>
            (settles t).kept hstate hrecord hresult r (hrecords r (List.mem_cons_of_mem _ hr))

/-! ## From the snapshot on

The typed state comes from a snapshot that was translated under a schema, so the conditions are ones on the schema,
the snapshot and the records. -/

/-- A declared type that leaves a value of the type what it is: a number may come out as one of another class. -/
def FieldType.fits : FieldType → Conversion → Bool
  | number, .float => true
  | number, .int   => true
  | _, .asIs       => true
  | _, _           => false

/-- The schema declares what the logic of the type reads of a state. -/
def Declares (schema : Record F) (t : OperatorType) : Prop :=
  ∀ field ∈ stateFields t, ∃ schemaType, schema.get field.1 = some schemaType ∧
    field.2.fits (conversionOf schemaType) = true

/-- A value that is translated is null or of its type again. -/
theorem holds_of_apply {type : FieldType} {c : Conversion} (hfits : type.fits c = true) {v v' : Value F}
    (hv : v = .none ∨ type.holds v = true) (h : c.apply v = .ok v') : v' = .none ∨ type.holds v' = true := by
  have hkept : c = .asIs → v' = .none ∨ type.holds v' = true := by
    rintro rfl
    have hsame : v' = v := by
      cases v <;> exact (Except.ok.inj h).symm
    rw [hsame]
    exact hv
  rcases hv with rfl | hv
  · cases c <;> first | exact Or.inl (Except.ok.inj h).symm | cases h
  · cases c with
    | asIs => exact hkept rfl
    | float =>
        cases type <;> cases hfits
        cases v <;> cases hv
        · exact Or.inr (by rw [← Except.ok.inj h]; rfl)
        · exact Or.inr (by rw [← Except.ok.inj h]; rfl)
    | int =>
        cases type <;> cases hfits
        cases v <;> cases hv
        · exact Or.inr (by rw [← Except.ok.inj h]; rfl)
        · exact Or.inr (by rw [← Except.ok.inj h]; rfl)
    | _ => cases type <;> cases hfits

/-- **What a translation returns** from a typed state is typed. -/
theorem typed_of_translate {t : OperatorType} {registry : SchemaRegistry F} {schema rawState state : Record F}
    (hschema : registry.getSchema (t.operator F).operatorType = .ok schema) (hdeclares : Declares schema t)
    (hraw : Typed (stateFields t) rawState)
    (h : SnapshotDeserializer.translateToFlinkState registry rawState (t.operator F).operatorType = .ok state) :
    Typed (stateFields t) state := by
  rw [SnapshotDeserializer.translateToFlinkState_eq, hschema] at h
  intro field hfield v' hv'
  rw [SnapshotDeserializer.get_translateWith h] at hv'
  obtain ⟨v, hv, hv'⟩ := Option.bind_eq_some_iff.mp hv'
  obtain ⟨schemaType, hget, hfits⟩ := hdeclares field hfield
  have hdeclared : schema.getD field.1 .none = schemaType := by
    unfold Dict.getD
    rw [hget]
    rfl
  rw [hdeclared, translateValue_eq] at hv'
  split_ifs at hv'
  have happly : (conversionOf schemaType).apply v = .ok v' := by
    cases happly : (conversionOf schemaType).apply v with
    | error e => rw [happly] at hv'; cases hv'
    | ok w => rw [happly] at hv'; exact congrArg Except.ok (Option.some.inj hv')
  exact holds_of_apply hfits (hraw field hfield v hv) happly

/-- **Which restored operators throw.** Under a schema that declares the state fields of the type, from every typed
    state that is translated, on every sequence of typed records: no call throws exactly if every record meets the
    condition with the state that is restored. For seven of the types every record does. A call leaves a typed state
    typed and the conditions of the other records what they were (`Settles`), so each record can be judged on the
    restored state. -/
theorem neverThrows_iff (operatorId : String) (t : OperatorType) {registry : SchemaRegistry F}
    {schema rawState state : Record F} (hschema : registry.getSchema (t.operator F).operatorType = .ok schema)
    (hdeclares : Declares schema t) (hraw : Typed (stateFields t) rawState)
    (hstate : SnapshotDeserializer.translateToFlinkState registry rawState (t.operator F).operatorType = .ok state)
    {records : List (Record F)} (hrecords : ∀ record ∈ records, Typed (recordFields t) record) :
    NeverThrows operatorId t state records ↔ ∀ record ∈ records, Condition t state record := by
  have htyped : Typed (stateFields t) state := typed_of_translate hschema hdeclares hraw hstate
  rw [← restored_currentState operatorId t state] at htyped
  refine (neverThrows_of_typed (restored_logic operatorId t state) htyped hrecords).trans ?_
  rw [restored_currentState]

/-! ### A window

A window that takes values, and one whose field was missing when the state was written. -/

/-- A field map for `FeatureAggWindow`. -/
def windowSchema : Record ℚ := Dict.ofList [("window", .str "list"), ("window_size", .str "int")]

/-- The registry that has it. -/
def windowRegistry : SchemaRegistry ℚ := ⟨Dict.ofList [("FeatureAggWindow", windowSchema)], ∅⟩

/-- A state of `FeatureAggWindow`. -/
def windowState (window windowSize : Value ℚ) : Record ℚ :=
  Dict.ofList [("window", window), ("window_size", windowSize)]

theorem windowSchema_declares : Declares windowSchema .featureAggWindow := by
  intro field hfield
  simp only [stateFields, List.mem_cons, List.not_mem_nil, or_false] at hfield
  rcases hfield with rfl | rfl
  · exact ⟨.str "list", rfl, by decide +kernel⟩
  · exact ⟨.str "int", rfl, by decide +kernel⟩

theorem windowState_typed {window windowSize : Value ℚ} (h : window = .none ∨ FieldType.numbers.holds window = true)
    (hsize : FieldType.number.holds windowSize = true) :
    Typed (stateFields .featureAggWindow) (windowState window windowSize) := by
  intro field hfield v hv
  simp only [stateFields, List.mem_cons, List.not_mem_nil, or_false] at hfield
  rcases hfield with rfl | rfl
  · cases hv
    exact h
  · cases hv
    exact Or.inr hsize

/-- A full window of two. -/
def fullWindow : Record ℚ := windowState (.list [.float 1, .float 2]) (.int 2)

/-- It takes one more value. -/
theorem neverThrows_iff_window :
    NeverThrows "agg" .featureAggWindow fullWindow [Dict.ofList [("value", .float 3)]] := by
  have hschema : windowRegistry.getSchema (OperatorType.featureAggWindow.operator ℚ).operatorType =
      .ok windowSchema := rfl
  have htyped : Typed (stateFields .featureAggWindow) fullWindow :=
    windowState_typed (Or.inr (by decide +kernel)) (by decide +kernel)
  have hstate : SnapshotDeserializer.translateToFlinkState windowRegistry fullWindow
      (OperatorType.featureAggWindow.operator ℚ).operatorType = .ok fullWindow := rfl
  refine (neverThrows_iff "agg" .featureAggWindow hschema windowSchema_declares htyped hstate ?_).mpr ?_
  · intro record hrecord field hfield v hv
    obtain rfl := List.mem_singleton.mp hrecord
    obtain rfl := List.mem_singleton.mp hfield
    cases hv
    exact Or.inr rfl
  · intro record _
    exact ⟨nofun, by decide +kernel⟩

/-- **A window that is null.** It was missing when the state was written; the first record throws. -/
theorem null_window_throws :
    windowRegistry.getSchema "FeatureAggWindow" = .ok windowSchema ∧ Declares windowSchema .featureAggWindow ∧
      Typed (stateFields .featureAggWindow) (windowState .none (.int 2)) ∧
      SnapshotDeserializer.translateToFlinkState windowRegistry (windowState .none (.int 2)) "FeatureAggWindow" =
        .ok (windowState .none (.int 2)) ∧
      ¬ NeverThrows "agg" .featureAggWindow (windowState .none (.int 2)) [∅] := by
  refine ⟨rfl, windowSchema_declares, windowState_typed (Or.inl rfl) (by decide +kernel), rfl, ?_⟩
  intro h
  have hthrows : ¬ CallReturns (restored "agg" .featureAggWindow (windowState .none (.int 2))) ∅ := by
    unfold CallReturns
    decide +kernel
  exact hthrows h.1

end Connector
end HybridStream
