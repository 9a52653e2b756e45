import HybridStream.Connector.Correctness.Outputs
import HybridStream.Lib.Lts

/-!
# `Connector.Correctness.Mirror` — where the Java operators put out what the Python operators do

Both operators of a type are run side by side: the Java one starts from the state the Python one exports, and
both take the same records. At each record on which the Python `process` returns, the Java operator is to put
out the same records (`Alike`).

For six types it never does: what Java puts out has a name that nothing Python puts out has. For the other
five it depends on the two states and on the record, which must carry already what Python adds and Java does
not; `Mirrored` says when, type by type. `Decides` is the statement about one record, `mirrors_iff` the one
about every sequence of records.
-/

namespace HybridStream
namespace Connector

open Lib Py Hea

variable {F σ : Type} [JavaRuntime F]

/-! ## Side by side

The Python operator and the Java operator that was restored from its state, on one record after the other. Alike
means: what Python puts out, Java puts out too. -/

/-- The same record; its entries have no order. -/
def SameRecord (r r' : Record F) : Prop := ∀ name, r.get name = r'.get name

/-- The attributes of the Python operator and the Java operator. -/
structure SideBySide (F σ : Type) where
  python : σ
  java   : MigratedOperator F

namespace SideBySide

variable {C : BaseOperator F σ} {clock : Clock F} {p : SideBySide F σ} {record : Record F}

/-- The Java operator restored from the state the Python operator exports. -/
def exported (C : BaseOperator F σ) (s : σ) : SideBySide F σ :=
  ⟨s, (OperatorFactory.create (C.operatorId s) C.operatorType (some (C.getState s))).opened⟩

/-- Both take a record. -/
def step (C : BaseOperator F σ) (clock : Clock F) (p : SideBySide F σ) (record : Record F) : SideBySide F σ :=
  ⟨((C.process clock record).exec p.python).2, ((MigratedOperator.flatMap record).exec p.java).2⟩

/-- The Python operator returns on the record. -/
def Returns (C : BaseOperator F σ) (clock : Clock F) (p : SideBySide F σ) (record : Record F) : Prop :=
  ∃ outs s, (C.process clock record).exec p.python = (.ok outs, s)

omit [JavaRuntime F] in
theorem returns_of_isOk (h : ((C.process clock record).exec p.python).1.isOk = true) :
    Returns C clock p record := by
  rcases hexec : (C.process clock record).exec p.python with ⟨e | outs, s⟩
  · rw [hexec] at h
    cases h
  · exact ⟨outs, s, hexec⟩

/-- What the Python operator puts out for the record, the Java operator puts out as well. -/
def Alike (C : BaseOperator F σ) (clock : Clock F) (p : SideBySide F σ) (record : Record F) : Prop :=
  ∀ outs s, (C.process clock record).exec p.python = (.ok outs, s) →
    ∃ outs' op, (MigratedOperator.flatMap record).exec p.java = (.ok outs', op) ∧
      List.Forall₂ SameRecord outs outs'

/-- From the state `s` on, the Java operator mirrors the Python operator on the records. -/
def Mirrors (C : BaseOperator F σ) (clock : Clock F) (s : σ) (records : List (Record F)) : Prop :=
  AtEachStep (step C clock) (Alike C clock) (exported C s) records

/-- The condition, on both states before a record and on the record, under which the outputs are alike. -/
def Decides (C : BaseOperator F σ) (condition : Clock F → σ → Record F → Record F → Prop) : Prop :=
  ∀ clock p record, p.java.logic = OperatorFactory.logicFor C.operatorType →
    (Alike C clock p record ↔
      (Returns C clock p record → condition clock p.python p.java.currentState record))

/-! ## From one record to all of them

The condition is on both states before a record, and both take the record; so along a sequence of records each one is
judged where it comes. -/

/-- Restoring and processing keep the logic that was selected. -/
theorem exported_logic (C : BaseOperator F σ) (s : σ) :
    (exported C s).java.logic = OperatorFactory.logicFor C.operatorType := MigratedOperator.opened_logic _

theorem step_logic (h : p.java.logic = OperatorFactory.logicFor C.operatorType) :
    (step C clock p record).java.logic = OperatorFactory.logicFor C.operatorType := by
  rw [← h]
  exact MigratedOperator.flatMap_logic record p.java

/-- **The run lemma.** A condition that decides one record decides every sequence of records. -/
theorem Decides.mirrors_run {condition : Clock F → σ → Record F → Record F → Prop} (h : Decides C condition)
    (clock : Clock F) (s : σ) (records : List (Record F)) :
    Mirrors C clock s records ↔
      AtEachStep (step C clock)
        (fun p record => Returns C clock p record → condition clock p.python p.java.currentState record)
        (exported C s) records := by
  apply atEachStep_congr (I := fun p => p.java.logic = OperatorFactory.logicFor C.operatorType)
  · exact fun p record hp => step_logic hp
  · exact fun p record _ hp => h clock p record hp
  · exact exported_logic C s

/-! ## One record

Two tools: both enrich the record and the names are compared one by one, or Java writes a name that is never in what
Python puts out. -/

/-- It is enough to look at the records on which Python returns. -/
theorem decides_of_returned {condition : Clock F → σ → Record F → Record F → Prop}
    (h : ∀ clock p record outs s, p.java.logic = OperatorFactory.logicFor C.operatorType →
      (C.process clock record).exec p.python = (.ok outs, s) →
      (Alike C clock p record ↔ condition clock p.python p.java.currentState record)) :
    Decides C condition := by
  intro clock p record hlogic
  constructor
  · rintro halike ⟨outs, s, hreturned⟩
    exact (h clock p record outs s hlogic hreturned).mp halike
  · intro hcondition outs s hreturned
    exact (h clock p record outs s hlogic hreturned).mpr (hcondition ⟨outs, s, hreturned⟩) outs s hreturned

omit [JavaRuntime F] in
/-- Both put out one record. -/
theorem alike_iff {out out' state' : Record F} {s : σ}
    (hpython : (C.process clock record).exec p.python = (.ok [out], s))
    (hjava : p.java.logic record p.java.currentState = .ok ⟨state', [out']⟩) :
    Alike C clock p record ↔ SameRecord out out' := by
  have hflatMap : (MigratedOperator.flatMap record).exec p.java =
      (.ok [out'], { p.java with flinkState := some state' }) := by
    rw [MigratedOperator.exec_flatMap, hjava]
  constructor
  · intro h
    obtain ⟨outs', op, houts, hsame⟩ := h _ _ hpython
    rw [hflatMap] at houts
    cases houts
    cases hsame with
    | cons hout _ => exact hout
  · intro h outs s' houts
    rw [hpython] at houts
    cases houts
    exact ⟨_, _, hflatMap, .cons h .nil⟩

omit [JavaRuntime F] in
/-- **Both enrich the record**, and Java writes nothing that Python does not write: the outputs are alike
    exactly where Java's has what Python wrote. -/
theorem alike_enriched {es es' : List (String × Value F)} {state' : Record F} {s : σ}
    (hpython : (C.process clock record).exec p.python = (.ok [record.update es], s))
    (hjava : p.java.logic record p.java.currentState = .ok ⟨state', [record.update es']⟩)
    (hes : (es.map Prod.fst).Nodup) (hsub : es'.map Prod.fst ⊆ es.map Prod.fst) :
    Alike C clock p record ↔ ∀ e ∈ es, (record.update es').get e.1 = some e.2 := by
  rw [alike_iff hpython hjava]
  exact Dict.get_update_congr_iff hes hsub

omit [JavaRuntime F] in
/-- Where the logic throws, nothing is alike. -/
theorem not_alike_of_error {outs : List (Record F)} {s : σ} {e : JavaException}
    (hpython : (C.process clock record).exec p.python = (.ok outs, s))
    (hjava : p.java.logic record p.java.currentState = .error e) : ¬ Alike C clock p record := by
  intro h
  obtain ⟨outs', op, houts, -⟩ := h _ _ hpython
  rw [MigratedOperator.exec_flatMap, hjava] at houts
  cases houts

omit [JavaRuntime F] in
/-- A name only the second outputs have tells them apart. -/
theorem not_same_of_name {outs outs' : List (Record F)} {name : String}
    (hlacks : ∀ out ∈ outs, out.get name = none) (hhas : ∃ out ∈ outs', out.get name ≠ none) :
    ¬ List.Forall₂ SameRecord outs outs' := by
  intro hsame
  induction hsame with
  | nil =>
      obtain ⟨out', hmem, -⟩ := hhas
      exact absurd hmem List.not_mem_nil
  | cons hout _ ih =>
      obtain ⟨out', hmem, hname⟩ := hhas
      rcases List.mem_cons.mp hmem with rfl | hmem
      · apply hname
        rw [← hout name]
        exact hlacks _ List.mem_cons_self
      · exact ih (fun out h => hlacks out (List.mem_cons_of_mem _ h)) ⟨out', hmem, hname⟩

/-- **A name only Java writes**: the outputs are never alike. -/
theorem decides_never (name : String)
    (hpython : ∀ (clock : Clock F) (s : σ) (record : Record F) outs t,
      (C.process clock record).exec s = (.ok outs, t) → ∀ out ∈ outs, out.get name = none)
    (hjava : ∀ (record state : Record F) result,
      OperatorFactory.logicFor C.operatorType record state = .ok result →
      ∃ out ∈ result.outputRecords, out.get name ≠ none) :
    Decides C (fun _ _ _ _ => False) := by
  apply decides_of_returned
  intro clock p record outs s hlogic hreturned
  refine iff_of_false (fun halike => ?_) not_false
  cases hresult : p.java.logic record p.java.currentState with
  | error e => exact not_alike_of_error hreturned hresult halike
  | ok result =>
      obtain ⟨outs', op, houts, hsame⟩ := halike outs s hreturned
      rw [MigratedOperator.exec_flatMap, hresult] at houts
      cases houts
      rw [hlogic] at hresult
      exact not_same_of_name (hpython clock p.python record outs s hreturned) (hjava _ _ _ hresult) hsame

end SideBySide

/-- Reading a number that is there. -/
theorem getDouble_of_get {map : Record F} {key : String} {x : F} (h : map.get key = some (.float x)) (dflt : F) :
    getDouble map key dflt = x := by
  unfold getDouble Dict.getD
  rw [h]
  rfl

omit [JavaRuntime F] in
/-- A name that is written is in the only output. -/
theorem exists_named_update {record : Record F} {es : List (String × Value F)} {name : String}
    (hname : name ∈ es.map Prod.fst) : ∃ out ∈ [record.update es], out.get name ≠ none :=
  ⟨_, List.mem_singleton_self _, Dict.get_update_ne_none hname⟩

omit [JavaRuntime F] in
/-- And so is a name of a `Map.of` that returned. -/
theorem exists_named_mapOf {es : List (String × Value F)} {output : Record F} {name : String}
    (h : mapOf es = .ok output) (hname : name ∈ es.map Prod.fst) : ∃ out ∈ [output], out.get name ≠ none := by
  unfold mapOf at h
  split at h
  · cases h
  · cases h
    exact exists_named_update hname

end Connector

namespace Workloads

open Lib Py Hea Connector SideBySide

variable {F : Type} [JavaRuntime F]

/-! ## The five that enrich the record

For each of them the entries that Python adds, and what Java computes from its own copy of the state. What Java does
not add has to be in the record beforehand. -/

namespace NormalizerOperator

/-- The record has the zone, the mean and the deviation that Python adds, and the score Java computes from
    `value` with its own mean and deviation is the score Python computes from `sensor_value`. -/
def Mirrored (s : NormalizerOperator F) (state record : Record F) : Prop :=
  ∃ value, (record.getD "sensor_value" (.float 0.0)).toFloat = .ok value ∧
    record.get "zone_id" = some (.str s.zoneId) ∧
    record.get "sensor_mean" = some (.float (s.nextMean value)) ∧
    record.get "sensor_std" = some (.float (s.nextStd value)) ∧
    (if PyRuntime.lt 0.0 (getDouble state "std" 1.0)
      then (getDouble record "value" 0.0 - getDouble state "mean" 0.0) / getDouble state "std" 1.0 else 0.0)
      = (value - s.nextMean value) / s.nextStd value

theorem decides : Decides (operator (F := F)) fun _ => Mirrored := by
  apply decides_of_returned
  intro clock p record outs t hlogic hreturned
  obtain ⟨value, hvalue, rfl⟩ := process_eq_ok clock hreturned
  have hjava := congrFun (congrFun hlogic record) p.java.currentState
  rw [alike_enriched hreturned (hjava.trans rfl) (by simp) (by simp)]
  unfold Mirrored
  simp only [hvalue, Except.ok.injEq, exists_eq_left', List.forall_mem_cons, Dict.get_update_singleton,
    String.reduceEq, if_true, if_false, Option.some.injEq, Value.float.injEq, List.not_mem_nil, false_imp_iff]
  tauto

end NormalizerOperator

namespace BinaryClassifier

/-- The record has the rounded score and the threshold that Python adds, and against its own threshold Java
    gives the rounded score the label and the confidence that Python gives the score. -/
def Mirrored (s : BinaryClassifier F) (state record : Record F) : Prop :=
  ∃ score, scoreOf record = .ok score ∧
    record.get "score" = some (.float (PyRuntime.round score 4)) ∧
    record.get "threshold" = some (.float s.threshold) ∧
    PyRuntime.le (getDouble state "threshold" 0.5) (PyRuntime.round score 4) = PyRuntime.le s.threshold score ∧
    (if PyRuntime.le (getDouble state "threshold" 0.5) (PyRuntime.round score 4)
      then PyRuntime.round score 4 else 1.0 - PyRuntime.round score 4) = PyRuntime.round (s.confidence score) 4

/-- Two labels. -/
theorem label_eq_iff {b c : Bool} : (if b then (1 : Int) else 0) = (if c then 1 else 0) ↔ b = c := by
  cases b <;> cases c <;> decide

theorem decides : Decides (operator (F := F)) fun _ => Mirrored := by
  apply decides_of_returned
  intro clock p record outs t hlogic hreturned
  obtain ⟨score, hscore, rfl⟩ := process_eq_ok clock hreturned
  have hjava := congrFun (congrFun hlogic record) p.java.currentState
  rw [alike_enriched hreturned (hjava.trans rfl) (by simp) (by simp)]
  unfold Mirrored
  simp only [hscore, Except.ok.injEq, exists_eq_left', List.forall_mem_cons, Dict.get_update_pair,
    String.reduceEq, if_true, if_false, Option.some.injEq, Value.float.injEq, Value.int.injEq, label_eq_iff,
    List.not_mem_nil, false_imp_iff]
  -- what Java reads as the score is then the rounded one
  constructor
  · rintro ⟨hlabel, hshown, hconfidence, hthreshold, -⟩
    rw [getDouble_of_get hshown] at hlabel hconfidence
    exact ⟨hshown, hthreshold, hlabel, hconfidence⟩
  · rintro ⟨hshown, hthreshold, hlabel, hconfidence⟩
    rw [getDouble_of_get hshown]
    exact ⟨hlabel, hshown, hconfidence, hthreshold, fun _ => trivial⟩

end BinaryClassifier

namespace RiskCheck

/-- The record has the category, the limit, the exposure and the breach count that Python adds, and against
    its own limit (`risk_limit`, which no exported state has) Java finds the exposure exceeding where Python
    does, and in the same ratio. -/
def Mirrored (s : RiskCheck F) (state record : Record F) : Prop :=
  ∃ exposure, record.get "exposure" = some (.float exposure) ∧ pyMax 0.0 exposure = exposure ∧
    record.get "risk_category" = some s.riskCategory ∧
    record.get "limit" = some (.float s.limit) ∧
    record.get "breach_count" = some (.int (s.nextBreachCount exposure)) ∧
    PyRuntime.lt (getDouble state "risk_limit" 1000000.0) exposure = PyRuntime.lt s.limit exposure ∧
    (if PyRuntime.lt 0.0 (getDouble state "risk_limit" 1000000.0)
      then exposure / getDouble state "risk_limit" 1000000.0 else 0.0)
      = if PyRuntime.lt 0.0 s.limit then exposure / s.limit else 0.0

theorem decides : Decides (operator (F := F)) fun _ => Mirrored := by
  apply decides_of_returned
  intro clock p record outs t hlogic hreturned
  obtain ⟨value, hvalue, rfl⟩ := process_eq_ok clock hreturned
  have hjava := congrFun (congrFun hlogic record) p.java.currentState
  rw [alike_enriched hreturned (hjava.trans rfl) (by simp) (by simp)]
  unfold Mirrored
  simp only [List.forall_mem_cons, Dict.get_update_pair, String.reduceEq, if_true, if_false, Option.some.injEq,
    Value.float.injEq, Value.bool.injEq, List.not_mem_nil, false_imp_iff]
  -- an exposure in the record is the value Python reads
  have hread : ∀ {x}, record.get "exposure" = some (.float x) → x = value := by
    intro x hx
    unfold Dict.getD at hvalue
    rw [hx] at hvalue
    exact Except.ok.inj hvalue
  constructor
  · rintro ⟨hcategory, hlimit, hexposure, hexceeded, hratio, hcount, -⟩
    rw [getDouble_of_get hexposure] at hexceeded hratio
    have hmax : pyMax 0.0 value = value := hread hexposure
    rw [hmax] at hexposure hexceeded hratio hcount
    exact ⟨value, hexposure, hmax, hcategory, hlimit, hcount, hexceeded, hratio⟩
  · rintro ⟨x, hexposure, hmax, hcategory, hlimit, hcount, hexceeded, hratio⟩
    cases hread hexposure
    rw [getDouble_of_get hexposure, hmax]
    exact ⟨hcategory, hlimit, hexposure, hexceeded, hratio, hcount, fun _ => trivial⟩

end RiskCheck

namespace AnomalyDetector

/-- The score Java gives a value. -/
def flinkScore (state : Record F) (value : F) : F :=
  if PyRuntime.lt 0.0 (getDouble state "ewma_std" 1.0)
  then pyAbs (value - getDouble state "ewma_mean" 0.0) / getDouble state "ewma_std" 1.0 else 0.0

/-- The record has the class, the rounded mean and deviation and the anomaly count that Python adds, and the
    score Java computes is the one Python shows, on the same side of 3 as Python's is of its threshold. -/
def Mirrored (s : AnomalyDetector F) (state record : Record F) : Prop :=
  ∃ value square, (record.getD "value" (.float 0.0)).toFloat = .ok value ∧
    PyRuntime.sq (value - s.ewmaMean) = some square ∧
    record.get "metric_class" = some s.metricClass ∧
    record.get "ewma_mean" = some (.float (PyRuntime.round (s.nextMean value) 6)) ∧
    record.get "ewma_std" = some (.float (PyRuntime.round (s.nextStd square) 6)) ∧
    record.get "anomaly_count" = some (.int (s.nextAnomalyCount (s.zScore value square))) ∧
    PyRuntime.lt 3.0 (flinkScore state (getDouble record "value" 0.0))
      = PyRuntime.lt s.zThreshold (s.zScore value square) ∧
    flinkScore state (getDouble record "value" 0.0) = PyRuntime.round (s.zScore value square) 4

theorem decides : Decides (operator (F := F)) fun _ => Mirrored := by
  apply decides_of_returned
  intro clock p record outs t hlogic hreturned
  obtain ⟨value, square, hvalue, hsquare, rfl⟩ := process_eq_ok clock hreturned
  have hjava := congrFun (congrFun hlogic record) p.java.currentState
  rw [alike_enriched hreturned (hjava.trans rfl) (by simp) (by simp)]
  unfold Mirrored flinkScore
  simp only [hvalue, hsquare, Except.ok.injEq, Option.some.injEq, exists_and_left, exists_eq_left',
    List.forall_mem_cons, Dict.get_update_pair, String.reduceEq, if_true, if_false, Value.float.injEq,
    Value.bool.injEq, List.not_mem_nil, false_imp_iff]
  tauto

end AnomalyDetector

namespace ComplianceLogger

/-- The event type is text or missing, the record has the domain, the counts and the time that Python adds,
    and the sequence number Java is at is Python's. -/
def Mirrored (clock : Clock F) (s : ComplianceLogger F) (state record : Record F) : Prop :=
  (∃ eventType, castString (record.getD "event_type" (.str "unknown")) = .ok eventType) ∧
    record.get "compliance_domain" = some s.domain ∧
    record.get "event_type_counts" = some (countsValue
      { s with eventCounts := s.nextCounts (record.getD "event_type" (.str "unknown")).toStr }) ∧
    record.get "logged_at" = some (.float (clock.time 1)) ∧
    narrow 64 (getLong state "logged_count" 0 + 1) = s.logSeq + 1

theorem decides : Decides (operator (F := F)) Mirrored := by
  apply decides_of_returned
  intro clock p record outs t hlogic hreturned
  have houts := process_eq_ok clock hreturned
  subst houts
  have hjava := congrFun (congrFun hlogic record) p.java.currentState
  change _ = OperatorFactory.complianceLogger record _ at hjava
  unfold OperatorFactory.complianceLogger at hjava
  unfold Mirrored
  cases heventType : castString (record.getD "event_type" (.str "unknown")) with
  | error e =>
      rw [heventType] at hjava
      refine iff_of_false (not_alike_of_error hreturned hjava) ?_
      rintro ⟨⟨_, h⟩, -⟩
      cases h
  | ok eventType =>
      rw [heventType] at hjava
      rw [alike_enriched hreturned hjava (by simp) (by simp)]
      simp only [List.forall_mem_cons, Dict.get_update_pair, String.reduceEq, if_true, if_false,
        Option.some.injEq, Value.int.injEq, List.not_mem_nil, false_imp_iff, Except.ok.injEq,
        exists_eq', true_and]
      tauto

end ComplianceLogger

/-! ## The six that never agree

Each of them puts out records of its own, and a name in Java's that is in none of Python's. -/

namespace FeatureAggWindow

theorem decides : Decides (operator (F := F)) fun _ _ _ _ => False := by
  refine decides_never "sum" (fun clock _ _ _ _ => process_lacks clock) fun record state result h => ?_
  change OperatorFactory.featureAggWindow record state = .ok result at h
  obtain ⟨window, -, h⟩ := bind_eq_ok.mp h
  obtain ⟨window', -, h⟩ := bind_eq_ok.mp h
  obtain ⟨values, -, h⟩ := bind_eq_ok.mp h
  obtain ⟨out, hout, h⟩ := bind_eq_ok.mp h
  cases h
  exact exists_named_mapOf hout (by simp)

end FeatureAggWindow

namespace MultiStreamJoin

theorem decides : Decides (operator (F := F)) fun _ _ _ _ => False := by
  refine decides_never "joined_records" (fun clock _ _ _ _ => process_lacks clock) fun record state result h => ?_
  change OperatorFactory.multiStreamJoin record state = .ok result at h
  obtain ⟨key, -, h⟩ := bind_eq_ok.mp h
  obtain ⟨joinBuffer, -, h⟩ := bind_eq_ok.mp h
  cases h
  exact exists_named_update (by simp)

end MultiStreamJoin

namespace VehicleDetector

theorem decides : Decides (operator (F := F)) fun _ _ _ _ => False := by
  refine decides_never "confidence_score" (fun clock _ _ _ _ => process_lacks clock) fun record state result h => ?_
  change OperatorFactory.vehicleDetector record state = .ok result at h
  cases h
  exact exists_named_update (by simp)

end VehicleDetector

namespace ZoneAggregator

theorem decides : Decides (operator (F := F)) fun _ _ _ _ => False := by
  refine decides_never "vehicle_count" (fun clock _ _ _ _ => process_lacks clock) fun record state result h => ?_
  change OperatorFactory.zoneAggregator record state = .ok result at h
  obtain ⟨zone, -, h⟩ := bind_eq_ok.mp h
  obtain ⟨counts, -, h⟩ := bind_eq_ok.mp h
  obtain ⟨detected, -, h⟩ := bind_eq_ok.mp h
  obtain ⟨counts', -, h⟩ := bind_eq_ok.mp h
  obtain ⟨out, hout, h⟩ := bind_eq_ok.mp h
  cases h
  exact exists_named_mapOf hout (by simp)

end ZoneAggregator

namespace PatternDetector

theorem decides : Decides (operator (F := F)) fun _ _ _ _ => False := by
  refine decides_never "pattern_detected" (fun clock _ _ _ _ => process_lacks clock) fun record state result h => ?_
  change OperatorFactory.patternDetector record state = .ok result at h
  obtain ⟨pattern, -, h⟩ := bind_eq_ok.mp h
  obtain ⟨detected, -, h⟩ := bind_eq_ok.mp h
  obtain ⟨pattern', -, h⟩ := bind_eq_ok.mp h
  obtain ⟨patternDetected, -, h⟩ := bind_eq_ok.mp h
  cases h
  exact exists_named_update (by simp)

end PatternDetector

namespace StatAggregator

theorem decides : Decides (operator (F := F)) fun _ _ _ _ => False := by
  refine decides_never "sum" (fun clock _ _ _ _ => process_lacks clock) fun record state result h => ?_
  change OperatorFactory.statAggregator record state = .ok result at h
  obtain ⟨out, hout, h⟩ := bind_eq_ok.mp h
  cases h
  exact exists_named_mapOf hout (by simp)

end StatAggregator

/-! ## The eleven types

All of them under one statement, by the type. -/

/-- The operator types of the factory. -/
inductive OperatorType where
  | normalizerOperator | featureAggWindow | multiStreamJoin | binaryClassifier
  | vehicleDetector | zoneAggregator | patternDetector
  | riskCheck | anomalyDetector | statAggregator | complianceLogger
  deriving DecidableEq

namespace OperatorType

/-- The attributes of the Python class. -/
def Attributes (F : Type) [PyRuntime F] : OperatorType → Type
  | normalizerOperator => NormalizerOperator F
  | featureAggWindow   => FeatureAggWindow F
  | multiStreamJoin    => MultiStreamJoin F
  | binaryClassifier   => BinaryClassifier F
  | vehicleDetector    => VehicleDetector F
  | zoneAggregator     => ZoneAggregator F
  | patternDetector    => PatternDetector F
  | riskCheck          => RiskCheck F
  | anomalyDetector    => AnomalyDetector F
  | statAggregator     => StatAggregator F
  | complianceLogger   => ComplianceLogger F

/-- The Python class. -/
def operator (F : Type) [PyRuntime F] : (t : OperatorType) → BaseOperator F (t.Attributes F)
  | normalizerOperator => NormalizerOperator.operator
  | featureAggWindow   => FeatureAggWindow.operator
  | multiStreamJoin    => MultiStreamJoin.operator
  | binaryClassifier   => BinaryClassifier.operator
  | vehicleDetector    => VehicleDetector.operator
  | zoneAggregator     => ZoneAggregator.operator
  | patternDetector    => PatternDetector.operator
  | riskCheck          => RiskCheck.operator
  | anomalyDetector    => AnomalyDetector.operator
  | statAggregator     => StatAggregator.operator
  | complianceLogger   => ComplianceLogger.operator

/-- The condition on both states and a record under which the outputs for it are alike. -/
def Mirrored (clock : Clock F) : (t : OperatorType) → t.Attributes F → Record F → Record F → Prop
  | normalizerOperator => NormalizerOperator.Mirrored
  | binaryClassifier   => BinaryClassifier.Mirrored
  | riskCheck          => RiskCheck.Mirrored
  | anomalyDetector    => AnomalyDetector.Mirrored
  | complianceLogger   => ComplianceLogger.Mirrored clock
  | featureAggWindow | multiStreamJoin | vehicleDetector | zoneAggregator | patternDetector | statAggregator =>
      fun _ _ _ => False

theorem decides (t : OperatorType) : Decides (t.operator F) fun clock => t.Mirrored clock := by
  cases t with
  | normalizerOperator => exact NormalizerOperator.decides
  | featureAggWindow   => exact FeatureAggWindow.decides
  | multiStreamJoin    => exact MultiStreamJoin.decides
  | binaryClassifier   => exact BinaryClassifier.decides
  | vehicleDetector    => exact VehicleDetector.decides
  | zoneAggregator     => exact ZoneAggregator.decides
  | patternDetector    => exact PatternDetector.decides
  | riskCheck          => exact RiskCheck.decides
  | anomalyDetector    => exact AnomalyDetector.decides
  | statAggregator     => exact StatAggregator.decides
  | complianceLogger   => exact ComplianceLogger.decides

/-- **Where Java mirrors Python.** For every operator type, all attributes of the Python operator and every
    sequence of records, the Java operator started from the exported state puts out what the Python operator
    puts out exactly if every record on which Python returns meets the condition of the type when it is
    processed. For six of the types no record does. -/
theorem mirrors_iff (t : OperatorType) (clock : Clock F) (s : t.Attributes F) (records : List (Record F)) :
    Mirrors (t.operator F) clock s records ↔
      AtEachStep (SideBySide.step (t.operator F) clock)
        (fun p record => Returns (t.operator F) clock p record →
          t.Mirrored clock p.python p.java.currentState record)
        (exported (t.operator F) s) records :=
  (decides t).mirrors_run clock s records

end OperatorType

end Workloads
end HybridStream
