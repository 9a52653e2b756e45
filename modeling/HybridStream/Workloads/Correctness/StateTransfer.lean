import HybridStream.Hea.Snapshot
import HybridStream.Py.Exact
import HybridStream.Workloads.Correctness.Reached

/-!
# `Workloads.Correctness.StateTransfer` — which states survive a migration

An operator's state is exported with `create_migration_snapshot`, stored, read back by `deserialize` and
taken over by a fresh instance with `restore_state`. Only the fields the schema of the class names cross
(`Hea.deserialize_created`), and the v1 schemas name almost none of the entries the operators export: for ten
of the eleven classes none, for `ZoneAggregator` the zone id. Every other attribute restarts from the default
that `restore_state` has for it. So a state survives exactly where it has those defaults already, and
`survives_iff` says for each class which states these are.
-/

namespace HybridStream
namespace Workloads

open Lib Py Common Hea

variable {F σ : Type} [PyRuntime F]

/-! ## Surviving a migration

Exported, stored, read back and restored: what the schema does not name is gone, and what it names and the state does
not have is `None`. -/

/-- The stored snapshot gives a fresh instance the state of the original. -/
def Survives (mp : MessagePack F) (C : BaseOperator F σ) (s fresh : σ) (clock : Clock F) (store : ObjectStore)
    (key : String) : Prop :=
  ∃ restored, importSnapshot mp registryV1 C fresh clock store key = .ok restored ∧
    C.getState restored = C.getState s

/-- Wherever the export of `s` succeeds, its state survives exactly under the condition. -/
def SurvivesIff (mp : MessagePack F) (C : BaseOperator F σ) (s fresh : σ) (condition : Prop) : Prop :=
  ∀ (clock : Clock F) (store store' : ObjectStore) (migrationSeq byteSize : Int) (key : String)
    (drainOffsetMap : Value F), drainOffsetMap.packable = true →
    createMigrationSnapshot mp registryV1 C s store migrationSeq drainOffsetMap = .ok (key, byteSize, store') →
    (Survives mp C s fresh clock store' key ↔ condition)

variable {mp : MessagePack F} {C : BaseOperator F σ} {s fresh : σ} {schema : Schema}

/-- The import runs `restore_state` on the surviving part of the state. -/
theorem survivesIff_of_restore {condition : Prop} (restored : Clock F → σ)
    (hload : registryV1.load C.operatorType 1 = some schema)
    (hpackable : ∀ name ∈ schema.fields, ((C.getState s).getD name .none).packable = true)
    (hrestore : ∀ clock drainOffsetMap,
      (C.restoreState clock (survivingState C s drainOffsetMap schema)).exec fresh
        = (.ok ⟨⟩, restored clock))
    (hstate : ∀ clock, C.getState (restored clock) = C.getState s ↔ condition) :
    SurvivesIff mp C s fresh condition := by
  intro clock store store' migrationSeq byteSize key drainOffsetMap hoffsets hcreated
  obtain ⟨bytes, hbytes, hdoc⟩ :=
    deserialize_created hcreated hload (packable_stateWithOffsets hpackable hoffsets)
  have himport : importSnapshot mp registryV1 C fresh clock store' key = .ok (restored clock) := by
    simp only [importSnapshot, hbytes, hdoc, hrestore, bind, Except.bind]
  rw [← hstate clock]
  constructor
  · rintro ⟨r, hr, hsame⟩
    cases Except.ok.inj (himport.symm.trans hr)
    exact hsame
  · exact fun hsame => ⟨_, himport, hsame⟩

/-- Schema fields none of which the state has are exported as `None`. -/
theorem packable_of_disjoint {es : List (String × Value F)} {names : List String}
    (h : ∀ name ∈ names, name ∉ es.map Prod.fst) :
    ∀ name ∈ names, ((Dict.ofList es).getD name .none).packable = true := by
  intro name hname
  rw [Dict.getD_ofList_of_not_mem (h name hname)]
  exact Value.packable_none

/-! ## The eleven classes

For each class the condition under which a fresh instance ends in the state of the original, read off its fields and
those of its schema. -/

namespace NormalizerOperator

theorem survives_iff (mp : MessagePack F) (operatorId zoneId : String) (alpha : F)
    (stream : List (Clock F × Record F)) :
    SurvivesIff mp operator (operator.run (new operatorId zoneId alpha) stream) (new operatorId zoneId alpha)
      ((operator.run (new operatorId zoneId alpha) stream).count = 0 ∧ alpha = 0.01) := by
  have hreached := run_reached operatorId zoneId alpha stream
  generalize operator.run (new operatorId zoneId alpha) stream = s at hreached ⊢
  refine survivesIff_of_restore (fun _ => new operatorId zoneId 0.01) rfl
    (packable_of_disjoint (by simp)) ?_ ?_
  · intro clock drainOffsetMap
    -- the schema has no name that `restore_state` reads, so each takes its default
    simp (disch := decide) [operator, restoreState, new, Proc.exec_bind, getD_survivingState_of_not_mem]
  · intro _
    obtain ⟨hzone, halpha, -, hfresh⟩ := hreached
    show getState _ = getState _ ↔ _
    -- two exports agree exactly where their entries do
    rw [getState, getState, Dict.ofList_inj (by simp) (by simp)]
    simp only [new, List.cons.injEq, Prod.mk.injEq, true_and, and_true, Value.float.injEq,
      Value.int.injEq, hzone, halpha]
    constructor
    · exact fun ⟨_, _, hcount, halpha⟩ => ⟨hcount.symm, halpha.symm⟩
    · exact fun ⟨hcount, halpha⟩ => ⟨(hfresh hcount).1.symm, (hfresh hcount).2.symm, hcount.symm, halpha.symm⟩

end NormalizerOperator

namespace FeatureAggWindow

theorem survives_iff (mp : MessagePack F) {operatorId zoneId : String} {windowSize : Int}
    {s₀ : FeatureAggWindow F} (hnew : new operatorId zoneId windowSize = .ok s₀)
    (stream : List (Clock F × Record F)) :
    SurvivesIff mp operator (operator.run s₀ stream) s₀
      ((operator.run s₀ stream).window = [] ∧ windowSize = 1000) := by
  obtain ⟨-, hreached⟩ := run_reached hnew stream
  obtain ⟨-, hfresh⟩ := run_reached hnew []
  generalize operator.run s₀ stream = s at hreached ⊢
  refine survivesIff_of_restore
    (fun _ => { s₀ with windowSize := 1000, window := [], emitEvery := 100, countSinceEmit := 0 })
    rfl (packable_of_disjoint (by simp)) ?_ ?_
  · intro clock drainOffsetMap
    simp (disch := decide) [operator, restoreState, Proc.exec_bind, getD_survivingState_of_not_mem, dequeOf_nil]
  · intro _
    show getState _ = getState _ ↔ _
    rw [getState, getState, Dict.ofList_inj (by simp) (by simp)]
    simp only [List.cons.injEq, Prod.mk.injEq, true_and, and_true, Value.int.injEq, Value.ofFloats_inj,
      hreached.zoneId, hreached.windowSize, hreached.emitEvery, show s₀.zoneId = zoneId from hfresh.zoneId]
    exact and_congr eq_comm eq_comm

end FeatureAggWindow

namespace MultiStreamJoin

theorem survives_iff (mp : MessagePack F) {clock : Clock F} {operatorId : String} {nZones : Int}
    {windowTimeoutMs : F} {s₀ : MultiStreamJoin F}
    (hnew : new clock operatorId nZones windowTimeoutMs = .ok s₀) (fresh : MultiStreamJoin F)
    (stream : List (Clock F × Record F)) :
    SurvivesIff mp operator (operator.run s₀ stream) fresh
      ((operator.run s₀ stream).currentWindow = ∅ ∧ nZones = 5 ∧ floatDiv windowTimeoutMs 1000.0 = .ok 0.1) := by
  have h₀ : ∃ timeout, floatDiv windowTimeoutMs 1000.0 = .ok timeout ∧ s₀.Reached nZones timeout := by
    unfold new at hnew
    cases htimeout : floatDiv windowTimeoutMs 1000.0 with
    | error e => rw [htimeout] at hnew; cases hnew
    | ok timeout =>
        rw [htimeout] at hnew
        cases hnew
        exact ⟨timeout, rfl, rfl, rfl⟩
  obtain ⟨timeout, htimeout, h₀⟩ := h₀
  have hreached : (operator.run s₀ stream).Reached nZones timeout :=
    BaseOperator.run_keeps (C := operator) (process_keeps nZones timeout) stream h₀
  generalize operator.run s₀ stream = s at hreached ⊢
  refine survivesIff_of_restore
    (fun clock => { fresh with
      nZones := 5, windowTimeout := 0.1, currentWindow := ∅, windowStart := clock.monotonic })
    rfl (packable_of_disjoint (by simp)) ?_ ?_
  -- of the state nothing crosses, so `restore_state` takes its defaults
  · intro clock drainOffsetMap
    have hwindow : windowOf (.dict [] : Value F) = .ok ∅ := rfl
    simp (disch := decide) [operator, restoreState, Proc.exec_bind, getD_survivingState_of_not_mem, hwindow]
  · intro _
    -- what is exported afterwards is what was exported before, entry by entry
    show getState _ = getState _ ↔ _
    rw [getState, getState, Dict.ofList_inj (by simp) (by simp)]
    simp only [List.cons.injEq, Prod.mk.injEq, true_and, and_true, Value.int.injEq, Value.float.injEq,
      Value.dict.injEq, hreached.nZones, hreached.windowTimeout, htimeout, Except.ok.injEq,
      Dict.entries_empty, List.map_nil, eq_comm (a := []), List.map_eq_nil_iff, Dict.entries_eq_nil]
    tauto

end MultiStreamJoin

namespace BinaryClassifier

theorem survives_iff (mp : MessagePack F) (operatorId : String) (threshold : F)
    (stream : List (Clock F × Record F)) :
    SurvivesIff mp operator (operator.run (new operatorId threshold) stream) (new operatorId threshold)
      (threshold = 0.6) := by
  rw [run_eq]
  refine survivesIff_of_restore (fun _ => new operatorId 0.6) rfl
    (packable_of_disjoint (by simp)) ?_ ?_
  · intro clock drainOffsetMap
    simp (disch := decide) [operator, restoreState, new, Proc.exec_bind, getD_survivingState_of_not_mem]
  · intro _
    show getState _ = getState _ ↔ _
    rw [getState, getState, Dict.ofList_inj (by simp) (by simp)]
    simp only [new, List.cons.injEq, Prod.mk.injEq, true_and, and_true, Value.float.injEq]
    exact eq_comm

end BinaryClassifier

namespace VehicleDetector

theorem survives_iff (mp : MessagePack F) (operatorId sensorId : String) (alpha : F)
    (stream : List (Clock F × Record F)) :
    SurvivesIff mp operator (operator.run (new operatorId sensorId alpha) stream) (new operatorId sensorId alpha)
      (alpha = 0.2 ∧ (operator.run (new operatorId sensorId alpha) stream).ewmaOcc = 0.0 ∧
        (operator.run (new operatorId sensorId alpha) stream).ewmaSpeed = 0.0 ∧
        (operator.run (new operatorId sensorId alpha) stream).detectionCount = 0) := by
  have hreached := run_reached operatorId sensorId alpha stream
  generalize operator.run (new operatorId sensorId alpha) stream = s at hreached ⊢
  refine survivesIff_of_restore (fun _ => new operatorId sensorId 0.2) rfl
    (packable_of_disjoint (by simp)) ?_ ?_
  · intro clock drainOffsetMap
    simp (disch := decide) [operator, restoreState, new, Proc.exec_bind, getD_survivingState_of_not_mem,
      dequeOf_nil]
  · intro _
    obtain ⟨hsensor, halpha, -, hfresh⟩ := hreached
    show getState _ = getState _ ↔ _
    rw [getState, getState, Dict.ofList_inj (by simp) (by simp)]
    simp only [new, List.cons.injEq, Prod.mk.injEq, true_and, and_true, Value.float.injEq, Value.int.injEq,
      Value.ofFloats_inj, hsensor, halpha]
    constructor
    · exact fun ⟨ha, hocc, hspeed, hcount, _⟩ => ⟨ha.symm, hocc.symm, hspeed.symm, hcount.symm⟩
    · exact fun ⟨ha, hocc, hspeed, hcount⟩ => ⟨ha.symm, hocc.symm, hspeed.symm, hcount.symm,
        (hfresh hcount).1.symm, (hfresh hcount).2.symm⟩

end VehicleDetector

namespace ZoneAggregator

theorem survives_iff (mp : MessagePack F) (clock₀ clock₁ : Clock F) (operatorId zoneId : String)
    (nSensors : Int) (stream : List (Clock F × Record F)) :
    SurvivesIff mp operator (operator.run (new clock₀ operatorId zoneId nSensors) stream)
      (new clock₁ operatorId zoneId nSensors)
      (nSensors = 25 ∧ (operator.run (new clock₀ operatorId zoneId nSensors) stream).zoneTotal = 0) := by
  have hreached := run_reached clock₀ operatorId zoneId nSensors stream
  generalize operator.run (new clock₀ operatorId zoneId nSensors) stream = s at hreached ⊢
  have hzoneId : (getState s).getD "zone_id" .none = .str zoneId := by
    show s.zoneId = _
    exact hreached.zoneId
  refine survivesIff_of_restore (fun clock => new clock operatorId zoneId 25) rfl ?_ ?_ ?_
  · intro name hname
    rcases List.mem_cons.mp hname with rfl | hname
    · rw [show operator.getState s = getState s from rfl, hzoneId]
      exact Value.packable_str _
    · refine packable_of_disjoint ?_ name hname
      simp
  · intro clock drainOffsetMap
    -- `zone_id` is the one field of the state that its schema has
    have hcounts : countsOf (.dict [] : Value F) = .ok ∅ := rfl
    have hzone : ∀ dflt, (survivingState operator s drainOffsetMap
        ⟨1, "ZoneAggregator", ["zone_id", "flow_counters", "window_buffers", "watermark_ms",
          "kafka_offset_map"]⟩).getD "zone_id" dflt = .str zoneId := by
      intro dflt
      unfold Dict.getD
      rw [get_survivingState_of_mem List.mem_cons_self, stateWithOffsets, Dict.getD,
        Dict.get_set_ne _ (by decide)]
      show ((getState s).getD "zone_id" .none).untuple = _
      rw [hzoneId, Value.untuple_str]
    show Proc.exec (restoreState clock _) _ = _
    simp (disch := decide) [restoreState, new, Proc.exec_bind, getD_survivingState_of_not_mem, hcounts, hzone]
  · intro _
    obtain ⟨hzone, hsensors, hemit, -, hfresh⟩ := hreached
    show getState _ = getState _ ↔ _
    rw [getState, getState, Dict.ofList_inj (by simp) (by simp)]
    simp only [new, List.cons.injEq, Prod.mk.injEq, true_and, and_true, Value.int.injEq, Value.dict.injEq,
      hzone, hsensors, hemit]
    constructor
    · exact fun ⟨hn, _, htotal⟩ => ⟨hn.symm, htotal.symm⟩
    · exact fun ⟨hn, htotal⟩ => ⟨hn.symm, by rw [hfresh htotal], htotal.symm⟩

end ZoneAggregator

namespace PatternDetector

theorem survives_iff (mp : MessagePack F) (operatorId : String) (threshold : F)
    (stream : List (Clock F × Record F)) :
    SurvivesIff mp operator (operator.run (new operatorId threshold) stream) (new operatorId threshold)
      (threshold = 0.7 ∧ (operator.run (new operatorId threshold) stream).zoneHistory = ∅) := by
  have hreached := run_reached operatorId threshold stream
  generalize operator.run (new operatorId threshold) stream = s at hreached ⊢
  refine survivesIff_of_restore (fun _ => new operatorId 0.7) rfl
    (packable_of_disjoint (by simp)) ?_ ?_
  · intro clock drainOffsetMap
    have hhistory : historyOf (.dict [] : Value F) = .ok ∅ := rfl
    simp (disch := decide) [operator, restoreState, new, Proc.exec_bind, getD_survivingState_of_not_mem,
      hhistory]
  · intro _
    obtain ⟨hthreshold, hfresh⟩ := hreached
    show getState _ = getState _ ↔ _
    rw [getState, getState, Dict.ofList_inj (by simp) (by simp)]
    simp only [new, List.cons.injEq, Prod.mk.injEq, true_and, and_true, Value.float.injEq, Value.int.injEq,
      Value.dict.injEq, hthreshold, Dict.entries_empty, List.map_nil, eq_comm (a := []), List.map_eq_nil_iff,
      Dict.entries_eq_nil]
    constructor
    · exact fun ⟨ht, hhistory, _⟩ => ⟨ht.symm, hhistory⟩
    · exact fun ⟨ht, hhistory⟩ => ⟨ht.symm, hhistory, (hfresh hhistory).symm⟩

end PatternDetector

namespace RiskCheck

theorem survives_iff (mp : MessagePack F) (operatorId category : String)
    (stream : List (Clock F × Record F)) :
    SurvivesIff mp operator (operator.run (new operatorId category) stream) (new operatorId category)
      (categories.getD category (1000000.0 : F) = 1000000.0 ∧
        (operator.run (new operatorId category) stream).totalChecked = 0) := by
  have hreached := run_reached operatorId category stream
  generalize operator.run (new operatorId category) stream = s at hreached ⊢
  refine survivesIff_of_restore
    (fun _ => { new operatorId category with limit := 1000000.0 }) rfl
    (packable_of_disjoint (by simp)) ?_ ?_
  · intro clock drainOffsetMap
    simp (disch := decide) [operator, restoreState, new, Proc.exec_bind, getD_survivingState_of_not_mem]
  · intro _
    obtain ⟨hcategory, hlimit, -, hfresh⟩ := hreached
    show getState _ = getState _ ↔ _
    rw [getState, getState, Dict.ofList_inj (by simp) (by simp)]
    simp only [new, List.cons.injEq, Prod.mk.injEq, true_and, and_true, Value.float.injEq, Value.int.injEq,
      hcategory, hlimit]
    constructor
    · exact fun ⟨hl, _, htotal⟩ => ⟨hl.symm, htotal.symm⟩
    · exact fun ⟨hl, htotal⟩ => ⟨hl.symm, (hfresh htotal).symm, htotal.symm⟩

end RiskCheck

namespace AnomalyDetector

theorem survives_iff (mp : MessagePack F) (operatorId metricClass : String) (alpha zThreshold : F)
    (stream : List (Clock F × Record F)) :
    SurvivesIff mp operator (operator.run (new operatorId metricClass alpha zThreshold) stream)
      (new operatorId metricClass alpha zThreshold)
      (alpha = 0.2 ∧ zThreshold = 3.0 ∧
        (operator.run (new operatorId metricClass alpha zThreshold) stream).ewmaMean = 0.0 ∧
        (operator.run (new operatorId metricClass alpha zThreshold) stream).ewmaM2 = 1.0 ∧
        (operator.run (new operatorId metricClass alpha zThreshold) stream).recentZscores = []) := by
  have hreached := run_reached operatorId metricClass alpha zThreshold stream
  generalize operator.run (new operatorId metricClass alpha zThreshold) stream = s at hreached ⊢
  refine survivesIff_of_restore (fun _ => new operatorId metricClass 0.2 3.0) rfl
    (packable_of_disjoint (by simp)) ?_ ?_
  · intro clock drainOffsetMap
    simp (disch := decide) [operator, restoreState, new, Proc.exec_bind, getD_survivingState_of_not_mem,
      dequeOf_nil]
  · intro _
    obtain ⟨hclass, halpha, hthreshold, hfresh⟩ := hreached
    show getState _ = getState _ ↔ _
    rw [getState, getState, Dict.ofList_inj (by simp) (by simp)]
    simp only [new, List.cons.injEq, Prod.mk.injEq, true_and, and_true, Value.float.injEq, Value.int.injEq,
      Value.ofFloats_inj, hclass, halpha, hthreshold]
    constructor
    · exact fun ⟨ha, hz, hmean, hm2, _, hscores⟩ => ⟨ha.symm, hz.symm, hmean.symm, hm2.symm, hscores.symm⟩
    · exact fun ⟨ha, hz, hmean, hm2, hscores⟩ =>
        ⟨ha.symm, hz.symm, hmean.symm, hm2.symm, (hfresh hscores).symm, hscores.symm⟩

end AnomalyDetector

namespace StatAggregator

theorem survives_iff (mp : MessagePack F) (operatorId instrumentClass : String)
    (stream : List (Clock F × Record F)) :
    SurvivesIff mp operator (operator.run (new operatorId instrumentClass) stream)
      (new operatorId instrumentClass) ((operator.run (new operatorId instrumentClass) stream).count = 0) := by
  have hreached := run_reached operatorId instrumentClass stream
  generalize operator.run (new operatorId instrumentClass) stream = s at hreached ⊢
  refine survivesIff_of_restore (fun _ => new operatorId instrumentClass) rfl
    (packable_of_disjoint (by simp)) ?_ ?_
  · intro clock drainOffsetMap
    simp (disch := decide) [operator, restoreState, new, Proc.exec_bind, getD_survivingState_of_not_mem,
      extremumOf]
  · intro _
    obtain ⟨hclass, -, hfresh⟩ := hreached
    show getState _ = getState _ ↔ _
    rw [getState, getState, Dict.ofList_inj (by simp) (by simp)]
    simp only [new, List.cons.injEq, Prod.mk.injEq, true_and, and_true, Value.float.injEq, Value.int.injEq,
      hclass]
    constructor
    · exact fun ⟨hcount, _⟩ => hcount.symm
    · intro hcount
      obtain ⟨hmean, hm2, hmin, hmax⟩ := hfresh hcount
      rw [hmean, hm2, hmin, hmax]
      exact ⟨hcount.symm, rfl, rfl, rfl, rfl⟩

end StatAggregator

namespace ComplianceLogger

theorem survives_iff (mp : MessagePack F) (operatorId domain : String)
    (stream : List (Clock F × Record F)) :
    SurvivesIff mp operator (operator.run (new operatorId domain) stream) (new operatorId domain)
      ((operator.run (new operatorId domain) stream).logSeq = 0) := by
  have hreached := run_reached operatorId domain stream
  generalize operator.run (new operatorId domain) stream = s at hreached ⊢
  refine survivesIff_of_restore (fun _ => new operatorId domain) rfl
    (packable_of_disjoint (by simp)) ?_ ?_
  · intro clock drainOffsetMap
    have hcounts : countsOf (.dict [] : Value F) = .ok ∅ := rfl
    simp (disch := decide) [operator, restoreState, new, Proc.exec_bind, getD_survivingState_of_not_mem,
      hcounts]
  · intro _
    obtain ⟨hdomain, -, hfresh⟩ := hreached
    show getState _ = getState _ ↔ _
    rw [getState, getState, Dict.ofList_inj (by simp) (by simp)]
    simp only [new, countsValue, List.cons.injEq, Prod.mk.injEq, true_and, and_true, Value.int.injEq, hdomain]
    constructor
    · exact fun ⟨hseq, _⟩ => hseq.symm
    · intro hseq
      obtain ⟨hcounts, hfirst, hlast⟩ := hfresh hseq
      rw [hcounts, hfirst, hlast]
      exact ⟨hseq.symm, rfl, rfl, rfl⟩

end ComplianceLogger

/-! ## All classes together

The conditions as one statement over the classes, and a state that is lost. -/

/-- **Which states survive a migration**, for each of the eleven classes and every history of records: those in which
    nothing has been counted yet and whose constructor arguments are the defaults of `restore_state`. The schemas let
    almost nothing through, so each case compares the attributes after the history with what `restore_state` takes
    instead. -/
theorem state_survives_iff (mp : MessagePack F) (stream : List (Clock F × Record F)) (operatorId : String) :
    (∀ zoneId alpha,
      let s := NormalizerOperator.operator.run (.new operatorId zoneId alpha) stream
      SurvivesIff mp NormalizerOperator.operator s (.new operatorId zoneId alpha)
        (s.count = 0 ∧ alpha = 0.01)) ∧
    (∀ zoneId windowSize s₀, FeatureAggWindow.new operatorId zoneId windowSize = .ok s₀ →
      let s := FeatureAggWindow.operator.run s₀ stream
      SurvivesIff mp FeatureAggWindow.operator s s₀ (s.window = [] ∧ windowSize = 1000)) ∧
    (∀ clock₀ clock₁ nZones windowTimeoutMs s₀ fresh,
      MultiStreamJoin.new clock₀ operatorId nZones windowTimeoutMs = .ok s₀ →
      MultiStreamJoin.new clock₁ operatorId nZones windowTimeoutMs = .ok fresh →
      let s := MultiStreamJoin.operator.run s₀ stream
      SurvivesIff mp MultiStreamJoin.operator s fresh
        (s.currentWindow = ∅ ∧ nZones = 5 ∧ floatDiv windowTimeoutMs 1000.0 = .ok 0.1)) ∧
    (∀ threshold,
      let s := BinaryClassifier.operator.run (.new operatorId threshold) stream
      SurvivesIff mp BinaryClassifier.operator s (.new operatorId threshold) (threshold = 0.6)) ∧
    (∀ sensorId alpha,
      let s := VehicleDetector.operator.run (.new operatorId sensorId alpha) stream
      SurvivesIff mp VehicleDetector.operator s (.new operatorId sensorId alpha)
        (alpha = 0.2 ∧ s.ewmaOcc = 0.0 ∧ s.ewmaSpeed = 0.0 ∧ s.detectionCount = 0)) ∧
    (∀ clock₀ clock₁ zoneId nSensors,
      let s := ZoneAggregator.operator.run (.new clock₀ operatorId zoneId nSensors) stream
      SurvivesIff mp ZoneAggregator.operator s (.new clock₁ operatorId zoneId nSensors)
        (nSensors = 25 ∧ s.zoneTotal = 0)) ∧
    (∀ threshold,
      let s := PatternDetector.operator.run (.new operatorId threshold) stream
      SurvivesIff mp PatternDetector.operator s (.new operatorId threshold)
        (threshold = 0.7 ∧ s.zoneHistory = ∅)) ∧
    (∀ category,
      let s := RiskCheck.operator.run (.new operatorId category) stream
      SurvivesIff mp RiskCheck.operator s (.new operatorId category)
        (RiskCheck.categories.getD category (1000000.0 : F) = 1000000.0 ∧ s.totalChecked = 0)) ∧
    (∀ metricClass alpha zThreshold,
      let s := AnomalyDetector.operator.run (.new operatorId metricClass alpha zThreshold) stream
      SurvivesIff mp AnomalyDetector.operator s (.new operatorId metricClass alpha zThreshold)
        (alpha = 0.2 ∧ zThreshold = 3.0 ∧ s.ewmaMean = 0.0 ∧ s.ewmaM2 = 1.0 ∧ s.recentZscores = [])) ∧
    (∀ instrumentClass,
      let s := StatAggregator.operator.run (.new operatorId instrumentClass) stream
      SurvivesIff mp StatAggregator.operator s (.new operatorId instrumentClass) (s.count = 0)) ∧
    (∀ domain,
      let s := ComplianceLogger.operator.run (.new operatorId domain) stream
      SurvivesIff mp ComplianceLogger.operator s (.new operatorId domain) (s.logSeq = 0)) :=
  -- one result for each class, in the order of the workloads
  ⟨fun zoneId alpha => NormalizerOperator.survives_iff mp operatorId zoneId alpha stream,
   fun _ _ _ hnew => FeatureAggWindow.survives_iff mp hnew stream,
   fun _ _ _ _ _ fresh hnew _ => MultiStreamJoin.survives_iff mp hnew fresh stream,
   fun threshold => BinaryClassifier.survives_iff mp operatorId threshold stream,
   fun sensorId alpha => VehicleDetector.survives_iff mp operatorId sensorId alpha stream,
   fun clock₀ clock₁ zoneId nSensors =>
     ZoneAggregator.survives_iff mp clock₀ clock₁ operatorId zoneId nSensors stream,
   fun threshold => PatternDetector.survives_iff mp operatorId threshold stream,
   fun category => RiskCheck.survives_iff mp operatorId category stream,
   fun metricClass alpha zThreshold =>
     AnomalyDetector.survives_iff mp operatorId metricClass alpha zThreshold stream,
   fun instrumentClass => StatAggregator.survives_iff mp operatorId instrumentClass stream,
   fun domain => ComplianceLogger.survives_iff mp operatorId domain stream⟩

/-- A clock that stands still. -/
def stoppedClock : Clock ℚ := ⟨0, fun _ => 0⟩

/-- A normalizer with the default arguments that has processed one record. -/
def countedOnce : NormalizerOperator ℚ :=
  NormalizerOperator.operator.run (.new "normalizer-zone_1" "zone_1" 0.01)
    [(stoppedClock, Dict.ofList [("sensor_value", .int 3)])]

/-- Its snapshot is stored, and the instance restored from it has forgotten the record. -/
theorem normalizer_state_lost :
    ∃ key byteSize store,
      createMigrationSnapshot Exact.messagePack registryV1 NormalizerOperator.operator countedOnce ∅ 7
          (Json.ofIntMap (Dict.ofList [(0, 41)])) = .ok (key, byteSize, store) ∧
      ¬ Survives Exact.messagePack NormalizerOperator.operator countedOnce
          (.new "normalizer-zone_1" "zone_1" 0.01) stoppedClock store key := by
  have hcreated : createMigrationSnapshot Exact.messagePack registryV1 NormalizerOperator.operator countedOnce
      ∅ 7 (Json.ofIntMap (Dict.ofList [(0, 41)])) = .ok (_, _, _) := rfl
  refine ⟨_, _, _, hcreated, fun hsurvives => ?_⟩
  have hcount := (NormalizerOperator.survives_iff _ _ _ _ _ _ _ _ _ _ _ _ (by decide) hcreated).mp hsurvives
  exact absurd hcount.1 (by decide +kernel)

end Workloads
end HybridStream
