import HybridStream.Py.Exact
import HybridStream.Workloads.Correctness.Reached

/-!
# `Workloads.Correctness.Resume` — an exported state resumes the run

A fresh instance that restores what `get_state` exported goes on as the exporting one would have: it becomes the same
instance. For each operator class, `Resumable` collects what of the attributes an export leaves out or a restore
converts (the constructor's arguments, the length of a deque, the time of the last emission); every history keeps it,
and it makes `restore_state` the inverse of `get_state`.

`FeatureAggWindow` is not among the classes: its `restore_state` resets a counter that `get_state` does not export.
-/

namespace HybridStream
namespace Hea

open Lib Py

/-! ## Resuming a run

What it means that a fresh instance goes on as the old one would have, and the rule by which it is proved: restoring
what was exported gives the state back, but for what the constructor was given anyway. -/

namespace BaseOperator

variable {F σ : Type}

/-- How the calls of a history end, one after the other. -/
def outcomes (C : BaseOperator F σ) : σ → List (Clock F × Record F) → List (Except PyError (List (Record F)))
  | _, []      => []
  | s, x :: xs => ((C.process x.1 x.2).exec s).1 :: outcomes C (C.run s [x]) xs

theorem outcomes_append (C : BaseOperator F σ) (s : σ) (xs ys : List (Clock F × Record F)) :
    C.outcomes s (xs ++ ys) = C.outcomes s xs ++ C.outcomes (C.run s xs) ys := by
  induction xs generalizing s with
  | nil => rfl
  | cons x xs ih =>
      show _ :: C.outcomes (C.run s [x]) (xs ++ ys) = _
      rw [ih]
      rfl

theorem length_outcomes (C : BaseOperator F σ) (s : σ) (xs : List (Clock F × Record F)) :
    (C.outcomes s xs).length = xs.length := by
  induction xs generalizing s with
  | nil => rfl
  | cons x xs ih => exact congrArg Nat.succ (ih _)

/-- A history of records with the clocks standing still. -/
def stoppedAt (clock : Clock F) (records : List (Record F)) : List (Clock F × Record F) :=
  records.map (fun record => (clock, record))

/-- A fresh instance takes over after the records `pre`: it restores what the first one exports, and on the records
    `post` its calls end as they do in one uninterrupted run, and leave the same state. -/
def Resumes (C : BaseOperator F σ) (clock : Clock F) (fresh : σ) (pre post : List (Record F)) : Prop :=
  ∃ restored,
    (C.restoreState clock (C.getState (C.run fresh (stoppedAt clock pre)))).exec fresh = (.ok ⟨⟩, restored) ∧
    C.outcomes restored (stoppedAt clock post) =
      (C.outcomes fresh (stoppedAt clock (pre ++ post))).drop pre.length ∧
    C.getState (C.run restored (stoppedAt clock post)) =
      C.getState (C.run fresh (stoppedAt clock (pre ++ post)))

/-- Where an invariant of the calls makes restoring the inverse of exporting, a fresh instance takes over. -/
theorem resumes_of_restore {C : BaseOperator F σ} {clock : Clock F} {fresh : σ} {pre : List (Record F)}
    {I : σ → Prop} (hfresh : I fresh) (hkeeps : ∀ record ∈ pre, (C.process clock record).Keeps I)
    (hrestore : ∀ s, I s → (C.restoreState clock (C.getState s)).exec fresh = (.ok ⟨⟩, s))
    (post : List (Record F)) : C.Resumes clock fresh pre post := by
  have hpre : I (C.run fresh (stoppedAt clock pre)) := by
    refine run_keeps_of_mem (fun e he => ?_) hfresh
    obtain ⟨record, hrecord, rfl⟩ := List.mem_map.mp he
    exact hkeeps record hrecord
  have hrun : stoppedAt clock (pre ++ post) = stoppedAt clock pre ++ stoppedAt clock post := List.map_append
  have hlength : pre.length = (C.outcomes fresh (stoppedAt clock pre)).length := by
    rw [length_outcomes, stoppedAt, List.length_map]
  refine ⟨_, hrestore _ hpre, ?_, ?_⟩
  · rw [hrun, outcomes_append, hlength, List.drop_left]
  · rw [hrun, run_append]

end BaseOperator

end Hea

namespace Workloads

open Lib Py Hea

variable {F : Type} [PyRuntime F]

/-! ## The traffic pipeline

Each class by an invariant of its calls, under which export and restore are inverse to each other. -/

namespace NormalizerOperator

/-- What an export leaves out is what the constructor of `fresh` was given. -/
structure Resumable (fresh s : NormalizerOperator F) : Prop where
  operatorId : s.operatorId = fresh.operatorId
  zoneId     : s.zoneId = fresh.zoneId

theorem process_keeps_resumable (fresh : NormalizerOperator F) (clock : Clock F) (record : Record F) :
    (process clock record).Keeps (Resumable fresh) := by
  unfold process
  refine Proc.keeps_lift_bind fun value => ?_
  refine Proc.keeps_write_bind (fun _ ⟨hid, hzone⟩ => ⟨hid, hzone⟩) ?_
  refine Proc.keeps_get_bind fun s _ => Proc.keeps_lift_bind fun step => ?_
  refine Proc.keeps_write_bind (fun _ ⟨hid, hzone⟩ => ⟨hid, hzone⟩) ?_
  refine Proc.keeps_get_bind fun s _ => ?_
  refine Proc.keeps_lift_bind fun weight => Proc.keeps_lift_bind fun variance => ?_
  refine Proc.keeps_write_bind (fun _ ⟨hid, hzone⟩ => ⟨hid, hzone⟩) ?_
  refine Proc.keeps_get_bind fun s _ => ?_
  refine Proc.keeps_lift_bind fun std => Proc.keeps_lift_bind fun normalized => ?_
  exact Proc.keeps_pure _

theorem restore_getState (clock : Clock F) {fresh s : NormalizerOperator F} (h : Resumable fresh s) :
    (restoreState clock s.getState).exec fresh = (.ok ⟨⟩, s) := by
  simp [restoreState, getState, Proc.exec_bind, Dict.ofList, Dict.update, Dict.getD, Dict.get_set, ← h.operatorId,
    ← h.zoneId]

theorem resumes (clock : Clock F) (fresh : NormalizerOperator F) (pre post : List (Record F)) :
    operator.Resumes clock fresh pre post :=
  BaseOperator.resumes_of_restore (C := operator) ⟨rfl, rfl⟩
    (fun record _ => process_keeps_resumable fresh clock record) (fun _ h => restore_getState clock h) post

end NormalizerOperator

namespace MultiStreamJoin

/-- The window has been open since the clock stopped. -/
structure Resumable (clock : Clock F) (fresh s : MultiStreamJoin F) : Prop where
  operatorId  : s.operatorId = fresh.operatorId
  windowStart : s.windowStart = clock.monotonic

theorem process_keeps_resumable (fresh : MultiStreamJoin F) (clock : Clock F) (record : Record F) :
    (process clock record).Keeps (Resumable clock fresh) := by
  unfold process
  refine Proc.keeps_lift_bind fun zoneId => ?_
  refine Proc.keeps_write_bind (fun _ ⟨hid, hstart⟩ => ⟨hid, hstart⟩) ?_
  refine Proc.keeps_get_bind fun s _ => Proc.keeps_ite ?_ (Proc.keeps_pure _)
  refine Proc.keeps_write_bind (fun _ ⟨hid, _⟩ => ⟨hid, rfl⟩) ?_
  exact Proc.keeps_pure _

/-- The window is read back record by record. -/
theorem windowOf_window (window : Dict (Value F) (Record F)) :
    windowOf (.dict (window.entries.map (fun e => (e.1, e.2.toValue)))) = .ok window := by
  have hes : (window.entries.map (fun e => (e.1, e.2.toValue))).mapM
      (fun e => do Except.ok (e.1, (← e.2.recordOf))) = (.ok window.entries : Except PyError _) :=
    mapM_map_of_inverse fun e _ => by rw [Record.recordOf_toValue]; rfl
  unfold windowOf
  exact bind_eq_ok.mpr ⟨_, rfl, bind_eq_ok.mpr ⟨_, hes, congrArg Except.ok (Dict.ofList_entries window)⟩⟩

theorem restore_getState {clock : Clock F} {fresh s : MultiStreamJoin F} (h : Resumable clock fresh s) :
    (restoreState clock s.getState).exec fresh = (.ok ⟨⟩, s) := by
  simp [restoreState, getState, Proc.exec_bind, Dict.ofList, Dict.update, Dict.getD, Dict.get_set, windowOf_window,
    ← h.operatorId, ← h.windowStart]

theorem resumes {clock : Clock F} {operatorId : String} {nZones : Int} {windowTimeoutMs : F}
    {fresh : MultiStreamJoin F} (hnew : new clock operatorId nZones windowTimeoutMs = .ok fresh)
    (pre post : List (Record F)) : operator.Resumes clock fresh pre post := by
  have hstart : fresh.windowStart = clock.monotonic := by
    obtain ⟨windowTimeout, -, hfresh⟩ := bind_eq_ok.mp hnew
    cases hfresh
    rfl
  exact BaseOperator.resumes_of_restore (C := operator) ⟨rfl, hstart⟩
    (fun record _ => process_keeps_resumable fresh clock record) (fun _ h => restore_getState h) post

end MultiStreamJoin

namespace BinaryClassifier

theorem resumes (clock : Clock F) (fresh : BinaryClassifier F) (pre post : List (Record F)) :
    operator.Resumes clock fresh pre post := by
  refine BaseOperator.resumes_of_restore (C := operator) (I := fun s => s = fresh) rfl
    (fun record _ => process_keeps fresh clock record) ?_ post
  rintro s rfl
  rfl

end BinaryClassifier

/-! ## The sensor pipeline

As before; the zone aggregator exports its counts under text keys, so its sensors have to be named by texts. -/

namespace VehicleDetector

/-- The detections are no more than the deque takes. -/
structure Resumable (fresh s : VehicleDetector F) : Prop where
  operatorId : s.operatorId = fresh.operatorId
  sensorId   : s.sensorId = fresh.sensorId
  times      : s.detectionTimes.length ≤ 100

theorem process_keeps_resumable (fresh : VehicleDetector F) (clock : Clock F) (record : Record F) :
    (process clock record).Keeps (Resumable fresh) := by
  unfold process
  refine Proc.keeps_lift_bind fun sample => ?_
  refine Proc.keeps_write_bind ?_ ?_
  · rintro s ⟨hid, hsensor, htimes⟩
    unfold next
    split
    · exact ⟨hid, hsensor, length_dequeAppend_le 100 s.detectionTimes sample.ts⟩
    · exact ⟨hid, hsensor, htimes⟩
  · refine Proc.keeps_get_bind fun s _ => Proc.keeps_lift_bind fun headway => ?_
    exact Proc.keeps_pure _

theorem restore_getState (clock : Clock F) {fresh s : VehicleDetector F} (h : Resumable fresh s) :
    (restoreState clock s.getState).exec fresh = (.ok ⟨⟩, s) := by
  have htimes : dequeOf 100 s.detectionTimes = .ok s.detectionTimes := dequeOf_of_length_le h.times
  simp [restoreState, getState, Proc.exec_bind, Dict.ofList, Dict.update, Dict.getD, Dict.get_set, htimes,
    ← h.operatorId, ← h.sensorId]

theorem resumes (clock : Clock F) (operatorId sensorId : String) (alpha : F) (pre post : List (Record F)) :
    operator.Resumes clock (new operatorId sensorId alpha) pre post :=
  BaseOperator.resumes_of_restore (C := operator) ⟨rfl, rfl, Nat.zero_le 100⟩
    (fun record _ => process_keeps_resumable _ clock record) (fun _ h => restore_getState clock h) post

end VehicleDetector

namespace ZoneAggregator

/-- The last emission was at the time the clock stopped, and the sensors counted have string ids. -/
structure Resumable (clock : Clock F) (fresh s : ZoneAggregator F) : Prop where
  operatorId : s.operatorId = fresh.operatorId
  lastEmitTs : s.lastEmitTs = clock.monotonic
  sensors    : ∀ e ∈ s.sensorCounts.entries, ∃ sensorId, e.1 = .str sensorId

/-- The record names no sensor, or names it by a string. -/
def SensorNamed (record : Record F) : Prop := ∀ v, record.get "sensor_id" = some v → ∃ sensorId, v = .str sensorId

omit [PyRuntime F] in
/-- What a detection is counted under is then a string. -/
theorem SensorNamed.getD {record : Record F} (h : SensorNamed record) :
    ∃ sensorId, record.getD "sensor_id" (.str "unknown") = .str sensorId := by
  unfold Dict.getD
  cases hget : record.get "sensor_id" with
  | none => exact ⟨"unknown", rfl⟩
  | some v => exact h v hget

theorem process_keeps_resumable (fresh : ZoneAggregator F) (clock : Clock F) {record : Record F}
    (hnamed : SensorNamed record) : (process clock record).Keeps (Resumable clock fresh) := by
  unfold process
  extract_lets sensorId detected now emission
  have hemission : (emission ⟨⟩).Keeps (Resumable clock fresh) := by
    refine Proc.keeps_get_bind fun s _ => Proc.keeps_ite ?_ (Proc.keeps_pure _)
    refine Proc.keeps_write_bind (fun _ ⟨hid, _, hsensors⟩ => ⟨hid, rfl, hsensors⟩) ?_
    exact Proc.keeps_lift_bind fun density => Proc.keeps_pure _
  refine Proc.keeps_ite (Proc.keeps_lift_bind_of_ok fun key hkey => ?_) hemission
  have hkey : ∃ sensorId, key = .str sensorId := by
    obtain ⟨name, hname⟩ := hnamed.getD
    have hname : sensorId = .str name := hname
    rw [hname] at hkey
    exact ⟨name, (Except.ok.inj hkey).symm⟩
  refine Proc.keeps_write_bind (fun s ⟨hid, hemit, hsensors⟩ => ⟨hid, hemit, fun e he => ?_⟩) hemission
  rcases mem_setEntry he with rfl | ⟨e', he', hsame⟩
  · exact hkey
  · rw [← hsame]
    exact hsensors e' he'

/-- The counts are read back sensor by sensor. -/
theorem countsOf_counts {counts : Dict (Value F) Int} (h : ∀ e ∈ counts.entries, ∃ sensorId, e.1 = .str sensorId) :
    countsOf (.dict (counts.entries.map (fun e => (e.1, .int e.2)))) = .ok counts := by
  have hes : (counts.entries.map (fun e => (e.1, (.int e.2 : Value F)))).mapM
      (fun e => do Except.ok (.str e.1.toStr, (← e.2.toInt))) = (.ok counts.entries : Except PyError _) := by
    refine mapM_map_of_inverse fun e he => ?_
    obtain ⟨sensorId, hsensor⟩ := h e he
    obtain ⟨key, n⟩ := e
    cases hsensor
    rfl
  unfold countsOf
  exact bind_eq_ok.mpr ⟨_, rfl, bind_eq_ok.mpr ⟨_, hes, congrArg Except.ok (Dict.ofList_entries counts)⟩⟩

theorem restore_getState {clock : Clock F} {fresh s : ZoneAggregator F} (h : Resumable clock fresh s) :
    (restoreState clock s.getState).exec fresh = (.ok ⟨⟩, s) := by
  simp [restoreState, getState, Proc.exec_bind, Dict.ofList, Dict.update, Dict.getD, Dict.get_set,
    countsOf_counts h.sensors, ← h.operatorId, ← h.lastEmitTs]

theorem resumes (clock : Clock F) (operatorId zoneId : String) (nSensors : Int) {pre : List (Record F)}
    (hnamed : ∀ record ∈ pre, SensorNamed record) (post : List (Record F)) :
    operator.Resumes clock (new clock operatorId zoneId nSensors) pre post :=
  BaseOperator.resumes_of_restore (C := operator) ⟨rfl, rfl, fun _ he => absurd he List.not_mem_nil⟩
    (fun record hrecord => process_keeps_resumable _ clock (hnamed record hrecord)) (fun _ h => restore_getState h) post

end ZoneAggregator

namespace PatternDetector

/-- No zone's history is longer than its deque takes. -/
structure Resumable (fresh s : PatternDetector F) : Prop where
  operatorId : s.operatorId = fresh.operatorId
  histories  : ∀ e ∈ s.zoneHistory.entries, e.2.length ≤ 20

theorem process_keeps_resumable (fresh : PatternDetector F) (clock : Clock F) (record : Record F) :
    (process clock record).Keeps (Resumable fresh) := by
  unfold process
  refine Proc.keeps_lift_bind fun density => Proc.keeps_lift_bind fun key => ?_
  refine Proc.keeps_write_bind (fun s ⟨hid, hhistories⟩ => ⟨hid, fun e he => ?_⟩) ?_
  · rcases value_of_mem_setEntry he with hnew | ⟨e', he', hsame⟩
    · rw [hnew]
      exact length_dequeAppend_le 20 _ density
    · rw [← hsame]
      exact hhistories e' he'
  · refine Proc.keeps_get_bind fun s _ => Proc.keeps_ite ?_ (Proc.keeps_pure _)
    exact Proc.keeps_write_bind (fun _ ⟨hid, hhistories⟩ => ⟨hid, hhistories⟩) (Proc.keeps_pure _)

/-- The histories are read back zone by zone. -/
theorem historyOf_histories {histories : Dict (Value F) (List F)} (h : ∀ e ∈ histories.entries, e.2.length ≤ 20) :
    historyOf (.dict (histories.entries.map (fun e => (e.1, .ofFloats e.2)))) = .ok histories := by
  have hes : (histories.entries.map (fun e => (e.1, Value.ofFloats e.2))).mapM
      (fun e => do Except.ok (e.1, (← dequeOf 20 (← e.2.floatsOf)))) = (.ok histories.entries : Except PyError _) := by
    refine mapM_map_of_inverse fun e he => ?_
    have hdeque : dequeOf 20 e.2 = .ok e.2 := dequeOf_of_length_le (h e he)
    exact bind_eq_ok.mpr ⟨_, Value.floatsOf_ofFloats e.2, bind_eq_ok.mpr ⟨_, hdeque, rfl⟩⟩
  unfold historyOf
  exact bind_eq_ok.mpr ⟨_, rfl, bind_eq_ok.mpr ⟨_, hes, congrArg Except.ok (Dict.ofList_entries histories)⟩⟩

theorem restore_getState (clock : Clock F) {fresh s : PatternDetector F} (h : Resumable fresh s) :
    (restoreState clock s.getState).exec fresh = (.ok ⟨⟩, s) := by
  simp [restoreState, getState, Proc.exec_bind, Dict.ofList, Dict.update, Dict.getD, Dict.get_set,
    historyOf_histories h.histories, ← h.operatorId]

theorem resumes (clock : Clock F) (operatorId : String) (threshold : F) (pre post : List (Record F)) :
    operator.Resumes clock (new operatorId threshold) pre post :=
  BaseOperator.resumes_of_restore (C := operator) ⟨rfl, fun _ he => absurd he List.not_mem_nil⟩
    (fun record _ => process_keeps_resumable _ clock record) (fun _ h => restore_getState clock h) post

end PatternDetector

/-! ## The financial pipeline

As before; the extrema of the stat aggregator are exported as `None` while they are infinite. -/

namespace RiskCheck

/-- What an export leaves out is what the constructor of `fresh` was given. -/
def Resumable (fresh s : RiskCheck F) : Prop := s.operatorId = fresh.operatorId

theorem process_keeps_resumable (fresh : RiskCheck F) (clock : Clock F) (record : Record F) :
    (process clock record).Keeps (Resumable fresh) := by
  unfold process
  refine Proc.keeps_lift_bind fun value => ?_
  refine Proc.keeps_write_bind (fun _ h => h) (Proc.keeps_write_bind (fun _ h => h) ?_)
  exact Proc.keeps_get_bind fun s _ => Proc.keeps_lift_bind fun ratio => Proc.keeps_pure _

theorem restore_getState (clock : Clock F) {fresh s : RiskCheck F} (h : Resumable fresh s) :
    (restoreState clock s.getState).exec fresh = (.ok ⟨⟩, s) := by
  have hid : fresh.operatorId = s.operatorId := h.symm
  simp [restoreState, getState, Proc.exec_bind, Dict.ofList, Dict.update, Dict.getD, Dict.get_set, hid]

theorem resumes (clock : Clock F) (operatorId category : String) (pre post : List (Record F)) :
    operator.Resumes clock (new operatorId category) pre post :=
  BaseOperator.resumes_of_restore (C := operator) (I := Resumable _) rfl
    (fun record _ => process_keeps_resumable _ clock record) (fun _ h => restore_getState clock h) post

end RiskCheck

namespace AnomalyDetector

/-- The scores are no more than the deque takes. -/
structure Resumable (fresh s : AnomalyDetector F) : Prop where
  operatorId : s.operatorId = fresh.operatorId
  zscores    : s.recentZscores.length ≤ 100

theorem process_keeps_resumable (fresh : AnomalyDetector F) (clock : Clock F) (record : Record F) :
    (process clock record).Keeps (Resumable fresh) := by
  unfold process
  refine Proc.keeps_lift_bind fun value => Proc.keeps_get_bind fun s _ => ?_
  refine Proc.keeps_write_bind (fun _ ⟨hid, hscores⟩ => ⟨hid, hscores⟩) ?_
  refine Proc.keeps_lift_bind fun square => ?_
  refine Proc.keeps_write_bind (fun _ ⟨hid, hscores⟩ => ⟨hid, hscores⟩) ?_
  refine Proc.keeps_get_bind fun s _ => ?_
  refine Proc.keeps_lift_bind fun std => Proc.keeps_lift_bind fun z => ?_
  refine Proc.keeps_write_bind (fun s ⟨hid, _⟩ => ⟨hid, length_dequeAppend_le 100 s.recentZscores z⟩) ?_
  exact Proc.keeps_get_bind fun s _ => Proc.keeps_pure _

theorem restore_getState (clock : Clock F) {fresh s : AnomalyDetector F} (h : Resumable fresh s) :
    (restoreState clock s.getState).exec fresh = (.ok ⟨⟩, s) := by
  have hscores : dequeOf 100 s.recentZscores = .ok s.recentZscores := dequeOf_of_length_le h.zscores
  simp [restoreState, getState, Proc.exec_bind, Dict.ofList, Dict.update, Dict.getD, Dict.get_set, hscores,
    ← h.operatorId]

theorem resumes (clock : Clock F) (operatorId metricClass : String) (alpha zThreshold : F)
    (pre post : List (Record F)) :
    operator.Resumes clock (new operatorId metricClass alpha zThreshold) pre post :=
  BaseOperator.resumes_of_restore (C := operator) ⟨rfl, Nat.zero_le 100⟩
    (fun record _ => process_keeps_resumable _ clock record) (fun _ h => restore_getState clock h) post

end AnomalyDetector

namespace StatAggregator

/-- What an export leaves out is what the constructor of `fresh` was given. -/
def Resumable (fresh s : StatAggregator F) : Prop := s.operatorId = fresh.operatorId

theorem process_keeps_resumable (fresh : StatAggregator F) (clock : Clock F) (record : Record F) :
    (process clock record).Keeps (Resumable fresh) := by
  unfold process
  refine Proc.keeps_lift_bind fun value => Proc.keeps_write_bind (fun _ h => h) ?_
  refine Proc.keeps_get_bind fun s _ => Proc.keeps_lift_bind fun step => ?_
  refine Proc.keeps_write_bind (fun _ h => h) (Proc.keeps_write_bind (fun _ h => h) ?_)
  refine Proc.keeps_write_bind (fun _ h => h) ?_
  refine Proc.keeps_get_bind fun s _ => Proc.keeps_ite ?_ (Proc.keeps_pure _)
  exact Proc.keeps_lift_bind fun variance => Proc.keeps_lift_bind fun std => Proc.keeps_pure _

/-- An extremum is read back, also one that was exported as `None`. -/
theorem extremumOf_export {x dflt : F} (h : PyRuntime.eq x dflt = true → x = dflt) :
    extremumOf dflt (if PyRuntime.eq x dflt then .none else .float x) = .ok x := by
  split
  · rename_i heq
    rw [h heq]
    rfl
  · rfl

theorem restore_getState (hinf : ∀ x : F, PyRuntime.eq x PyRuntime.inf = true → x = PyRuntime.inf)
    (hnegInf : ∀ x : F, PyRuntime.eq x PyRuntime.negInf = true → x = PyRuntime.negInf) (clock : Clock F)
    {fresh s : StatAggregator F} (h : Resumable fresh s) :
    (restoreState clock s.getState).exec fresh = (.ok ⟨⟩, s) := by
  have hid : fresh.operatorId = s.operatorId := h.symm
  simp [restoreState, getState, Proc.exec_bind, Dict.ofList, Dict.update, Dict.getD, Dict.get_set, hid,
    extremumOf_export (hinf s.min), extremumOf_export (hnegInf s.max)]

theorem resumes (hinf : ∀ x : F, PyRuntime.eq x PyRuntime.inf = true → x = PyRuntime.inf)
    (hnegInf : ∀ x : F, PyRuntime.eq x PyRuntime.negInf = true → x = PyRuntime.negInf) (clock : Clock F)
    (operatorId instrumentClass : String) (pre post : List (Record F)) :
    operator.Resumes clock (new operatorId instrumentClass) pre post :=
  BaseOperator.resumes_of_restore (C := operator) (I := Resumable _) rfl
    (fun record _ => process_keeps_resumable _ clock record) (fun _ h => restore_getState hinf hnegInf clock h) post

end StatAggregator

namespace ComplianceLogger

/-- What an export leaves out is what the constructor of `fresh` was given. -/
def Resumable (fresh s : ComplianceLogger F) : Prop := s.operatorId = fresh.operatorId

theorem process_keeps_resumable (fresh : ComplianceLogger F) (clock : Clock F) (record : Record F) :
    (process clock record).Keeps (Resumable fresh) := by
  unfold process
  refine Proc.keeps_lift_bind fun ts => ?_
  refine Proc.keeps_write_bind (fun _ h => h) (Proc.keeps_write_bind (fun _ h => h) ?_)
  exact Proc.keeps_get_bind fun s _ => Proc.keeps_pure _

/-- The counts are read back event type by event type. -/
theorem countsOf_countsValue (s : ComplianceLogger F) : countsOf s.countsValue = .ok s.eventCounts := by
  have hes : (s.eventCounts.entries.map (fun e => ((.str e.1 : Value F), (.int e.2 : Value F)))).mapM
      (fun e => do Except.ok ((← e.1.textOf), (← e.2.toInt))) = (.ok s.eventCounts.entries : Except PyError _) :=
    mapM_map_of_inverse fun _ _ => rfl
  unfold countsOf countsValue
  exact bind_eq_ok.mpr ⟨_, rfl, bind_eq_ok.mpr ⟨_, hes, congrArg Except.ok (Dict.ofList_entries s.eventCounts)⟩⟩

theorem restore_getState (clock : Clock F) {fresh s : ComplianceLogger F} (h : Resumable fresh s) :
    (restoreState clock s.getState).exec fresh = (.ok ⟨⟩, s) := by
  have hid : fresh.operatorId = s.operatorId := h.symm
  simp [restoreState, getState, Proc.exec_bind, Dict.ofList, Dict.update, Dict.getD, Dict.get_set, hid,
    countsOf_countsValue]

theorem resumes (clock : Clock F) (operatorId domain : String) (pre post : List (Record F)) :
    operator.Resumes clock (new operatorId domain) pre post :=
  BaseOperator.resumes_of_restore (C := operator) (I := Resumable _) rfl
    (fun record _ => process_keeps_resumable _ clock record) (fun _ h => restore_getState clock h) post

end ComplianceLogger

/-! ## All of them

For each class, whatever its constructor is given and whatever the records are. -/

/-- **Resuming from an exported state is transparent**, for each class, whatever its constructor is given, and for all
    records before and after. Of the records only the sensor ids have to be strings, and of the float arithmetic only
    that nothing but an infinity equals it. In each class `restore_state` is the inverse of `get_state` on the instances
    that a history leads to, so the new instance is the old one. -/
theorem resume_transparent (hinf : ∀ x : F, PyRuntime.eq x PyRuntime.inf = true → x = PyRuntime.inf)
    (hnegInf : ∀ x : F, PyRuntime.eq x PyRuntime.negInf = true → x = PyRuntime.negInf) (clock : Clock F)
    (operatorId : String) {pre : List (Record F)} (hnamed : ∀ record ∈ pre, ZoneAggregator.SensorNamed record)
    (post : List (Record F)) :
    (∀ zoneId alpha, NormalizerOperator.operator.Resumes clock (.new operatorId zoneId alpha) pre post) ∧
    (∀ threshold, BinaryClassifier.operator.Resumes clock (.new operatorId threshold) pre post) ∧
    (∀ nZones windowTimeoutMs fresh, MultiStreamJoin.new clock operatorId nZones windowTimeoutMs = .ok fresh →
      MultiStreamJoin.operator.Resumes clock fresh pre post) ∧
    (∀ sensorId alpha, VehicleDetector.operator.Resumes clock (.new operatorId sensorId alpha) pre post) ∧
    (∀ zoneId nSensors, ZoneAggregator.operator.Resumes clock (.new clock operatorId zoneId nSensors) pre post) ∧
    (∀ threshold, PatternDetector.operator.Resumes clock (.new operatorId threshold) pre post) ∧
    (∀ category, RiskCheck.operator.Resumes clock (.new operatorId category) pre post) ∧
    (∀ metricClass alpha zThreshold,
      AnomalyDetector.operator.Resumes clock (.new operatorId metricClass alpha zThreshold) pre post) ∧
    (∀ instrumentClass, StatAggregator.operator.Resumes clock (.new operatorId instrumentClass) pre post) ∧
    (∀ domain, ComplianceLogger.operator.Resumes clock (.new operatorId domain) pre post) := by
  refine ⟨?_, ?_, ?_, ?_, ?_, ?_, ?_, ?_, ?_, ?_⟩
  · exact fun zoneId alpha => NormalizerOperator.resumes clock _ pre post
  · exact fun threshold => BinaryClassifier.resumes clock _ pre post
  · exact fun nZones windowTimeoutMs fresh hnew => MultiStreamJoin.resumes hnew pre post
  · exact fun sensorId alpha => VehicleDetector.resumes clock operatorId sensorId alpha pre post
  · exact fun zoneId nSensors => ZoneAggregator.resumes clock operatorId zoneId nSensors hnamed post
  · exact fun threshold => PatternDetector.resumes clock operatorId threshold pre post
  · exact fun category => RiskCheck.resumes clock operatorId category pre post
  · exact fun metricClass alpha zThreshold =>
      AnomalyDetector.resumes clock operatorId metricClass alpha zThreshold pre post
  · exact fun instrumentClass => StatAggregator.resumes hinf hnegInf clock operatorId instrumentClass pre post
  · exact fun domain => ComplianceLogger.resumes clock operatorId domain pre post

/-- A zone's second detection is processed by a fresh instance. -/
theorem zone_aggregator_resumed :
    ZoneAggregator.operator.Resumes (F := ℚ) ⟨0, fun _ => 0⟩ (.new ⟨0, fun _ => 0⟩ "zone-agg-1" "zone_1" 25)
      [Dict.ofList [("sensor_id", .str "s1"), ("vehicle_detected", .bool true), ("timestamp", .float 1)]]
      [Dict.ofList [("sensor_id", .str "s2"), ("vehicle_detected", .bool true), ("timestamp", .float 2)]] := by
  have hnamed : ∀ record ∈ [(Dict.ofList
      [("sensor_id", .str "s1"), ("vehicle_detected", .bool true), ("timestamp", .float 1)] : Record ℚ)],
      ZoneAggregator.SensorNamed record := by
    intro record hrecord v hget
    rw [List.mem_singleton.mp hrecord] at hget
    exact ⟨"s1", (Option.some.inj hget).symm⟩
  have hall := resume_transparent (fun _ h => of_decide_eq_true h) (fun _ h => of_decide_eq_true h)
    ⟨(0 : ℚ), fun _ => 0⟩ "zone-agg-1" hnamed
    [Dict.ofList [("sensor_id", .str "s2"), ("vehicle_detected", .bool true), ("timestamp", .float 2)]]
  exact hall.2.2.2.2.1 "zone_1" 25

end Workloads
end HybridStream
