import HybridStream.Hea.Lifetime
import HybridStream.Workloads.Correctness.Resume

/-!
# `Workloads.Correctness.Counters` — counters agree over runs and hand-offs

Three operators count the same thing twice: a sequence number beside counts by event type, a total beside counts by
sensor, breaches beside checks. `process` raises both, and `restore_state` reads both back from what `get_state` wrote,
whichever instance takes over. So they agree at the end of every lifetime.

Each operator has an invariant on three things: the records so far, what was put out for them, and the attributes. A
record that raises is either rejected before anything is counted or counted in full, which is where the order of the
statements in `process` matters.
-/

namespace HybridStream
namespace Workloads

open Lib Py Hea

variable {F : Type} [PyRuntime F]

omit [PyRuntime F] in
theorem countP_concat (p : Record F → Bool) (past : List (Record F)) (record : Record F) :
    (past ++ [record]).countP p = past.countP p + if p record then 1 else 0 := by
  rw [List.countP_append, List.countP_singleton]

/-! ## The sequence numbers of the audit trail

A record is numbered and counted in one step, or raises before either. So the number of the last one, the number of
outputs and the counts by event type stay together. -/

namespace ComplianceLogger

/-- The record has a number for its time, or none at all, so that it is logged. -/
def Stamped (record : Record F) : Bool := (record.getD "timestamp" (.float 0.0)).toFloat.isOk

/-- Which number the clock has does not matter for that. -/
theorem isOk_timestamp (record : Record F) (now : F) :
    (record.getD "timestamp" (.float now)).toFloat.isOk = Stamped record := by
  unfold Stamped Dict.getD
  cases record.get "timestamp" with
  | none   => rfl
  | some v => rfl

/-- The records that could be logged are put out, numbered without a gap, and the counts add up to the last number. -/
structure Numbered (past out : List (Record F)) (s : ComplianceLogger F) : Prop where
  numbers : out.map (fun record => record.get "log_sequence") =
    (List.range out.length).map (fun i => some (.int (i + 1)))
  logSeq  : s.logSeq = out.length
  counts  : s.eventCounts.values.sum = s.logSeq
  logged  : out.length = past.countP Stamped

variable {past out : List (Record F)} {s : ComplianceLogger F}

omit [PyRuntime F] in
/-- The number is not overwritten by what is written with it. -/
theorem get_log_sequence (record : Record F) (domain number logged counts loggedAt : Value F) :
    (record.update
      [ ("compliance_domain", domain),
        ("log_sequence",      number),
        ("compliance_logged", logged),
        ("event_type_counts", counts),
        ("logged_at",         loggedAt) ]).get "log_sequence" = some number := by
  have hnames : ["compliance_domain", "log_sequence", "compliance_logged", "event_type_counts", "logged_at"].Nodup := by
    decide
  refine Dict.get_update_of_mem ?_ (List.mem_cons_of_mem _ List.mem_cons_self)
  exact hnames

/-- The attributes after one more event. -/
def logged (s : ComplianceLogger F) (eventType : String) (ts : F) : ComplianceLogger F :=
  { s with
    logSeq       := s.logSeq + 1
    eventCounts  := s.eventCounts.set eventType (s.eventCounts.getD eventType 0 + 1)
    firstEventTs := firstOr s.firstEventTs ts
    lastEventTs  := .float ts }

/-- An event with a time of its own is counted, and put out with the number it was counted under. -/
theorem exec_process_of_ok {clock : Clock F} {record : Record F} {ts : F}
    (hts : (record.getD "timestamp" (.float (clock.time 0))).toFloat = .ok ts) :
    (process clock record).exec s =
      (.ok [record.update
        [ ("compliance_domain", s.domain),
          ("log_sequence",      .int (s.logSeq + 1)),
          ("compliance_logged", .bool true),
          ("event_type_counts", (s.logged (record.getD "event_type" (.str "unknown")).toStr ts).countsValue),
          ("logged_at",         .float (clock.time 1)) ]],
       s.logged (record.getD "event_type" (.str "unknown")).toStr ts) := by
  unfold process
  simp only [Proc.exec_bind, Proc.exec_lift, Proc.exec_get, Proc.exec_modify, Proc.exec_pure, hts]
  rfl

/-- One without is rejected before anything is counted. -/
theorem exec_process_of_error {clock : Clock F} {record : Record F} {e : PyError}
    (hts : (record.getD "timestamp" (.float (clock.time 0))).toFloat = .error e) :
    (process clock record).exec s = (.error e, s) := by
  unfold process
  simp only [Proc.exec_bind, Proc.exec_lift, hts]

/-- A record gets the next number, or none and is not counted. -/
theorem numbered_process (h : Numbered past out s) (clock : Clock F) (record : Record F) :
    Numbered (past ++ [record]) (out ++ operator.emitsAt s (.record clock record))
      (operator.after s (.record clock record)) := by
  have hstamped := isOk_timestamp record (clock.time 0)
  cases hts : (record.getD "timestamp" (.float (clock.time 0))).toFloat with
  | error e =>
      rw [hts] at hstamped
      have hrun : (operator.process clock record).exec s = (.error e, s) := exec_process_of_error hts
      rw [BaseOperator.emitsAt_of_error hrun, BaseOperator.after_of_exec hrun, List.append_nil]
      refine { h with logged := ?_ }
      rw [countP_concat, ← hstamped, h.logged]
      rfl
  | ok ts =>
      rw [hts] at hstamped
      have hrun : (operator.process clock record).exec s = _ := exec_process_of_ok hts
      rw [BaseOperator.emitsAt_of_ok hrun, BaseOperator.after_of_exec hrun]
      refine ⟨?_, ?_, ?_, ?_⟩
      · rw [List.map_append, h.numbers, List.length_append, List.length_singleton, List.range_succ, List.map_append,
          List.map_singleton, List.map_singleton, get_log_sequence, h.logSeq]
      · rw [List.length_append, List.length_singleton, Nat.cast_succ, ← h.logSeq]
        rfl
      · have hsum := Dict.sum_values_set s.eventCounts (record.getD "event_type" (.str "unknown")).toStr 1
        rw [h.counts] at hsum
        exact hsum
      · rw [List.length_append, countP_concat, ← hstamped, h.logged]
        rfl

/-- Whichever instance takes over, it goes on counting. -/
theorem numbered_handoff (h : Numbered past out s) (clock : Clock F) (fresh : ComplianceLogger F) :
    Numbered past out (operator.after s (.handoff clock fresh)) := by
  have hstate : ((restoreState clock s.getState).exec fresh).2 = { s with operatorId := fresh.operatorId } := by
    simp [restoreState, getState, Proc.exec_bind, Dict.ofList, Dict.update, Dict.getD, Dict.get_set,
      countsOf_countsValue]
  show Numbered past out ((restoreState clock s.getState).exec fresh).2
  rw [hstate]
  exact ⟨h.numbers, h.logSeq, h.counts, h.logged⟩

theorem live_numbered (operatorId domain : String) (events : List (LifeEvent F (ComplianceLogger F))) :
    Numbered (LifeEvent.records events) (operator.emissions (new operatorId domain) events)
      (operator.live (new operatorId domain) events) :=
  BaseOperator.live_follows (C := operator) (I := Numbered)
    (fun _ _ _ clock record _ h => numbered_process h clock record)
    (fun _ _ _ clock fresh h => numbered_handoff h clock fresh) ⟨rfl, rfl, rfl, rfl⟩

end ComplianceLogger

/-! ## The detections of a zone

A detection raises the total and the count of its sensor. The counts are read back from an exported state under their
text keys, which they only are if sensors are named by texts. -/

namespace ZoneAggregator

/-- The counts of the sensors, which have string ids, are positive and add up to the total. -/
structure Counted (s : ZoneAggregator F) : Prop where
  total    : s.zoneTotal = s.sensorCounts.values.sum
  positive : ∀ e ∈ s.sensorCounts.entries, 0 < e.2
  sensors  : ∀ e ∈ s.sensorCounts.entries, ∃ sensorId, e.1 = .str sensorId

variable {s : ZoneAggregator F}

/-- One more detection of a sensor. -/
theorem Counted.detect (h : Counted s) (sensorId : String) : Counted { s with
    sensorCounts := s.sensorCounts.set (.str sensorId) (s.sensorCounts.getD (.str sensorId) 0 + 1)
    zoneTotal    := s.zoneTotal + 1 } where
  total    := by
    have hsum := Dict.sum_values_set s.sensorCounts (.str sensorId) 1
    show s.zoneTotal + 1 = _
    rw [hsum, h.total]
  positive := by
    have hcount : 0 ≤ s.sensorCounts.getD (.str sensorId) 0 := by
      unfold Dict.getD Dict.get
      cases hget : lookupEntry (Value.str sensorId) s.sensorCounts.entries with
      | none => exact Int.le_refl 0
      | some n =>
          obtain ⟨key, hmem⟩ := mem_of_lookupEntry hget
          exact (h.positive _ hmem).le
    intro e he
    rcases value_of_mem_setEntry he with hnew | ⟨e', he', hold⟩
    · omega
    · rw [← hold]
      exact h.positive e' he'
  sensors  := by
    intro e he
    rcases mem_setEntry he with hnew | ⟨e', he', hold⟩
    · exact ⟨sensorId, hnew⟩
    · rw [← hold]
      exact h.sensors e' he'

/-- A record of a named sensor keeps the counts consistent. -/
theorem process_keeps_counted (clock : Clock F) {record : Record F} (hnamed : SensorNamed record) :
    (process clock record).Keeps Counted := by
  obtain ⟨name, hname⟩ := hnamed.getD
  unfold process
  extract_lets sensorId detected now emission
  have hemission : (emission ⟨⟩).Keeps Counted := by
    refine Proc.keeps_get_bind fun s _ => Proc.keeps_ite ?_ (Proc.keeps_pure _)
    refine Proc.keeps_write_bind (fun _ ⟨htotal, hpositive, hsensors⟩ => ⟨htotal, hpositive, hsensors⟩) ?_
    exact Proc.keeps_lift_bind fun density => Proc.keeps_pure _
  refine Proc.keeps_ite (Proc.keeps_lift_bind_of_ok fun key hkey => ?_) hemission
  have hname : sensorId = .str name := hname
  rw [hname] at hkey
  cases hkey
  exact Proc.keeps_write_bind (fun _ h => h.detect name) hemission

/-- The instance that takes over differs in its id and in the time from which it waits to put out. -/
theorem after_handoff (h : Counted s) (clock : Clock F) (fresh : ZoneAggregator F) :
    operator.after s (.handoff clock fresh) =
      { s with operatorId := fresh.operatorId, lastEmitTs := clock.monotonic } := by
  show ((restoreState clock s.getState).exec fresh).2 = _
  simp [restoreState, getState, Proc.exec_bind, Dict.ofList, Dict.update, Dict.getD, Dict.get_set,
    countsOf_counts h.sensors]

/-- Whichever instance takes over, it has the counts. -/
theorem counted_handoff (h : Counted s) (clock : Clock F) (fresh : ZoneAggregator F) :
    Counted (operator.after s (.handoff clock fresh)) := by
  rw [after_handoff h]
  exact ⟨h.total, h.positive, h.sensors⟩

/-- A vehicle was detected. -/
def Detected (record : Record F) : Bool := (record.getD "vehicle_detected" (.bool false)).truthy

/-- A detection of a named sensor raises the total by one, and nothing else does. -/
theorem zoneTotal_process (clock : Clock F) {record : Record F} (hnamed : SensorNamed record) (s : ZoneAggregator F) :
    (operator.after s (.record clock record)).zoneTotal = s.zoneTotal + if Detected record then 1 else 0 := by
  obtain ⟨name, hname⟩ := hnamed.getD
  show ((process clock record).exec s).2.zoneTotal = _
  unfold process
  extract_lets sensorId detected now emission
  have hkey : sensorId.asKey = .ok (.str name) := by
    have hname : sensorId = .str name := hname
    rw [hname]
    rfl
  -- what is put out leaves the total alone
  have hemission : ∀ n, (emission ⟨⟩).Keeps (fun t => t.zoneTotal = n) := by
    intro n
    refine Proc.keeps_get_bind fun t _ => Proc.keeps_ite ?_ (Proc.keeps_pure _)
    exact Proc.keeps_write_bind (fun _ h => h) (Proc.keeps_lift_bind fun density => Proc.keeps_pure _)
  have hdetected : detected = Detected record := rfl
  cases hcase : Detected record with
  | false =>
      rw [hdetected, hcase, if_neg Bool.false_ne_true, if_neg Bool.false_ne_true, add_zero]
      exact hemission s.zoneTotal s rfl
  | true =>
      rw [hdetected, hcase, if_pos rfl, if_pos rfl, hkey, Proc.exec_bind_ok (Proc.exec_lift (.ok _) s)]
      exact hemission (s.zoneTotal + 1) { s with
        sensorCounts := s.sensorCounts.set (.str name) (s.sensorCounts.getD (.str name) 0 + 1)
        zoneTotal    := s.zoneTotal + 1 } rfl

/-- The counts agree after any life, and the total counts the detections of it. -/
theorem live_counted (start : Clock F) (operatorId zoneId : String) (nSensors : Int)
    {events : List (LifeEvent F (ZoneAggregator F))}
    (hnamed : ∀ clock record, LifeEvent.record clock record ∈ events → SensorNamed record) :
    let s := operator.live (new start operatorId zoneId nSensors) events
    Counted s ∧ s.zoneTotal = (LifeEvent.records events).countP Detected := by
  refine BaseOperator.live_follows (C := operator)
    (I := fun past _ s => Counted s ∧ s.zoneTotal = past.countP Detected) ?_ ?_ ?_
  · intro past _ s clock record hmem ⟨hcounted, htotal⟩
    refine ⟨process_keeps_counted clock (hnamed clock record hmem) s hcounted, ?_⟩
    rw [zoneTotal_process clock (hnamed clock record hmem), htotal, countP_concat]
    push_cast
    rfl
  · intro _ _ s clock fresh ⟨hcounted, htotal⟩
    refine ⟨counted_handoff hcounted clock fresh, ?_⟩
    rw [after_handoff hcounted]
    exact htotal
  · exact ⟨⟨rfl, fun _ he => absurd he List.not_mem_nil, fun _ he => absurd he List.not_mem_nil⟩, rfl⟩

end ZoneAggregator

/-! ## The breaches of a limit

Checks and breaches as counts over the records of the whole life, by two tests on a record. -/

namespace RiskCheck

/-- The record has a number for its exposure, so that it is checked. -/
def Checked (record : Record F) : Bool := (record.getD "exposure" (.float 0.0)).toFloat.isOk

/-- Its exposure, negative ones counted as zero, exceeds the limit. -/
def Exceeds (limit : F) (record : Record F) : Bool :=
  match (record.getD "exposure" (.float 0.0)).toFloat with
  | .ok value => PyRuntime.lt limit (pyMax 0.0 value)
  | .error _  => false

/-- The counters count the records. -/
structure Counts (limit : F) (past : List (Record F)) (s : RiskCheck F) : Prop where
  bound    : s.limit = limit
  breaches : s.breachCount = past.countP (Exceeds limit)
  checked  : s.totalChecked = past.countP Checked

variable {limit : F} {past : List (Record F)} {s : RiskCheck F}

/-- A record with a number is counted, and as a breach if it exceeds the limit. -/
theorem exec_process_counters (s : RiskCheck F) (clock : Clock F) {record : Record F} {value : F}
    (hvalue : (record.getD "exposure" (.float 0.0)).toFloat = .ok value) :
    ((process clock record).exec s).2 = { s with
      totalChecked := s.totalChecked + 1
      breachCount  := if PyRuntime.lt s.limit (pyMax 0.0 value) then s.breachCount + 1 else s.breachCount } := by
  unfold process
  simp only [Proc.exec_bind, Proc.exec_lift, Proc.exec_get, Proc.exec_modify, Proc.exec_pure, hvalue]
  -- the counters are written before the ratio is computed
  generalize (if PyRuntime.lt 0.0 s.limit then floatDiv (pyMax 0.0 value) s.limit else .ok 0.0) = ratio
  cases ratio with
  | ok x => rfl
  | error e => rfl

/-- One without is rejected before it is counted. -/
theorem exec_process_of_error (s : RiskCheck F) (clock : Clock F) {record : Record F} {e : PyError}
    (hvalue : (record.getD "exposure" (.float 0.0)).toFloat = .error e) :
    (process clock record).exec s = (.error e, s) := by
  unfold process
  rw [hvalue]
  rfl

/-- One more record. -/
theorem counts_process (h : Counts limit past s) (clock : Clock F) (record : Record F) :
    Counts limit (past ++ [record]) (operator.after s (.record clock record)) := by
  cases hvalue : (record.getD "exposure" (.float 0.0)).toFloat with
  | error e =>
      have hexceeds : Exceeds limit record = false := by simp only [Exceeds, hvalue]
      have hunchecked : Checked record = false := by simp only [Checked, hvalue, Except.isOk, Except.toBool]
      rw [BaseOperator.after_of_exec (C := operator) (exec_process_of_error s clock hvalue)]
      refine ⟨h.bound, ?_, ?_⟩
      · rw [countP_concat, hexceeds, h.breaches]
        rfl
      · rw [countP_concat, hunchecked, h.checked]
        rfl
  | ok value =>
      have hexceeds : Exceeds limit record = PyRuntime.lt limit (pyMax 0.0 value) := by simp only [Exceeds, hvalue]
      have hchecked : Checked record = true := by simp only [Checked, hvalue, Except.isOk, Except.toBool]
      show Counts limit (past ++ [record]) ((process clock record).exec s).2
      rw [exec_process_counters s clock hvalue]
      refine ⟨h.bound, ?_, ?_⟩
      · rw [countP_concat, hexceeds]
        show (if PyRuntime.lt s.limit (pyMax 0.0 value) then s.breachCount + 1 else s.breachCount) = _
        rw [h.bound, h.breaches]
        split
        · rw [Nat.cast_succ]
        · rfl
      · rw [countP_concat, hchecked, if_pos rfl, Nat.cast_succ, ← h.checked]

/-- Whichever instance takes over, it has the limit and the counters. -/
theorem counts_handoff (h : Counts limit past s) (clock : Clock F) (fresh : RiskCheck F) :
    Counts limit past (operator.after s (.handoff clock fresh)) := by
  have hstate : ((restoreState clock s.getState).exec fresh).2 = { s with operatorId := fresh.operatorId } := by
    simp [restoreState, getState, Proc.exec_bind, Dict.ofList, Dict.update, Dict.getD, Dict.get_set]
  show Counts limit past ((restoreState clock s.getState).exec fresh).2
  rw [hstate]
  exact ⟨h.bound, h.breaches, h.checked⟩

theorem live_counts (operatorId category : String) (events : List (LifeEvent F (RiskCheck F))) :
    Counts (new operatorId category : RiskCheck F).limit (LifeEvent.records events)
      (operator.live (new operatorId category) events) :=
  BaseOperator.live_follows (C := operator) (I := fun past _ s => Counts _ past s)
    (fun _ _ _ clock record _ h => counts_process h clock record)
    (fun _ _ _ clock fresh h => counts_handoff h clock fresh) ⟨rfl, rfl, rfl⟩

/-- What exceeds the limit was checked. -/
theorem checked_of_exceeds {record : Record F} (h : Exceeds limit record = true) : Checked record = true := by
  unfold Exceeds at h
  unfold Checked
  cases hvalue : (record.getD "exposure" (.float 0.0)).toFloat with
  | ok value => rfl
  | error e =>
      rw [hvalue] at h
      cases h

end RiskCheck

/-! ## All of them

The invariants at the end of any life, for the three operators. -/

/-- **Counters stay consistent over runs and hand-offs**, wherever the hand-offs fall and whichever instances take
    over. The records of an audit trail are numbered 1, 2, 3 and so on, the counts by event type add up to the last
    number, and that is how many of the records processed have a number for their time; a zone's total is the sum of
    its sensors' counts, none of which is zero, and that is how many of the records processed are detections; and the
    breaches are the records whose exposure exceeded the limit, among the records checked.

    Each operator has its invariant on the records so far, what was put out and the attributes; one record and one
    hand-off keep it. -/
theorem counters_consistent :
    (∀ operatorId domain (events : List (LifeEvent F (ComplianceLogger F))),
      let out := ComplianceLogger.operator.emissions (.new operatorId domain) events
      let s := ComplianceLogger.operator.live (.new operatorId domain) events
      out.map (fun record => record.get "log_sequence") =
          (List.range out.length).map (fun i => some (.int (i + 1))) ∧
        s.logSeq = out.length ∧ s.logSeq = s.eventCounts.values.sum ∧
        s.logSeq = (LifeEvent.records events).countP ComplianceLogger.Stamped) ∧
    (∀ start operatorId zoneId nSensors (events : List (LifeEvent F (ZoneAggregator F))),
      (∀ clock record, LifeEvent.record clock record ∈ events → ZoneAggregator.SensorNamed record) →
      let s := ZoneAggregator.operator.live (.new start operatorId zoneId nSensors) events
      s.zoneTotal = s.sensorCounts.values.sum ∧ (∀ count ∈ s.sensorCounts.values, 0 < count) ∧
        s.zoneTotal = (LifeEvent.records events).countP ZoneAggregator.Detected) ∧
    ∀ operatorId category (events : List (LifeEvent F (RiskCheck F))),
      let s := RiskCheck.operator.live (.new operatorId category) events
      s.breachCount =
          (LifeEvent.records events).countP (RiskCheck.Exceeds (RiskCheck.new operatorId category).limit) ∧
        s.totalChecked = (LifeEvent.records events).countP RiskCheck.Checked ∧ s.breachCount ≤ s.totalChecked := by
  refine ⟨?_, ?_, ?_⟩
  · intro operatorId domain events
    obtain ⟨hnumbers, hlogSeq, hcounts, hlogged⟩ := ComplianceLogger.live_numbered operatorId domain events
    refine ⟨hnumbers, hlogSeq, hcounts.symm, ?_⟩
    rw [hlogSeq, hlogged]
  · intro start operatorId zoneId nSensors events hnamed
    obtain ⟨⟨htotal, hpositive, -⟩, hdetections⟩ :=
      ZoneAggregator.live_counted start operatorId zoneId nSensors hnamed
    refine ⟨htotal, fun count hcount => ?_, hdetections⟩
    obtain ⟨e, he, rfl⟩ := List.mem_map.mp hcount
    exact hpositive e he
  · intro operatorId category events
    obtain ⟨-, hbreaches, hchecked⟩ := RiskCheck.live_counts (F := F) operatorId category events
    refine ⟨hbreaches, hchecked, ?_⟩
    rw [hbreaches, hchecked, Nat.cast_le]
    exact List.countP_mono_left fun record _ => RiskCheck.checked_of_exceeds

/-- A car under a sensor. -/
def detection (sensorId : String) : Record ℚ :=
  Dict.ofList [("sensor_id", .str sensorId), ("vehicle_detected", .bool true)]

/-- Another instance takes over between two detections. -/
def detections : List (LifeEvent ℚ (ZoneAggregator ℚ)) :=
  [ .record ⟨0, fun _ => 0⟩ (detection "s1"),
    .handoff ⟨0, fun _ => 0⟩ (.new ⟨0, fun _ => 0⟩ "zone-agg-1" "zone_1" 25),
    .record ⟨0, fun _ => 0⟩ (detection "s1") ]

theorem counters_consistent_detections :
    let s := ZoneAggregator.operator.live (.new ⟨0, fun _ => 0⟩ "zone-agg-1" "zone_1" 25) detections
    s.zoneTotal = s.sensorCounts.values.sum ∧ s.zoneTotal = 2 := by
  have hnamed : ∀ clock record, LifeEvent.record clock record ∈ detections → ZoneAggregator.SensorNamed record := by
    intro clock record hmem v hget
    have hrecord : record = detection "s1" := by
      simp only [detections, List.mem_cons, LifeEvent.record.injEq, reduceCtorEq, false_or, List.not_mem_nil,
        or_false] at hmem
      rcases hmem with ⟨-, rfl⟩ | ⟨-, rfl⟩
      · rfl
      · rfl
    rw [hrecord] at hget
    exact ⟨"s1", (Option.some.inj hget).symm⟩
  obtain ⟨hsum, -, hdetections⟩ :=
    counters_consistent.2.1 ⟨0, fun _ => 0⟩ "zone-agg-1" "zone_1" 25 detections hnamed
  exact ⟨hsum, hdetections⟩

end Workloads
end HybridStream
