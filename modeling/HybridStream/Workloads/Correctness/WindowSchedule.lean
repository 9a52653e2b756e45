import HybridStream.Hea.Engine
import HybridStream.Workloads.Correctness.Resume

/-!
# `Workloads.Correctness.WindowSchedule` — when a migrated window emits

A window emits with every hundredth value since the last emission, and `restore_state` starts that count anew. Two
windows with the same contents and different counts are never due at the same value, so they emit alike exactly if
neither of them emits anything: each window that is due for one of them is one whose statistics raise
(`emitted_eq_iff`). Hence a migrated window keeps the schedule exactly if it was migrated right after an emission, or if
none of the windows that are due after the migration can be described; with too few values for the next emission, none
is due.
-/

namespace HybridStream
namespace Workloads

open Lib Py Hea

namespace FeatureAggWindow

variable {F : Type} [PyRuntime F]

/-- The record has a number for its value, so that it enters the window. -/
def Counts (record : Record F) : Bool := (record.getD "normalized_value" (.float 0.0)).toFloat.isOk

/-- The values of a history. -/
def counted (stream : List (Clock F × Record F)) : Nat := stream.countP (fun e => Counts e.2)

/-- A value has entered the window. -/
def pushed (s : FeatureAggWindow F) (value : F) : FeatureAggWindow F :=
  { s with window := dequeAppend s.windowSize s.window value }

/-- `n` values have entered since the last emission. -/
def withCount (s : FeatureAggWindow F) (n : Int) : FeatureAggWindow F := { s with countSinceEmit := n }

/-- The values of a history that entered the window. -/
def valuesOf (history : List (Clock F × Record F)) : List F :=
  history.filterMap (fun e => (e.2.getD "normalized_value" (.float 0.0)).toFloat.toOption)

/-- What a window holds once some values more have entered. -/
def windowAfter (s : FeatureAggWindow F) (values : List F) : List F := lastItems s.windowSize.toNat (s.window ++ values)

/-- A window has a percentile, and `statistics.stdev` takes its values. -/
def Describable (window : List F) : Prop := (∃ p95, p95Of window = .ok p95) ∧ ∃ stdev, deviationOf window = .ok stdev

/-! ## One call

A record without a number raises and leaves the window; any other enters it, and every hundredth one since the last
emission emits. -/

section Call

variable {s : FeatureAggWindow F} {n : Int} {record : Record F} {value : F}

theorem exec_process_error (s : FeatureAggWindow F) (clock : Clock F) {e : PyError}
    (hvalue : (record.getD "normalized_value" (.float 0.0)).toFloat = .error e) :
    (process clock record).exec s = (.error e, s) := by
  unfold process
  rw [hvalue]
  rfl

/-- A value that does not fill the count: nothing is emitted. -/
theorem exec_process_quiet (clock : Clock F)
    (hvalue : (record.getD "normalized_value" (.float 0.0)).toFloat = .ok value) (hlt : n + 1 < s.emitEvery) :
    (process clock record).exec (s.withCount n) = (.ok [], (s.pushed value).withCount (n + 1)) := by
  unfold process
  rw [hvalue]
  simp only [Proc.exec_bind, Proc.exec_lift, Proc.exec_get, Proc.exec_modify, withCount, if_pos hlt]
  rfl

/-- A window that is not empty is described in a record, if it can be. -/
theorem aggregate_isOk_iff (hwindow : s.window ≠ []) (record : Record F) :
    (∃ out, s.aggregate record = .ok out) ↔ Describable s.window := by
  unfold aggregate Describable
  split
  · exact absurd ‹_› hwindow
  · rename_i x xs hxs
    rw [hxs]
    constructor
    · rintro ⟨out, hout⟩
      obtain ⟨p95, hp95, hout⟩ := bind_eq_ok.mp hout
      obtain ⟨stdev, hstdev, -⟩ := bind_eq_ok.mp hout
      exact ⟨⟨p95, hp95⟩, stdev, hstdev⟩
    · rintro ⟨⟨p95, hp95⟩, stdev, hstdev⟩
      exact ⟨_, bind_eq_ok.mpr ⟨p95, hp95, bind_eq_ok.mpr ⟨stdev, hstdev, rfl⟩⟩⟩

/-- A value that fills it: the window is emitted, or the call raises; the count starts again either way. -/
theorem exec_process_emit (clock : Clock F)
    (hvalue : (record.getD "normalized_value" (.float 0.0)).toFloat = .ok value) (hge : ¬ n + 1 < s.emitEvery) :
    (process clock record).exec (s.withCount n) =
      ((((s.pushed value).withCount (n + 1)).aggregate record).map (fun out => [out]),
        (s.pushed value).withCount 0) := by
  unfold process
  rw [hvalue]
  simp only [Proc.exec_bind, Proc.exec_lift, Proc.exec_get, Proc.exec_modify, withCount, if_neg hge]
  unfold pushed
  dsimp only
  generalize aggregate _ record = result
  cases result with
  | error e => rfl
  | ok out => rfl

omit [PyRuntime F] in
theorem pushed_window_ne_nil (hsize : 0 < s.windowSize) (value : F) : (s.pushed value).window ≠ [] :=
  dequeAppend_ne_nil hsize s.window value

/-- **One value**: the count goes up, and something is emitted only if the count is full and the window can be
    described. -/
theorem exec_process_value (clock : Clock F) {m : Nat} (hm : m < 100) (hemit : s.emitEvery = 100)
    (hsize : 0 < s.windowSize) (hvalue : (record.getD "normalized_value" (.float 0.0)).toFloat = .ok value) :
    ((process clock record).exec (s.withCount m)).2 = (s.pushed value).withCount (((m + 1) % 100 : Nat) : Int) ∧
      (emitted ((process clock record).exec (s.withCount m)).1 = [] ↔
        ((m + 1) % 100 = 0 → ¬ Describable (s.pushed value).window)) := by
  by_cases hquiet : m + 1 < 100
  · rw [exec_process_quiet clock hvalue (by omega), Nat.mod_eq_of_lt hquiet]
    exact ⟨rfl, iff_of_true rfl fun h => absurd h (Nat.succ_ne_zero m)⟩
  · have hfull : m + 1 = 100 := by omega
    rw [exec_process_emit clock hvalue (by omega), hfull, Nat.mod_self]
    refine ⟨rfl, ?_⟩
    have haggregate : (∃ out, ((s.pushed value).withCount (m + 1)).aggregate record = .ok out) ↔
        Describable (s.pushed value).window :=
      aggregate_isOk_iff (pushed_window_ne_nil hsize value) record
    rw [forall_prop_of_true rfl, ← haggregate]
    cases ((s.pushed value).withCount (m + 1)).aggregate record with
    | error e => exact iff_of_true rfl nofun
    | ok out  => exact iff_of_false nofun fun h => h ⟨out, rfl⟩

end Call

/-! ## Two counts

Two windows with the same values and different counts emit at different records. They put out the same exactly where
every emission that is due in one of them and not in the other raises instead. -/

theorem counted_cons (e : Clock F × Record F) (stream : List (Clock F × Record F)) :
    counted (e :: stream) = counted stream + if Counts e.2 then 1 else 0 := List.countP_cons

theorem counts_of_ok {record : Record F} {value : F}
    (hvalue : (record.getD "normalized_value" (.float 0.0)).toFloat = .ok value) : Counts record = true := by
  unfold Counts
  rw [hvalue]
  rfl

theorem not_counts_of_error {record : Record F} {e : PyError}
    (hvalue : (record.getD "normalized_value" (.float 0.0)).toFloat = .error e) : ¬ Counts record = true := by
  unfold Counts
  rw [hvalue]
  exact nofun

omit [PyRuntime F] in
theorem windowAfter_cons (s : FeatureAggWindow F) (value : F) (values : List F) :
    windowAfter s (value :: values) = windowAfter (s.pushed value) values := by
  have happend := lastItems_lastItems_append s.windowSize.toNat (s.window ++ [value]) values
  rw [List.append_assoc, List.singleton_append] at happend
  exact happend.symm

/-- **Two windows** with the same contents and different counts emit alike exactly if no window that is due for one of
    them can be described. -/
theorem emitted_eq_iff (stream : List (Clock F × Record F)) {s : FeatureAggWindow F} {m n : Nat} (hm : m < 100)
    (hn : n < 100) (hne : m ≠ n) (hemit : s.emitEvery = 100) (hsize : 0 < s.windowSize) :
    (operator.outcomes (s.withCount m) stream).map emitted = (operator.outcomes (s.withCount n) stream).map emitted ↔
      ∀ k, 0 < k → k ≤ (valuesOf stream).length → (m + k) % 100 = 0 ∨ (n + k) % 100 = 0 →
        ¬ Describable (windowAfter s ((valuesOf stream).take k)) := by
  induction stream generalizing s m n with
  | nil => exact iff_of_true rfl fun k hpos hle => absurd hpos (Nat.not_lt.mpr hle)
  | cons e stream ih =>
      obtain ⟨clock, record⟩ := e
      have hcons : ∀ t : FeatureAggWindow F, (operator.outcomes t ((clock, record) :: stream)).map emitted =
          emitted ((process clock record).exec t).1 ::
            (operator.outcomes ((process clock record).exec t).2 stream).map emitted := fun _ => rfl
      rw [hcons, hcons, List.cons.injEq]
      cases hvalue : (record.getD "normalized_value" (.float 0.0)).toFloat with
      | error err =>
          -- the value is no number: both calls raise, and nothing enters
          have hvalues : valuesOf ((clock, record) :: stream) = valuesOf stream := by
            unfold valuesOf
            rw [List.filterMap_cons, hvalue]
            rfl
          rw [exec_process_error _ clock hvalue, exec_process_error _ clock hvalue, hvalues]
          exact (and_iff_right rfl).trans (ih hm hn hne hemit hsize)
      | ok value =>
          have hvalues : valuesOf ((clock, record) :: stream) = value :: valuesOf stream := by
            unfold valuesOf
            rw [List.filterMap_cons, hvalue]
            rfl
          obtain ⟨hstate, hsilent⟩ := exec_process_value (s := s) clock hm hemit hsize hvalue
          obtain ⟨hstate', hsilent'⟩ := exec_process_value (s := s) clock hn hemit hsize hvalue
          have hwindow : windowAfter s [value] = (s.pushed value).window := rfl
          -- only one of the two can be due, so they emit the same only where both emit nothing
          have hhead : emitted ((process clock record).exec (s.withCount m)).1 =
              emitted ((process clock record).exec (s.withCount n)).1 ↔
                ((m + 1) % 100 = 0 ∨ (n + 1) % 100 = 0 → ¬ Describable (windowAfter s [value])) := by
            rw [hwindow, or_imp, ← hsilent, ← hsilent']
            constructor
            · intro heq
              by_cases hdue : (m + 1) % 100 = 0
              · have hnone := hsilent'.mpr fun hdue' => absurd hdue' (by omega)
                exact ⟨heq.trans hnone, hnone⟩
              · have hnone := hsilent.mpr fun hdue' => absurd hdue' hdue
                exact ⟨hnone, heq.symm.trans hnone⟩
            · exact fun h => h.1.trans h.2.symm
          have hrest := ih (s := s.pushed value) (Nat.mod_lt (m + 1) (by decide)) (Nat.mod_lt (n + 1) (by decide))
            (by omega) hemit hsize
          rw [hstate, hstate', hhead, hrest, hvalues]
          constructor
          · rintro ⟨hfirst, hlater⟩ k hpos hle hdue
            obtain ⟨k, rfl⟩ := Nat.exists_eq_add_of_lt hpos
            rw [Nat.zero_add, List.take_succ_cons]
            cases k with
            | zero => exact hfirst hdue
            | succ k =>
                rw [windowAfter_cons]
                rw [List.length_cons] at hle
                exact hlater (k + 1) (Nat.succ_pos k) (by omega) (by omega)
          · intro h
            refine ⟨fun hdue => ?_, fun k hpos hle hdue => ?_⟩
            · have hfirst := h 1 Nat.one_pos (by rw [List.length_cons]; omega) hdue
              rwa [List.take_succ_cons, List.take_zero] at hfirst
            · have hlater := h (k + 1) (Nat.succ_pos k) (by rw [List.length_cons]; omega) (by omega)
              rwa [List.take_succ_cons, windowAfter_cons] at hlater

/-! ## The count of a history

The count is the number of values modulo a hundred, also if emissions raise: it is set back before the aggregate is
computed. -/

/-- What every call keeps of a window. -/
structure Scheduled (fresh s : FeatureAggWindow F) : Prop where
  operatorId : s.operatorId = fresh.operatorId
  zoneId     : s.zoneId = fresh.zoneId
  windowSize : s.windowSize = fresh.windowSize
  emitEvery  : s.emitEvery = fresh.emitEvery
  length     : s.window.length ≤ s.windowSize.toNat

omit [PyRuntime F] in
theorem length_pushed_le (s : FeatureAggWindow F) (value : F) :
    (s.pushed value).window.length ≤ s.windowSize.toNat := by
  show (dequeAppend s.windowSize s.window value).length ≤ _
  unfold dequeAppend lastItems
  rw [List.length_drop]
  omega

omit [PyRuntime F] in
theorem Scheduled.pushed {fresh s : FeatureAggWindow F} (h : Scheduled fresh s) (value : F) (n : Int) :
    Scheduled fresh ((s.pushed value).withCount n) :=
  ⟨h.operatorId, h.zoneId, h.windowSize, h.emitEvery, length_pushed_le s value⟩

/-- The count runs through the values, back to zero with each emission. -/
theorem run_scheduled (stream : List (Clock F × Record F)) {fresh s : FeatureAggWindow F} {n : Nat}
    (hs : Scheduled fresh s) (hemit : fresh.emitEvery = 100) (hn : n < 100) :
    ∃ t, Scheduled fresh t ∧ operator.run (s.withCount n) stream = t.withCount ((n + counted stream) % 100 : Nat) := by
  induction stream generalizing s n with
  | nil => exact ⟨s, hs, by rw [show counted ([] : List (Clock F × Record F)) = 0 from rfl, Nat.add_zero,
      Nat.mod_eq_of_lt hn]; rfl⟩
  | cons e stream ih =>
      obtain ⟨clock, record⟩ := e
      have hcons : operator.run (s.withCount n) ((clock, record) :: stream) =
        operator.run ((process clock record).exec (s.withCount n)).2 stream := rfl
      rw [hcons, counted_cons]
      cases hvalue : (record.getD "normalized_value" (.float 0.0)).toFloat with
      | error err =>
          rw [exec_process_error _ clock hvalue, if_neg (not_counts_of_error hvalue), Nat.add_zero]
          exact ih hs hn
      | ok value =>
          rw [if_pos (counts_of_ok hvalue)]
          by_cases hquiet : (n : Int) + 1 < s.emitEvery
          · rw [exec_process_quiet clock hvalue hquiet]
            rw [hs.emitEvery, hemit] at hquiet
            obtain ⟨t, ht, hrun⟩ := ih (n := n + 1) (hs.pushed value 0) (by omega)
            refine ⟨t, ht, ?_⟩
            rw [show n + (counted stream + 1) = n + 1 + counted stream by omega, ← hrun]
            rfl
          · rw [exec_process_emit clock hvalue hquiet]
            rw [hs.emitEvery, hemit] at hquiet
            obtain ⟨t, ht, hrun⟩ := ih (n := 0) (hs.pushed value 0) (by omega)
            refine ⟨t, ht, ?_⟩
            rw [show n + (counted stream + 1) = 100 + (0 + counted stream) by omega, Nat.add_mod_left, ← hrun]
            rfl

section Contents

variable {s : FeatureAggWindow F} {n : Nat}

/-- A window holds the last values, `windowSize` at most. -/
def Holds (n : Nat) (values : List F) (s : FeatureAggWindow F) : Prop :=
  s.windowSize = n ∧ s.window = lastItems n values

omit [PyRuntime F] in
theorem Holds.pushed {values : List F} (h : Holds n values s) (value : F) :
    Holds n (values ++ [value]) (s.pushed value) := by
  refine ⟨h.1, ?_⟩
  show dequeAppend s.windowSize s.window value = _
  rw [h.1, h.2, dequeAppend_lastItems]

/-- One record. -/
theorem Holds.process {values : List F} (h : Holds n values s) (clock : Clock F) (record : Record F) :
    Holds n (values ++ valuesOf [(clock, record)]) ((process clock record).exec s).2 := by
  cases hvalue : (record.getD "normalized_value" (.float 0.0)).toFloat with
  | error e =>
      rw [exec_process_error s clock hvalue]
      simpa [valuesOf, hvalue, Except.toOption] using h
  | ok value =>
      have hvalues : valuesOf [(clock, record)] = [value] := by simp [valuesOf, hvalue, Except.toOption]
      rw [hvalues]
      by_cases hquiet : s.countSinceEmit + 1 < s.emitEvery
      · have hexec := exec_process_quiet (s := s) clock hvalue hquiet
        show Holds n _ ((FeatureAggWindow.process clock record).exec (s.withCount s.countSinceEmit)).2
        rw [hexec]
        exact h.pushed value
      · have hexec := exec_process_emit (s := s) clock hvalue hquiet
        show Holds n _ ((FeatureAggWindow.process clock record).exec (s.withCount s.countSinceEmit)).2
        rw [hexec]
        exact h.pushed value

/-- All records of a history. -/
theorem Holds.run {values : List F} (h : Holds n values s) (history : List (Clock F × Record F)) :
    Holds n (values ++ valuesOf history) (operator.run s history) := by
  induction history generalizing values s with
  | nil => rwa [valuesOf, List.filterMap_nil, List.append_nil]
  | cons e history ih =>
      have hvalues : valuesOf (e :: history) = valuesOf [e] ++ valuesOf history := by
        unfold valuesOf
        rw [← List.filterMap_append, List.singleton_append]
      rw [hvalues, ← List.append_assoc]
      exact ih (h.process e.1 e.2)

/-- The count counts the values. -/
theorem length_valuesOf (history : List (Clock F × Record F)) : (valuesOf history).length = counted history := by
  unfold valuesOf counted
  rw [List.length_filterMap_eq_countP]
  refine List.countP_congr fun e _ => ?_
  unfold Counts
  cases (e.2.getD "normalized_value" (.float 0.0)).toFloat <;> exact Iff.rfl

end Contents

omit [PyRuntime F] in
/-- A new window has nothing in it. -/
theorem eq_of_new {operatorId zoneId : String} {windowSize : Int} (hsize : 1 ≤ windowSize) {fresh : FeatureAggWindow F}
    (hnew : new operatorId zoneId windowSize = .ok fresh) : fresh = ⟨operatorId, zoneId, windowSize, [], 100, 0⟩ := by
  unfold new at hnew
  rw [dequeOf_nil (by omega)] at hnew
  exact (Except.ok.inj hnew).symm

/-- From a new window on, the values since the last emission are counted. -/
theorem run_new {operatorId zoneId : String} {windowSize : Int} (hsize : 1 ≤ windowSize) {fresh : FeatureAggWindow F}
    (hnew : new operatorId zoneId windowSize = .ok fresh) (stream : List (Clock F × Record F)) :
    ∃ t, Scheduled fresh t ∧ operator.run fresh stream = t.withCount ((counted stream % 100 : Nat) : Int) := by
  rw [eq_of_new hsize hnew]
  have hstart : Scheduled (⟨operatorId, zoneId, windowSize, [], 100, 0⟩ : FeatureAggWindow F)
      ⟨operatorId, zoneId, windowSize, [], 100, 0⟩ := ⟨rfl, rfl, rfl, rfl, Nat.zero_le _⟩
  obtain ⟨t, ht, hrun⟩ := run_scheduled (n := 0) stream hstart rfl (by omega)
  rw [Nat.zero_add] at hrun
  exact ⟨t, ht, hrun⟩

/-! ## Migration

The count is not exported, so a window that takes over counts from zero. Whether that shows is decided by the number
of values before, and by which of the due windows can be described. -/

theorem restore_getState (clock : Clock F) {fresh s : FeatureAggWindow F} (h : Scheduled fresh s)
    (hsize : 0 ≤ fresh.windowSize) (n : Int) :
    (restoreState clock (getState (s.withCount n))).exec fresh = (.ok ⟨⟩, s.withCount 0) := by
  have hwindow : dequeOf s.windowSize s.window = .ok s.window := by
    have hnat : s.windowSize = (s.windowSize.toNat : Int) := (Int.toNat_of_nonneg (h.windowSize ▸ hsize)).symm
    rw [hnat]
    exact dequeOf_of_length_le h.length
  simp [restoreState, getState, withCount, Proc.exec_bind, Dict.ofList, Dict.update, Dict.getD, Dict.get_set, hwindow,
    ← h.operatorId, ← h.zoneId]

/-- A fresh window takes over after the records `pre`: on each of the records `post` it emits what it would have emitted
    in one uninterrupted run. A call that raises emits nothing. -/
def KeepsSchedule (clock : Clock F) (fresh : FeatureAggWindow F) (pre post : List (Clock F × Record F)) : Prop :=
  ∃ restored, (restoreState clock (operator.run fresh pre).getState).exec fresh = (.ok ⟨⟩, restored) ∧
    (operator.outcomes restored post).map emitted =
      ((operator.outcomes fresh (pre ++ post)).drop pre.length).map emitted

/-- A window of so many values is due after `k` values more, counted from the start or from the migration. -/
def Due (before k : Nat) : Prop := (before + k) % 100 = 0 ∨ k % 100 = 0

/-- **When a migrated window keeps its schedule.** Migrated right after an emission it counts as the uninterrupted one
    does. Otherwise the two are due at different values, and they emit alike only where no window that is due can be
    described: because too few values follow, or because the statistics raise on each of them. -/
theorem keepsSchedule_iff {operatorId zoneId : String} {windowSize : Int} (hsize : 1 ≤ windowSize)
    {fresh : FeatureAggWindow F} (hnew : new operatorId zoneId windowSize = .ok fresh) (clock : Clock F)
    (pre post : List (Clock F × Record F)) :
    KeepsSchedule clock fresh pre post ↔ counted pre % 100 = 0 ∨
      ∀ k, 0 < k → k ≤ counted post → Due (counted pre) k →
        ¬ Describable (lastItems windowSize.toNat (valuesOf pre ++ (valuesOf post).take k)) := by
  -- the uninterrupted run: where it stands after the history, and what its window holds
  have hfresh : fresh = ⟨operatorId, zoneId, windowSize, [], 100, 0⟩ := eq_of_new hsize hnew
  obtain ⟨t, ht, hrun⟩ := run_new hsize hnew pre
  have hnat : windowSize = (windowSize.toNat : Int) := (Int.toNat_of_nonneg (by omega)).symm
  have hholds : Holds windowSize.toNat ([] ++ valuesOf pre) (operator.run fresh pre) := by
    refine Holds.run ⟨?_, ?_⟩ pre
    · rw [hfresh]
      exact hnat
    · rw [hfresh, lastItems_nil]
  have hwindow : ∀ values, windowAfter t values = lastItems windowSize.toNat (valuesOf pre ++ values) := by
    intro values
    rw [hrun, List.nil_append] at hholds
    have hsizeOf : t.windowSize = (windowSize.toNat : Int) := hholds.1
    have hcontents : t.window = lastItems windowSize.toNat (valuesOf pre) := hholds.2
    rw [windowAfter, hsizeOf, hcontents, Int.toNat_natCast, lastItems_lastItems_append]
  -- the restored one has the same window, and its count is zero instead of what is left of a hundred
  have hrestore := restore_getState clock ht (by rw [hfresh]; show 0 ≤ windowSize; omega)
    ((counted pre % 100 : Nat) : Int)
  have hrest : (operator.outcomes fresh (pre ++ post)).drop pre.length =
      operator.outcomes (operator.run fresh pre) post := by
    rw [BaseOperator.outcomes_append, ← BaseOperator.length_outcomes operator fresh pre, List.drop_left]
  -- so the two differ in their counts only, and the claim is about two counts on one stream
  have hiff : KeepsSchedule clock fresh pre post ↔
      (operator.outcomes (t.withCount (0 : Nat)) post).map emitted =
        (operator.outcomes (t.withCount ((counted pre % 100 : Nat) : Int)) post).map emitted := by
    unfold KeepsSchedule
    rw [hrest, hrun, hrestore]
    constructor
    · rintro ⟨restored, heq, hemitted⟩
      cases heq
      exact hemitted
    · exact fun h => ⟨_, rfl, h⟩
  have hemit : t.emitEvery = 100 := by rw [ht.emitEvery, hfresh]
  have hpositive : 0 < t.windowSize := by
    rw [ht.windowSize, hfresh]
    show 0 < windowSize
    omega
  rw [hiff]
  -- with equal counts there is nothing to compare; otherwise they are due at different values
  by_cases hcount : counted pre % 100 = 0
  · rw [hcount]
    exact iff_of_true rfl (Or.inl rfl)
  · rw [emitted_eq_iff post (by decide) (Nat.mod_lt _ (by decide)) (Ne.symm hcount) hemit hpositive, length_valuesOf,
      or_iff_right hcount]
    refine forall_congr' fun k => forall_congr' fun _ => forall_congr' fun _ => ?_
    rw [hwindow, Nat.zero_add, Nat.mod_add_mod, or_comm]
    exact Iff.rfl

/-- A window that was migrated after its hundredth value. -/
theorem keepsSchedule_iff_hundred :
    KeepsSchedule (F := ℚ) ⟨0, fun _ => 0⟩ ⟨"agg-1", "zone_1", 1000, [], 100, 0⟩
      (List.replicate 100 (⟨0, fun _ => 0⟩, ∅)) (List.replicate 100 (⟨0, fun _ => 0⟩, ∅)) := by
  have hnew : new "agg-1" "zone_1" 1000 = .ok (⟨"agg-1", "zone_1", 1000, [], 100, 0⟩ : FeatureAggWindow ℚ) := rfl
  exact (keepsSchedule_iff (by decide) hnew _ _ _).mpr (Or.inl (by decide +kernel))

/-- A window migrated after its first value: of the following ninety-nine records the last one should bring an
    aggregate and does not. -/
theorem emission_missed : ∃ fresh restored : FeatureAggWindow ℚ,
    new "agg-1" "zone_1" 1000 = .ok fresh ∧
    (restoreState ⟨0, fun _ => 0⟩ (operator.run fresh [(⟨0, fun _ => 0⟩, ∅)]).getState).exec fresh =
      (.ok ⟨⟩, restored) ∧
    (operator.outcomes fresh (List.replicate 100 (⟨0, fun _ => 0⟩, ∅))).any (fun r => !(emitted r).isEmpty) = true ∧
    (operator.outcomes restored (List.replicate 99 (⟨0, fun _ => 0⟩, ∅))).all (fun r => (emitted r).isEmpty) =
      true := by
  refine ⟨⟨"agg-1", "zone_1", 1000, [], 100, 0⟩, ⟨"agg-1", "zone_1", 1000, [0.0], 100, 0⟩, rfl, ?_, ?_, ?_⟩
  · have hscheduled : Scheduled (⟨"agg-1", "zone_1", 1000, [], 100, 0⟩ : FeatureAggWindow ℚ)
        ⟨"agg-1", "zone_1", 1000, [0.0], 100, 0⟩ := ⟨rfl, rfl, rfl, rfl, by decide⟩
    exact restore_getState ⟨0, fun _ => 0⟩ hscheduled (by decide) 1
  · decide +kernel
  · decide +kernel

end FeatureAggWindow

end Workloads
end HybridStream
