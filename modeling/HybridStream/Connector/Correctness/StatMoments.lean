import HybridStream.Connector.Correctness.Mirror
import HybridStream.Workloads.Correctness.Welford

/-!
# `Connector.Correctness.StatMoments` — the moments of both stat aggregators

The Java `StatAggregator` keeps a sum where the Python one keeps a mean, and works the mean before the record out
of it. In exact arithmetic both arrive at the moments of the values, as long as the Java count, a long, can count
them (`sameMoments_iff`).

Both operators are followed against the stream of values and not against each other, as they have no attribute in
common but the count. The count is what ends the agreement: a `long` that has become negative divides by a negative
number.
-/

namespace HybridStream
namespace Connector

open Lib Lib.Moments Py Hea

noncomputable instance : JavaRuntime EReal where
  streamSum     := List.sum
  mathMin       := min
  mathMax       := max
  parseDouble _ := none
  parseLong _   := none
  doubleText _  := ""
  bytesText _   := ""

namespace StatMoments

/-! ## Running a logic

The Java logic over a list of records from an empty state, and what it means that both sides have the same moments. -/

/-- The result of the last record, where a logic starts from `state`. -/
def runLogic {F : Type} (logic : OperatorLogic F) (state : Record F) (records : List (Record F)) :
    Except JavaException (ProcessResult F) :=
  records.foldlM (fun result record => logic record result.newState) ⟨state, []⟩

/-- The record has the number `x` for its value. -/
def Carries (record : Record EReal) (x : ℝ) : Prop := record.get "value" = some (.float (x : EReal))

/-- The Java operator's count and `m2`, and the mean and variance it put out last, are those of the Python
    operator; of one value the variance is zero. -/
def SameMoments (s : Workloads.StatAggregator EReal) (result : ProcessResult EReal) : Prop :=
  result.newState.get "count" = some (.int s.count) ∧
  result.newState.get "m2" = some (.float s.m2) ∧
  ∃ out, result.outputRecords = [out] ∧
    out.get "mean" = some (.float s.mean) ∧
    out.get "variance" = some (.float (if 1 < s.count then s.m2 / ((s.count - 1 : Int) : ℝ) else ((0 : ℝ) : EReal)))

/-! ## One record

The state after a record from the one before it: the count wraps as a long does, and the other numbers are exact as
long as it has not. -/

section Logic

variable {F : Type} [JavaRuntime F]

/-- The count with one more record. -/
def countWith (state : Record F) : Int := narrow 64 (getLong state "count" 0 + 1)

/-- The sum with one more record. -/
def sumWith (state record : Record F) : F := getDouble state "sum" 0.0 + getDouble record "value" 0.0

/-- The mean with one more record. -/
def meanWith (state record : Record F) : F := sumWith state record / doubleOf (countWith state)

/-- The mean before the record, worked out of the new sum. -/
def meanBefore (state record : Record F) : F :=
  (sumWith state record - getDouble record "value" 0.0) / doubleOf (max 1 (narrow 64 (countWith state - 1)))

/-- `m2` with one more record. -/
def m2With (state record : Record F) : F :=
  getDouble state "m2" 0.0 +
    (getDouble record "value" 0.0 - meanBefore state record) *
      (getDouble record "value" 0.0 - meanWith state record)

/-- The entries a record writes into the state. -/
def written (state record : Record F) : List (String × Value F) :=
  [("count", .int (countWith state)), ("sum", .float (sumWith state record)), ("m2", .float (m2With state record))]

/-- The logic never throws. -/
theorem statAggregator_eq (record state : Record F) :
    OperatorFactory.statAggregator record state = .ok ⟨state.update (written state record), [Dict.ofList
      [ ("count", .int (countWith state)), ("sum", .float (sumWith state record)),
        ("mean", .float (meanWith state record)),
        ("variance", .float (if 1 < countWith state
          then m2With state record / doubleOf (narrow 64 (countWith state - 1)) else 0.0)) ]]⟩ := rfl

theorem get_written (state record : Record F) {e : String × Value F} (h : e ∈ written state record) :
    (state.update (written state record)).get e.1 = some e.2 := Dict.get_update_of_mem (by simp [written]) h

theorem get_count_written (state record : Record F) :
    (state.update (written state record)).get "count" = some (.int (countWith state)) :=
  get_written state record List.mem_cons_self

theorem get_sum_written (state record : Record F) :
    (state.update (written state record)).get "sum" = some (.float (sumWith state record)) :=
  get_written state record (List.mem_cons_of_mem _ List.mem_cons_self)

theorem get_m2_written (state record : Record F) :
    (state.update (written state record)).get "m2" = some (.float (m2With state record)) :=
  get_written state record (List.mem_cons_of_mem _ (List.mem_cons_of_mem _ List.mem_cons_self))

end Logic

/-- The count in a Java state after a history of `n` records. -/
def Counted (n : Nat) (state : Record EReal) : Prop := getLong state "count" 0 = narrow 64 n

theorem counted_written {n : Nat} {state : Record EReal} (h : Counted n state) (record : Record EReal) :
    Counted (n + 1) (state.update (written state record)) := by
  unfold Counted at h ⊢
  have hread : getLong (state.update (written state record)) "count" 0 = narrow 64 (countWith state) := by
    unfold getLong Dict.getD
    rw [get_count_written]
    rfl
  rw [hread, countWith, h, narrow_long_succ, narrow_long_idem, Nat.cast_succ]

/-- The Java state after the values `xs`, while the count can count them. -/
structure Sums (xs : List ℝ) (state : Record EReal) : Prop where
  sum : getDouble state "sum" 0.0 = ((xs.sum : ℝ) : EReal)
  m2  : getDouble state "m2" 0.0 = ((sqDev xs : ℝ) : EReal)

theorem empty_sums : Sums [] ∅ where
  sum := Extended.zero_eq
  m2  := by rw [sqDev_nil]; exact Extended.zero_eq

section Step

variable {xs : List ℝ} {state record : Record EReal} {x : ℝ}

/-- While it is in range, the count is the number of records. -/
theorem countWith_eq (hcount : Counted xs.length state) (hlt : xs.length + 1 < 2 ^ 63) :
    countWith state = (xs.length + 1 : Nat) := by
  rw [countWith, hcount, narrow_long_succ, narrow_long_eq_iff.mpr ⟨by omega, by omega⟩, Nat.cast_succ]

theorem sumWith_eq (h : Sums xs state) (hx : Carries record x) :
    sumWith state record = (((xs ++ [x]).sum : ℝ) : EReal) := by
  rw [sumWith, h.sum, getDouble_of_get hx, List.sum_append, List.sum_singleton]
  rfl

theorem meanWith_eq (h : Sums xs state) (hx : Carries record x) (hcount : Counted xs.length state)
    (hlt : xs.length + 1 < 2 ^ 63) : meanWith state record = ((mean (xs ++ [x]) : ℝ) : EReal) := by
  rw [meanWith, sumWith_eq h hx, countWith_eq hcount hlt, mean, List.length_append, List.length_singleton]
  rfl

/-- The quotient that is guarded against the first record is the mean before. -/
theorem meanBefore_eq (h : Sums xs state) (hx : Carries record x) (hcount : Counted xs.length state)
    (hlt : xs.length + 1 < 2 ^ 63) : meanBefore state record = ((mean xs : ℝ) : EReal) := by
  have hsum : sumWith state record - (x : EReal) = ((xs.sum : ℝ) : EReal) := by
    rw [sumWith_eq h hx, List.sum_append, List.sum_singleton]
    show (((xs.sum + x) - x : ℝ) : EReal) = _
    rw [add_sub_cancel_right]
  have hnarrow : narrow 64 (countWith state - 1) = xs.length := by
    rw [countWith_eq hcount hlt, Nat.cast_succ, add_sub_cancel_right]
    exact narrow_long_eq_iff.mpr ⟨by omega, by omega⟩
  rw [meanBefore, getDouble_of_get hx, hsum, hnarrow]
  show ((xs.sum / ((max 1 (xs.length : Int) : Int) : ℝ) : ℝ) : EReal) = _
  cases xs with
  | nil => simp
  | cons y xs =>
      have hmax : max 1 ((y :: xs).length : Int) = ((y :: xs).length : Int) := max_eq_right (by simp)
      rw [hmax, mean, Int.cast_natCast]

theorem m2With_eq (h : Sums xs state) (hx : Carries record x) (hcount : Counted xs.length state)
    (hlt : xs.length + 1 < 2 ^ 63) : m2With state record = ((sqDev (xs ++ [x]) : ℝ) : EReal) := by
  rw [m2With, h.m2, getDouble_of_get hx, meanBefore_eq h hx hcount hlt, meanWith_eq h hx hcount hlt, sqDev_concat]
  rfl

theorem sums_written (h : Sums xs state) (hx : Carries record x) (hcount : Counted xs.length state)
    (hlt : xs.length + 1 < 2 ^ 63) : Sums (xs ++ [x]) (state.update (written state record)) where
  sum := by rw [getDouble_of_get (get_sum_written state record), sumWith_eq h hx]
  m2  := by rw [getDouble_of_get (get_m2_written state record), m2With_eq h hx hcount hlt]

end Step

/-! ## A history

Along a stream the Java state has the sums of the values so far, which say the same as the mean and the squared
deviations that Python keeps. -/

/-- Where Java stands after the values `xs`: the count at every length, the rest while the count is in range. -/
structure Tracks (xs : List ℝ) (result : ProcessResult EReal) : Prop where
  counted : Counted xs.length result.newState
  sums    : xs.length < 2 ^ 63 → Sums xs result.newState
  count   : xs ≠ [] → result.newState.get "count" = some (.int (narrow 64 xs.length))
  moments : xs ≠ [] → xs.length < 2 ^ 63 →
    result.newState.get "m2" = some (.float ((sqDev xs : ℝ) : EReal)) ∧
    ∃ out, result.outputRecords = [out] ∧
      out.get "mean" = some (.float ((mean xs : ℝ) : EReal)) ∧
      out.get "variance" =
        some (.float (if 1 < xs.length then ((sqDev xs / (xs.length - 1) : ℝ) : EReal) else ((0 : ℝ) : EReal)))

theorem empty_tracks (outs : List (Record EReal)) : Tracks [] ⟨∅, outs⟩ where
  counted   := rfl
  sums _    := empty_sums
  count h   := absurd rfl h
  moments h := absurd rfl h

/-- The variance of a history, as Java computes it from the count. -/
theorem variance_eq {xs : List ℝ} {state record : Record EReal} {x : ℝ} (h : Sums xs state) (hx : Carries record x)
    (hcount : Counted xs.length state) (hlt : xs.length + 1 < 2 ^ 63) :
    (if 1 < countWith state then m2With state record / doubleOf (narrow 64 (countWith state - 1)) else 0.0) =
      (if 1 < (xs ++ [x]).length
        then ((sqDev (xs ++ [x]) / ((xs ++ [x]).length - 1) : ℝ) : EReal) else ((0 : ℝ) : EReal)) := by
  have hnarrow : narrow 64 (countWith state - 1) = xs.length := by
    rw [countWith_eq hcount hlt, Nat.cast_succ, add_sub_cancel_right]
    exact narrow_long_eq_iff.mpr ⟨by omega, by omega⟩
  have hlength : (((xs ++ [x]).length : ℝ) - 1) = ((xs.length : Int) : ℝ) := by
    rw [List.length_append, List.length_singleton, Nat.cast_succ, add_sub_cancel_right, Int.cast_natCast]
  have hiff : 1 < countWith state ↔ 1 < (xs ++ [x]).length := by
    rw [countWith_eq hcount hlt, List.length_append, List.length_singleton]
    omega
  rw [m2With_eq h hx hcount hlt, hnarrow, hlength, Extended.zero_eq]
  exact if_congr hiff rfl rfl

/-- One more record. -/
theorem Tracks.step {xs : List ℝ} {result : ProcessResult EReal} (h : Tracks xs result) {record : Record EReal}
    {x : ℝ} (hx : Carries record x) :
    ∃ next, OperatorFactory.statAggregator record result.newState = .ok next ∧ Tracks (xs ++ [x]) next := by
  refine ⟨_, statAggregator_eq record result.newState, ?_, ?_, ?_, ?_⟩
  · rw [List.length_append, List.length_singleton]
    exact counted_written h.counted record
  · intro hlt
    rw [List.length_append, List.length_singleton] at hlt
    exact sums_written (h.sums (by omega)) hx h.counted hlt
  · intro _
    rw [get_count_written, countWith, h.counted, narrow_long_succ, List.length_append, List.length_singleton,
      Nat.cast_succ]
  · intro _ hlt
    rw [List.length_append, List.length_singleton] at hlt
    have hsums := h.sums (by omega)
    refine ⟨?_, _, rfl, ?_, ?_⟩
    · rw [get_m2_written, m2With_eq hsums hx h.counted hlt]
    · rw [← meanWith_eq hsums hx h.counted hlt]
      rfl
    · rw [← variance_eq hsums hx h.counted hlt]
      rfl

/-- **The run lemma.** -/
theorem Tracks.run {records : List (Record EReal)} {values : List ℝ} (hcarry : List.Forall₂ Carries records values)
    {xs : List ℝ} {result : ProcessResult EReal} (h : Tracks xs result) :
    ∃ last, records.foldlM (fun result record => OperatorFactory.statAggregator record result.newState) result =
      .ok last ∧ Tracks (xs ++ values) last := by
  induction hcarry generalizing xs result with
  | nil => exact ⟨result, rfl, by rwa [List.append_nil]⟩
  | cons hx hcarry ih =>
      obtain ⟨next, hnext, htracks⟩ := h.step hx
      obtain ⟨last, hlast, hrun⟩ := ih htracks
      refine ⟨last, ?_, by rwa [List.append_cons]⟩
      rw [List.foldlM_cons, hnext]
      exact hlast

/-! ## Both sides

Both follow the moments of the stream, by different recurrences. They are compared with the stream and not with each
other. -/

theorem reads_of_carries {record : Record EReal} {x : ℝ} (h : Carries record x) (clock : Clock EReal) :
    Workloads.Welford.Reads (clock, record) x := by
  unfold Workloads.Welford.Reads Dict.getD
  rw [h]
  rfl

theorem stoppedAt_reads {records : List (Record EReal)} {values : List ℝ}
    (h : List.Forall₂ Carries records values) (clock : Clock EReal) :
    List.Forall₂ Workloads.Welford.Reads (BaseOperator.stoppedAt clock records) values :=
  List.forall₂_map_left_iff.mpr (h.imp fun _ _ hx => reads_of_carries hx clock)

/-- The moments of both sides are those of the values. -/
theorem sameMoments_of_tracks {instrumentClass : String} {xs : List ℝ} {s : Workloads.StatAggregator EReal}
    {result : ProcessResult EReal} (hpython : Workloads.Welford.Follows instrumentClass xs s)
    (hjava : Tracks xs result) (hne : xs ≠ []) : SameMoments s result ↔ xs.length < 2 ^ 63 := by
  constructor
  · rintro ⟨hcount, -⟩
    rw [hjava.count hne, hpython.count] at hcount
    have hrange := narrow_long_eq_iff.mp (Value.int.inj (Option.some.inj hcount))
    omega
  · intro hlt
    obtain ⟨hm2, out, hout, hmean, hvariance⟩ := hjava.moments hne hlt
    have hnarrow : narrow 64 (xs.length : Int) = xs.length := narrow_long_eq_iff.mpr ⟨by omega, by omega⟩
    refine ⟨?_, ?_, out, hout, ?_, ?_⟩
    · rw [hjava.count hne, hpython.count, hnarrow]
    · rw [hm2, hpython.m2]
    · rw [hmean, hpython.mean]
    · rw [hvariance, hpython.count, hpython.m2]
      have hlength : ((xs.length : ℝ) - 1) = ((xs.length - 1 : Int) : ℝ) := by push_cast; ring
      rw [hlength]
      refine congrArg (fun v => some (Value.float v)) (if_congr ?_ rfl rfl)
      omega

/-- After records with values, from the initial state. -/
theorem python_follows (operatorId instrumentClass : String) (clock : Clock EReal) {records : List (Record EReal)}
    {values : List ℝ} (hcarry : List.Forall₂ Carries records values) :
    Workloads.Welford.Follows instrumentClass values
      (Workloads.StatAggregator.operator.run (Workloads.StatAggregator.new operatorId instrumentClass)
        (BaseOperator.stoppedAt clock records)) :=
  (Workloads.Welford.run_follows (stoppedAt_reads hcarry clock)
    (Workloads.Welford.new_follows operatorId instrumentClass)).1

/-- **The two stat aggregators arrive at the same moments** exactly as long as a long can count the values. Each of them
    follows the moments of the stream (the values are numbers: `Py.Extended` reads none from text), and of all they
    keep only the count is narrowed, to a `long` on the Java side. -/
theorem sameMoments_iff (operatorId instrumentClass : String) (clock : Clock EReal) {records : List (Record EReal)}
    {values : List ℝ} (hcarry : List.Forall₂ Carries records values) (hne : values ≠ []) :
    ∃ result, runLogic (OperatorFactory.logicFor "StatAggregator") ∅ records = .ok result ∧
      (SameMoments
        (Workloads.StatAggregator.operator.run (Workloads.StatAggregator.new operatorId instrumentClass)
          (BaseOperator.stoppedAt clock records)) result ↔
        values.length < 2 ^ 63) := by
  obtain ⟨result, hresult, hjava⟩ := (empty_tracks []).run hcarry
  exact ⟨result, hresult,
    sameMoments_of_tracks (python_follows operatorId instrumentClass clock hcarry) hjava hne⟩

/-- The record with the value `x`. -/
noncomputable def valued (x : ℝ) : Record EReal := Dict.ofList [("value", .float (x : EReal))]

/-- Of one value. -/
theorem sameMoments_iff_one :
    ∃ result, runLogic (OperatorFactory.logicFor "StatAggregator") ∅ [valued 4] = .ok result ∧
      SameMoments
        (Workloads.StatAggregator.operator.run (Workloads.StatAggregator.new "stat-fx" "fx")
          (BaseOperator.stoppedAt ⟨0, fun _ => 0⟩ [valued 4])) result := by
  obtain ⟨result, hresult, hsame⟩ :=
    sameMoments_iff "stat-fx" "fx" ⟨0, fun _ => 0⟩ (.cons (show Carries (valued 4) 4 from rfl) .nil) (by simp)
  exact ⟨result, hresult, hsame.mpr (by simp)⟩

/-- After `2 ^ 63` records of value zero the Java count has become negative. -/
theorem count_wraps :
    ¬ ∃ result, runLogic (OperatorFactory.logicFor "StatAggregator") ∅ (List.replicate (2 ^ 63) (valued 0)) =
        .ok result ∧
      SameMoments
        (Workloads.StatAggregator.operator.run (Workloads.StatAggregator.new "stat-fx" "fx")
          (BaseOperator.stoppedAt ⟨0, fun _ => 0⟩ (List.replicate (2 ^ 63) (valued 0)))) result := by
  have hcarry : ∀ n, List.Forall₂ Carries (List.replicate n (valued 0)) (List.replicate n 0) := by
    intro n
    induction n with
    | zero => exact .nil
    | succ n ih => exact .cons rfl ih
  have hne : List.replicate (2 ^ 63) (0 : ℝ) ≠ [] := List.ne_nil_of_length_pos (by rw [List.length_replicate]; norm_num)
  rintro ⟨result, hresult, hmoments⟩
  obtain ⟨last, hlast, hjava⟩ := (empty_tracks []).run (hcarry (2 ^ 63))
  cases hresult.symm.trans hlast
  have hlt := (sameMoments_of_tracks (python_follows "stat-fx" "fx" _ (hcarry (2 ^ 63))) hjava hne).mp hmoments
  rw [List.length_replicate] at hlt
  exact absurd hlt (lt_irrefl _)

end StatMoments

end Connector
end HybridStream
