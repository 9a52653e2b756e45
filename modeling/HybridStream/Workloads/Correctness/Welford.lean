import HybridStream.Lib.Moments
import HybridStream.Py.Extended
import HybridStream.Workloads.Correctness.Resume

/-!
# `Workloads.Correctness.Welford` — the running statistics are the statistics

After any values the attributes of a `StatAggregator` are the count, the mean, the squared deviations and the
extrema of these values (`Follows`), and what it puts out is made of them. Exact arithmetic: the values are
real numbers, only the initial extrema are infinite.

The proof follows the attributes through one call, in which the code computes the update of `Lib.Moments` in its own
order of operations, and then through the history. The two infinities that the extrema start from are the only reason
for extended reals: after the first value everything is finite.
-/

namespace HybridStream
namespace Workloads

open Lib Lib.Moments Py Hea

namespace Welford

open StatAggregator (process new operator)

/-- The record's value is the number `x`. -/
def Reads (e : Clock EReal × Record EReal) (x : ℝ) : Prop :=
  (e.2.getD "value" (.float 0.0)).toFloat = .ok (x : EReal)

/-- The greatest lower bound of some values. -/
noncomputable def infimum (xs : List ℝ) : EReal := sInf (Real.toEReal '' {x | x ∈ xs})

/-- Their least upper bound. -/
noncomputable def supremum (xs : List ℝ) : EReal := sSup (Real.toEReal '' {x | x ∈ xs})

/-- The variance of a sample. -/
noncomputable def variance (xs : List ℝ) : ℝ := sqDev xs / (xs.length - 1)

/-- The aggregate of some values, with the roundings of the code. -/
noncomputable def aggregate (instrumentClass : String) (xs : List ℝ) : Record EReal := Dict.ofList
  [ ("instrument_class", .str instrumentClass),
    ("count",            .int xs.length),
    ("mean",             .float (PyRuntime.round ((mean xs : ℝ) : EReal) 6)),
    ("std",              .float (PyRuntime.round ((Real.sqrt (variance xs) : ℝ) : EReal) 6)),
    ("variance",         .float (PyRuntime.round ((variance xs : ℝ) : EReal) 8)),
    ("min",              .float (infimum xs)),
    ("max",              .float (supremum xs)) ]

/-- What is put out with the last of some values. -/
noncomputable def emission (instrumentClass : String) (xs : List ℝ) : List (Record EReal) :=
  if xs.length % 500 = 0 then [aggregate instrumentClass xs] else []

/-- The attributes are the statistics of the values `xs`. -/
structure Follows (instrumentClass : String) (xs : List ℝ) (s : StatAggregator EReal) : Prop where
  instrumentClass : s.instrumentClass = .str instrumentClass
  count           : s.count = xs.length
  mean            : s.mean = (mean xs : ℝ)
  m2              : s.m2 = (sqDev xs : ℝ)
  min             : IsGLB (Real.toEReal '' {x | x ∈ xs}) s.min
  max             : IsLUB (Real.toEReal '' {x | x ∈ xs}) s.max

variable {instrumentClass : String} {xs : List ℝ} {s : StatAggregator EReal}

theorem new_follows (operatorId instrumentClass : String) :
    Follows instrumentClass [] (new operatorId instrumentClass) where
  instrumentClass := rfl
  count           := rfl
  mean            := by rw [mean_nil]; exact Extended.zero_eq
  m2              := by rw [sqDev_nil]; exact Extended.zero_eq
  min             := by
    show IsGLB _ ⊤
    simp
  max             := by
    show IsLUB _ ⊥
    simp

theorem infimum_eq (h : Follows instrumentClass xs s) : infimum xs = s.min := h.min.sInf_eq

theorem supremum_eq (h : Follows instrumentClass xs s) : supremum xs = s.max := h.max.sSup_eq

theorem variance_nonneg (h : 0 < xs.length) : 0 ≤ variance xs := by
  have hlength : (1 : ℝ) ≤ xs.length := Nat.one_le_cast.mpr h
  exact div_nonneg (sqDev_nonneg xs) (sub_nonneg.mpr hlength)

/-! ## One value

The update of the library, as the code writes it: the deviation from the mean before, and from the mean after. -/

/-- The attributes with one more value, as `process` writes them. -/
noncomputable def advanced (s : StatAggregator EReal) (xs : List ℝ) (x : ℝ) : StatAggregator EReal :=
  { s with
    count := s.count + 1
    mean  := (mean (xs ++ [x]) : ℝ)
    m2    := (sqDev (xs ++ [x]) : ℝ)
    min   := min s.min x
    max   := max s.max x }

theorem follows_advanced (h : Follows instrumentClass xs s) (x : ℝ) :
    Follows instrumentClass (xs ++ [x]) (advanced s xs x) where
  instrumentClass := h.instrumentClass
  count           := by
    show s.count + 1 = _
    rw [h.count, List.length_append, List.length_singleton, Nat.cast_succ]
  mean            := rfl
  m2              := rfl
  min             := isGLB_concat h.min x
  max             := isLUB_concat h.max x

/-- **One call**: the recurrence of the code computes the statistics with one more value. -/
theorem exec_process (h : Follows instrumentClass xs s) {clock : Clock EReal} {record : Record EReal}
    {x : ℝ} (hx : Reads (clock, record) x) :
    (process clock record).exec s = (.ok (emission instrumentClass (xs ++ [x])), advanced s xs x) := by
  -- each intermediate result of the code is the coercion of a real one, as all that enters it is finite
  have hvalue : (record.getD "value" (.float 0.0)).toFloat = .ok (x : EReal) := hx
  have hdelta : (x : EReal) - s.mean = ((x - mean xs : ℝ) : EReal) := by rw [h.mean]; rfl
  have hcount : s.count + 1 ≠ 0 := by rw [h.count]; omega
  have hmean : s.mean + (((x - mean xs) / (s.count + 1 : Int) : ℝ) : EReal) =
      (mean (xs ++ [x]) : ℝ) := by
    rw [h.mean, mean_concat, h.count, Int.cast_add, Int.cast_natCast, Int.cast_one]
    rfl
  have hm2 : s.m2 + ((x - mean xs : ℝ) : EReal) * ((x : EReal) - (mean (xs ++ [x]) : ℝ)) =
      (sqDev (xs ++ [x]) : ℝ) := by
    rw [h.m2, sqDev_concat]
    rfl
  unfold process
  simp only [Proc.exec_bind, Proc.exec_lift, Proc.exec_get, Proc.exec_modify, hvalue, hdelta,
    Extended.floatDivInt_coe _ hcount, hmean, hm2, OrderedRuntime.pyMin_eq_min, OrderedRuntime.pyMax_eq_max]
  have hlength : s.count + 1 = ((xs ++ [x]).length : Int) := (follows_advanced h x).count
  -- every five hundredth call puts out what the attributes are now
  by_cases hemit : (xs ++ [x]).length % 500 = 0
  · have hpos : 0 < (xs ++ [x]).length := by simp
    have hmod : (s.count + 1) % 500 = 0 := by omega
    have hgt : s.count + 1 > 1 := by omega
    have hpred : s.count + 1 - 1 ≠ 0 := by omega
    have hdiv : sqDev (xs ++ [x]) / ((s.count + 1 - 1 : Int) : ℝ) = variance (xs ++ [x]) := by
      rw [hlength, variance, Int.cast_sub, Int.cast_natCast, Int.cast_one]
    have haggregate : aggregate instrumentClass (xs ++ [x]) = Dict.ofList
        [ ("instrument_class", s.instrumentClass),
          ("count",            .int (s.count + 1)),
          ("mean",             .float (PyRuntime.round ((mean (xs ++ [x]) : ℝ) : EReal) 6)),
          ("std",              .float (PyRuntime.round ((Real.sqrt (variance (xs ++ [x])) : ℝ) : EReal) 6)),
          ("variance",         .float (PyRuntime.round ((variance (xs ++ [x]) : ℝ) : EReal) 8)),
          ("min",              .float (min s.min x)),
          ("max",              .float (max s.max x)) ] := by
      rw [aggregate, infimum_eq (follows_advanced h x), supremum_eq (follows_advanced h x), h.instrumentClass, hlength]
      rfl
    rw [if_pos hmod, if_pos hgt, Extended.floatDivInt_coe _ hpred, hdiv]
    simp only [Proc.exec_bind, Proc.exec_lift, Extended.pySqrt_coe (variance_nonneg hpos), Proc.exec_pure]
    rw [emission, if_pos hemit, haggregate]
    rfl
  · have hmod : ¬ (s.count + 1) % 500 = 0 := by omega
    rw [if_neg hmod, emission, if_neg hemit]
    rfl

/-! ## A history

By induction over the records; what is put out with each of them is the aggregate of the values so far. -/

/-- **Every call and the whole history**, by induction on the records. -/
theorem run_follows {stream : List (Clock EReal × Record EReal)} {values : List ℝ}
    (hreads : List.Forall₂ Reads stream values) (h : Follows instrumentClass xs s) :
    Follows instrumentClass (xs ++ values) (operator.run s stream) ∧
      operator.outcomes s stream = (List.range values.length).map
        (fun i => .ok (emission instrumentClass (xs ++ values.take (i + 1)))) := by
  induction hreads generalizing xs s with
  | nil => exact ⟨by rwa [List.append_nil], rfl⟩
  | @cons e x stream values hx hreads ih =>
      have hcall : (process e.1 e.2).exec s = (.ok (emission instrumentClass (xs ++ [x])), advanced s xs x) :=
        exec_process h hx
      have hrun : operator.run s (e :: stream) = operator.run (advanced s xs x) stream := by
        show operator.run ((process e.1 e.2).exec s).2 stream = _
        rw [hcall]
      have houtcomes : operator.outcomes s (e :: stream) =
          .ok (emission instrumentClass (xs ++ [x])) :: operator.outcomes (advanced s xs x) stream := by
        show ((process e.1 e.2).exec s).1 :: operator.outcomes ((process e.1 e.2).exec s).2 stream = _
        rw [hcall]
      obtain ⟨hfollows, hrest⟩ := ih (follows_advanced h x)
      constructor
      · rw [hrun, List.append_cons]
        exact hfollows
      · rw [houtcomes, hrest, List.length_cons, List.range_succ_eq_map, List.map_cons, List.map_map]
        simp [Function.comp_def]

/-- **The running statistics are the statistics**, whatever records with numbers (`Py.Extended` reads none from text)
    are processed from construction on: the attributes after them, and what each call puts out. The attributes follow
    the mean and the summed squared deviations of the values so far, which one more value changes as the recurrence
    does. -/
theorem statistics_exact (operatorId instrumentClass : String) {stream : List (Clock EReal × Record EReal)}
    {values : List ℝ} (hne : values ≠ []) (hreads : List.Forall₂ Reads stream values) :
    ((operator.run (new operatorId instrumentClass) stream).count = values.length ∧
      (operator.run (new operatorId instrumentClass) stream).mean = (mean values : ℝ) ∧
      (operator.run (new operatorId instrumentClass) stream).m2 = (sqDev values : ℝ) ∧
      0 ≤ sqDev values ∧
      (∃ least, IsLeast {x | x ∈ values} least ∧
        (operator.run (new operatorId instrumentClass) stream).min = (least : ℝ)) ∧
      ∃ greatest, IsGreatest {x | x ∈ values} greatest ∧
        (operator.run (new operatorId instrumentClass) stream).max = (greatest : ℝ)) ∧
    operator.outcomes (new operatorId instrumentClass) stream = (List.range values.length).map
      (fun i => .ok (emission instrumentClass (values.take (i + 1)))) := by
  obtain ⟨h, houtcomes⟩ := run_follows hreads (new_follows operatorId instrumentClass)
  refine ⟨⟨h.count, h.mean, h.m2, sqDev_nonneg values, ?_, ?_⟩, houtcomes⟩
  · exact exists_isLeast EReal.coe_strictMono.monotone hne h.min
  · exact exists_isGreatest EReal.coe_strictMono.monotone hne h.max

/-- Two records, the second one without a value of its own. -/
theorem statistics_exact_two :
    (operator.run (new "stat-fx" "fx")
      [(⟨0, fun _ => 0⟩, Dict.ofList [("value", .int 3)]), (⟨0, fun _ => 0⟩, ∅)]).mean =
        ((mean [3, 0] : ℝ) : EReal) := by
  have hfirst : Reads (⟨0, fun _ => 0⟩, Dict.ofList [("value", .int 3)]) 3 := by
    show Except.ok (((3 : Int) : ℝ) : EReal) = _
    rw [Int.cast_ofNat]
  have hsecond : Reads (⟨0, fun _ => 0⟩, ∅) 0 := congrArg Except.ok Extended.zero_eq
  exact (statistics_exact "stat-fx" "fx" (by simp) (.cons hfirst (.cons hsecond .nil))).1.2.1

end Welford

end Workloads
end HybridStream
