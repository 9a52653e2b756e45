import Mathlib.Algebra.Order.Archimedean.Real.Basic
import Mathlib.Analysis.Real.Sqrt
import HybridStream.Py.Exact

/-!
# `Py.Reals` — exact arithmetic with square roots

The reals as a float type: as `Py.Exact`, for results about code that takes square roots. Nothing is evaluated
here, so `repr` and the text conversions are left out: `float` and `int` reject every text, also those that are
numbers. Results over the reals that speak of the records with a number mean the records whose number is given as a
number.
-/

namespace HybridStream
namespace Py

namespace Reals

/-- Round half to even. -/
noncomputable def roundEven (x : ℝ) : Int :=
  if Int.fract x < 1 / 2 then ⌊x⌋
  else if 1 / 2 < Int.fract x then ⌊x⌋ + 1
  else if ⌊x⌋ % 2 = 0 then ⌊x⌋ else ⌊x⌋ + 1

noncomputable def mean (xs : List ℝ) : ℝ := xs.sum / xs.length

end Reals

noncomputable instance : PyRuntime ℝ where
  lt x y       := decide (x < y)
  le x y       := decide (x ≤ y)
  eq x y       := decide (x = y)
  eqInt x i    := decide (x = i)
  ofInt i      := some i
  trueDiv i j  := some (i / j)
  toInt x      := .ok (if 0 ≤ x then ⌊x⌋ else ⌈x⌉)
  ceil x       := .ok ⌈x⌉
  sqrt x       := Real.sqrt x
  sq x         := some (x * x)
  round x n    := Reals.roundEven (x * 10 ^ n) / 10 ^ n
  fsum x xs    := x + xs.sum
  mean xs      := Reals.mean xs
  stdev xs     :=
    .ok (Real.sqrt ((xs.map (fun x => (x - Reals.mean xs) * (x - Reals.mean xs))).sum / (xs.length - 1)))
  inf          := 10 ^ 309
  negInf       := -10 ^ 309
  parse _      := none
  parseInt _   := none
  numberText _ := none
  repr _       := ""
  printable c  := 32 ≤ c.toNat ∧ c.toNat < 127

instance : OrderedRuntime ℝ where
  lt_iff := decide_eq_true_iff
  eq_iff := decide_eq_true_iff

namespace Reals

/-- The literal `0.0`. -/
theorem zero_eq : (0.0 : ℝ) = 0 := by norm_num

theorem pyAbs_eq (x : ℝ) : pyAbs x = |x| := by
  unfold pyAbs
  rw [zero_eq]
  by_cases hneg : x < 0
  · rw [if_pos (OrderedRuntime.lt_iff.mpr hneg), abs_of_neg hneg]
  · rw [if_neg (mt OrderedRuntime.lt_iff.mp hneg), abs_of_nonneg (not_lt.mp hneg)]
    by_cases hzero : x = 0
    · rw [if_pos (OrderedRuntime.eq_iff.mpr hzero), hzero]
    · rw [if_neg (mt OrderedRuntime.eq_iff.mp hzero)]

theorem pySqrt_eq {x : ℝ} (h : 0 ≤ x) : pySqrt x = .ok (Real.sqrt x) := by
  unfold pySqrt
  rw [zero_eq, if_neg (mt OrderedRuntime.lt_iff.mp (not_lt.mpr h))]
  rfl

theorem floatDiv_eq {x y : ℝ} (h : y ≠ 0) : floatDiv x y = .ok (x / y) := by
  unfold floatDiv
  rw [zero_eq, if_neg (mt OrderedRuntime.eq_iff.mp h)]

theorem floatDivInt_eq (x : ℝ) {i : Int} (h : i ≠ 0) : floatDivInt x i = .ok (x / i) :=
  floatDiv_eq (Int.cast_ne_zero.mpr h)

end Reals

end Py
end HybridStream
