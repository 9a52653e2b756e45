import Mathlib.Data.EReal.Inv
import HybridStream.Py.Reals

/-!
# `Py.Extended` — exact arithmetic with infinities

The reals and the two infinities as a float type: as `Py.Reals`, for results about code that starts from
`float("inf")`. There is no NaN; an operation that has none to give on doubles gives what the extended reals
have. As there, no text is read as a number.

A deviation or an exact fraction of an infinity raises where the interpreter raises, so a class that starts from
infinite extrema meets the exceptions that it would meet there.
-/

namespace HybridStream
namespace Py

namespace Extended

/-- Neither infinity. -/
def IsInf (x : EReal) : Prop := x = ⊤ ∨ x = ⊥

noncomputable instance : DecidablePred IsInf := fun x => inferInstanceAs (Decidable (x = ⊤ ∨ x = ⊥))

/-- A function of the reals; infinities stay. -/
noncomputable def finitely (f : ℝ → ℝ) (x : EReal) : EReal := if IsInf x then x else (f x.toReal : ℝ)

/-- A conversion to an integer. -/
noncomputable def wholly (f : ℝ → Except PyError Int) (x : EReal) : Except PyError Int :=
  if IsInf x then .error ⟨.overflowError, "cannot convert float infinity to integer"⟩ else f x.toReal

/-- The deviation of the mean; the exact fractions it is computed with do not take an infinity. -/
noncomputable def deviation (xs : List EReal) : Except PyError EReal :=
  if xs.any (fun x => decide (IsInf x)) then
    .error ⟨.attributeError, "'float' object has no attribute 'numerator'"⟩
  else (PyRuntime.stdev (xs.map EReal.toReal)).map Real.toEReal

end Extended

noncomputable instance : PyRuntime EReal where
  ofScientific m s e := ((OfScientific.ofScientific m s e : ℝ) : EReal)
  lt x y       := decide (x < y)
  le x y       := decide (x ≤ y)
  eq x y       := decide (x = y)
  eqInt x i    := decide (x = ((i : ℝ) : EReal))
  ofInt i      := some ((i : ℝ) : EReal)
  trueDiv i j  := some ((i / j : ℝ) : EReal)
  toInt        := Extended.wholly PyRuntime.toInt
  ceil         := Extended.wholly PyRuntime.ceil
  sqrt         := Extended.finitely Real.sqrt
  sq x         := some (x * x)
  round x n    := Extended.finitely (PyRuntime.round · n) x
  fsum x xs    := x + xs.sum
  mean xs      := xs.sum / ((xs.length : ℝ) : EReal)
  stdev xs     := Extended.deviation xs
  inf          := ⊤
  negInf       := ⊥
  parse _      := none
  parseInt _   := none
  numberText _ := none
  repr _       := ""
  printable c  := 32 ≤ c.toNat ∧ c.toNat < 127

instance : OrderedRuntime EReal where
  lt_iff := decide_eq_true_iff
  eq_iff := decide_eq_true_iff

namespace Extended

/-- The literal `0.0`. -/
theorem zero_eq : (0.0 : EReal) = ((0 : ℝ) : EReal) := by
  show (((0.0 : ℝ)) : EReal) = _
  rw [Reals.zero_eq]

theorem not_isInf_coe (x : ℝ) : ¬ IsInf x := by
  rintro (h | h)
  · exact EReal.coe_ne_top x h
  · exact EReal.coe_ne_bot x h

theorem finitely_coe (f : ℝ → ℝ) (x : ℝ) : finitely f x = (f x : ℝ) := by
  unfold finitely
  rw [if_neg (not_isInf_coe x), EReal.toReal_coe]

theorem floatDivInt_coe (x : ℝ) {i : Int} (h : i ≠ 0) :
    floatDivInt (x : EReal) i = .ok ((x / i : ℝ) : EReal) := by
  have hne : ((i : ℝ) : EReal) ≠ ((0 : ℝ) : EReal) := fun heq => h (Int.cast_eq_zero.mp (EReal.coe_injective heq))
  show floatDiv (x : EReal) ((i : ℝ) : EReal) = _
  unfold floatDiv
  rw [zero_eq, if_neg (mt OrderedRuntime.eq_iff.mp hne)]
  rfl

theorem pySqrt_coe {x : ℝ} (h : 0 ≤ x) : pySqrt (x : EReal) = .ok ((Real.sqrt x : ℝ) : EReal) := by
  unfold pySqrt
  rw [zero_eq, if_neg (mt OrderedRuntime.lt_iff.mp (not_lt.mpr (EReal.coe_le_coe_iff.mpr h)))]
  exact congrArg Except.ok (finitely_coe Real.sqrt x)

end Extended

end Py
end HybridStream
