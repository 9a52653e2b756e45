import HybridStream.Py.MessagePack
import Mathlib.Data.Rat.Floor
import Mathlib.Order.Bounds.Basic
import Mathlib.Data.Rat.Sqrt

/-!
# `Py.Exact` — exact arithmetic in place of floats

The rationals as a float type, for results that need the laws of arithmetic and for runs on concrete inputs.
Finite doubles are rationals and these operations are the double operations without the rounding; the two
infinities are stood in for by numbers beyond every double. Of numbers given as text only integers are read: a
record whose number is the text `"0.5"` counts as one without a number here, where `float` reads it, so results over
the rationals that speak of the records with a number do not speak of that one.
-/

namespace HybridStream
namespace Py

namespace Exact

/-- Round half to even. -/
def roundEven (x : ℚ) : Int :=
  let below := ⌊x⌋
  let rest := x - below
  if rest < 1 / 2 then below
  else if 1 / 2 < rest then below + 1
  else if below % 2 = 0 then below else below + 1

/-- `math.trunc` -/
def truncate (x : ℚ) : Int := if 0 ≤ x then ⌊x⌋ else ⌈x⌉

def sum (xs : List ℚ) : ℚ := xs.foldl (· + ·) 0

def mean (xs : List ℚ) : ℚ := sum xs / xs.length

end Exact

instance : PyRuntime ℚ where
  lt x y       := x < y
  le x y       := x ≤ y
  eq x y       := x = y
  eqInt x i    := x = i
  ofInt i      := some i
  trueDiv i j  := some (i / j)
  toInt x      := .ok (Exact.truncate x)
  ceil x       := .ok ⌈x⌉
  sqrt x       := Rat.sqrt x
  sq x         := some (x * x)
  round x n    := Exact.roundEven (x * 10 ^ n) / 10 ^ n
  fsum x xs    := xs.foldl (· + ·) x
  mean xs      := Exact.mean xs
  stdev xs     :=
    .ok (Rat.sqrt (Exact.sum (xs.map (fun x => (x - Exact.mean xs) * (x - Exact.mean xs))) / (xs.length - 1)))
  inf          := 10 ^ 309
  negInf       := -10 ^ 309
  parse s      := s.toInt?.map (fun i => (i : ℚ))
  parseInt s   := s.toInt?
  numberText _ := none
  repr x       := toString x
  printable c  := 32 ≤ c.toNat ∧ c.toNat < 127

namespace Exact

@[simp] theorem lt_iff {x y : ℚ} : PyRuntime.lt x y = true ↔ x < y := decide_eq_true_iff

@[simp] theorem le_iff {x y : ℚ} : PyRuntime.le x y = true ↔ x ≤ y := decide_eq_true_iff

@[simp] theorem eq_iff {x y : ℚ} : PyRuntime.eq x y = true ↔ x = y := decide_eq_true_iff

end Exact

/-- Floats that compare as a linear order: there is no NaN among them. -/
class OrderedRuntime (F : Type) [LinearOrder F] [PyRuntime F] : Prop where
  lt_iff {x y : F} : PyRuntime.lt x y = true ↔ x < y
  eq_iff {x y : F} : PyRuntime.eq x y = true ↔ x = y

namespace OrderedRuntime

variable {F : Type} [LinearOrder F] [PyRuntime F] [OrderedRuntime F]

theorem pyMax_eq_max (x y : F) : pyMax x y = max x y := by
  unfold pyMax
  by_cases h : x < y
  · rw [if_pos (lt_iff.mpr h), max_eq_right h.le]
  · rw [if_neg (mt lt_iff.mp h), max_eq_left (not_lt.mp h)]

theorem pyMin_eq_min (x y : F) : pyMin x y = min x y := by
  unfold pyMin
  by_cases h : y < x
  · rw [if_pos (lt_iff.mpr h), min_eq_right h.le]
  · rw [if_neg (mt lt_iff.mp h), min_eq_left (not_lt.mp h)]

/-- `max` of a list is its greatest element. -/
theorem isGreatest_pyMaxOf (x : F) (xs : List F) : IsGreatest {y | y ∈ x :: xs} (pyMaxOf x xs) := by
  induction xs generalizing x with
  | nil => exact ⟨List.mem_cons_self, fun y hy => (List.mem_singleton.mp hy).le⟩
  | cons y ys ih =>
      have hfold : pyMaxOf x (y :: ys) = pyMaxOf (max x y) ys := by
        rw [← pyMax_eq_max]
        rfl
      obtain ⟨hmem, hle⟩ := ih (max x y)
      rw [hfold]
      constructor
      · rcases List.mem_cons.mp hmem with heq | hin
        · rw [heq]
          rcases max_choice x y with hx | hy
          · rw [hx]
            exact List.mem_cons_self
          · rw [hy]
            exact List.mem_cons_of_mem _ List.mem_cons_self
        · exact List.mem_cons_of_mem _ (List.mem_cons_of_mem _ hin)
      · intro z hz
        have hfirst : max x y ≤ pyMaxOf (max x y) ys := hle List.mem_cons_self
        rcases List.mem_cons.mp hz with rfl | hz
        · exact (le_max_left _ _).trans hfirst
        · rcases List.mem_cons.mp hz with rfl | hz
          · exact (le_max_right _ _).trans hfirst
          · exact hle (List.mem_cons_of_mem _ hz)

end OrderedRuntime

instance : OrderedRuntime ℚ where
  lt_iff := Exact.lt_iff
  eq_iff := Exact.eq_iff

/-- Rationals have no eight-byte format: the codec that refuses every float. -/
def Exact.floatCodec : MessagePack.FloatCodec ℚ where
  encode _ := none
  decode _ := none
  spec     := fun h => absurd h (by simp)

/-- The MessagePack codec for documents without floats. -/
def Exact.messagePack : MessagePack ℚ := MessagePack.codec Exact.floatCodec

end Py
end HybridStream
