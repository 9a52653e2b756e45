import Mathlib.Algebra.Order.Field.Basic
import Mathlib.Data.List.Induction
import Mathlib.Order.Interval.Set.Defs
import Mathlib.Tactic.Ring

/-!
# `Lib.Smoothing` — exponential smoothing

Over any ordered field. The smoothed value starts at zero and is moved towards every new value by the share `α`. For a
share between zero and one it stays between the least and the greatest of what it was made of.

The bounds are stated with the least and the greatest of a list, zero included, and follow from one step: a weighted
mean of two numbers lies between them. Nothing here names a particular system.
-/

namespace HybridStream
namespace Lib
namespace Smoothing

variable {K : Type*} [Field K]

/-- The average after the values, from zero. -/
def smooth (α : K) (xs : List K) : K := xs.foldl (fun e x => (1 - α) * e + α * x) 0

@[simp] theorem smooth_nil (α : K) : smooth α [] = 0 := rfl

/-- One more value. -/
theorem smooth_concat (α : K) (xs : List K) (x : K) :
    smooth α (xs ++ [x]) = (1 - α) * smooth α xs + α * x := by
  unfold smooth
  rw [List.foldl_append]
  rfl

variable [LinearOrder K] [IsStrictOrderedRing K]

/-- What lies between two values is not below what is below both. -/
theorem le_mix {α lo e x : K} (h0 : 0 ≤ α) (h1 : α ≤ 1) (he : lo ≤ e) (hx : lo ≤ x) :
    lo ≤ (1 - α) * e + α * x := by
  calc lo = (1 - α) * lo + α * lo := by ring
    _ ≤ (1 - α) * e + α * x :=
      add_le_add (mul_le_mul_of_nonneg_left he (sub_nonneg.mpr h1)) (mul_le_mul_of_nonneg_left hx h0)

theorem mix_le {α hi e x : K} (h0 : 0 ≤ α) (h1 : α ≤ 1) (he : e ≤ hi) (hx : x ≤ hi) :
    (1 - α) * e + α * x ≤ hi := by
  calc (1 - α) * e + α * x ≤ (1 - α) * hi + α * hi :=
      add_le_add (mul_le_mul_of_nonneg_left he (sub_nonneg.mpr h1)) (mul_le_mul_of_nonneg_left hx h0)
    _ = hi := by ring

/-- **Within the bounds** that hold of zero and of the values. -/
theorem smooth_mem_Icc {α lo hi : K} {xs : List K} (h0 : 0 ≤ α) (h1 : α ≤ 1)
    (hxs : ∀ x ∈ 0 :: xs, x ∈ Set.Icc lo hi) : smooth α xs ∈ Set.Icc lo hi := by
  induction xs using List.reverseRecOn with
  | nil => exact hxs 0 List.mem_cons_self
  | append_singleton xs x ih =>
      have hx : x ∈ Set.Icc lo hi := hxs x (by simp)
      have hsmooth : smooth α xs ∈ Set.Icc lo hi := by
        apply ih
        intro y hy
        apply hxs
        rw [← List.cons_append]
        exact List.mem_append_left [x] hy
      rw [smooth_concat]
      exact ⟨le_mix h0 h1 hsmooth.1 hx.1, mix_le h0 h1 hsmooth.2 hx.2⟩

/-- The least and the greatest are such bounds. -/
theorem smooth_between {α : K} (h0 : 0 ≤ α) (h1 : α ≤ 1) (xs : List K) :
    (0 :: xs).min (List.cons_ne_nil 0 xs) ≤ smooth α xs ∧ smooth α xs ≤ (0 :: xs).max (List.cons_ne_nil 0 xs) := by
  apply smooth_mem_Icc h0 h1
  intro x hx
  exact ⟨List.min_le_of_mem hx, List.le_max_of_mem hx⟩

end Smoothing
end Lib
end HybridStream
