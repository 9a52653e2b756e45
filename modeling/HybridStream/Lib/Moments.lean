import Mathlib.Algebra.Order.BigOperators.Group.List
import Mathlib.Algebra.Order.Field.Basic
import Mathlib.Algebra.CharZero.Defs
import Mathlib.Order.Bounds.Image
import Mathlib.Order.Preorder.Finite
import Mathlib.Tactic.FieldSimp
import Mathlib.Tactic.Ring

/-!
# `Lib.Moments` — the mean and the squared deviations of a list

Over any field. `mean_concat` and `sqDev_concat` are the updates with one more value: what an algorithm that
sees the values one at a time has to keep.

The mean, the squared deviations and the variance of a list are defined as in a textbook, by sums over the list. The
updates relate those of a list and of the list with one more value at its end, so an induction over a stream is one
application of each per value. Nothing here names a particular system.
-/

namespace HybridStream
namespace Lib
namespace Moments

section Field

variable {K : Type*} [Field K]

/-- The arithmetic mean; zero of no values. -/
def mean (xs : List K) : K := xs.sum / xs.length

/-- The sum of the squared deviations from the mean. -/
def sqDev (xs : List K) : K := (xs.map (fun x => (x - mean xs) ^ 2)).sum

/-- The variance of the values themselves, not of a sample: the mean of the squared deviations. -/
def populationVariance (xs : List K) : K := sqDev xs / xs.length

@[simp] theorem mean_nil : mean ([] : List K) = 0 := by simp [mean]

@[simp] theorem sqDev_nil : sqDev ([] : List K) = 0 := rfl

theorem sum_sq_sub (xs : List K) (c : K) :
    (xs.map (fun x => (x - c) ^ 2)).sum = (xs.map (· ^ 2)).sum - 2 * c * xs.sum + xs.length * c ^ 2 := by
  induction xs with
  | nil => simp
  | cons x xs ih =>
      rw [List.map_cons, List.sum_cons, ih, List.map_cons, List.sum_cons, List.sum_cons, List.length_cons,
        Nat.cast_succ]
      ring

variable [CharZero K]

theorem length_mul_mean (xs : List K) : xs.length * mean xs = xs.sum := by
  cases xs with
  | nil => simp
  | cons x xs =>
      have hlength : ((x :: xs).length : K) ≠ 0 := Nat.cast_ne_zero.mpr (Nat.succ_ne_zero _)
      exact mul_div_cancel₀ _ hlength

/-- The mean moves by its share of the new value's deviation. -/
theorem mean_concat (xs : List K) (x : K) : mean (xs ++ [x]) = mean xs + (x - mean xs) / (xs.length + 1) := by
  have hlength : (xs.length + 1 : K) ≠ 0 := Nat.cast_add_one_ne_zero _
  have hmean : mean (xs ++ [x]) = (xs.sum + x) / (xs.length + 1) := by
    rw [mean, List.sum_append, List.sum_singleton, List.length_append, List.length_singleton, Nat.cast_add,
      Nat.cast_one]
  rw [hmean, ← length_mul_mean xs]
  field_simp
  ring

/-- Around any centre: the squared deviations from the mean and those of the mean. -/
theorem sum_sq_sub_eq (xs : List K) (c : K) :
    (xs.map (fun x => (x - c) ^ 2)).sum = sqDev xs + xs.length * (mean xs - c) ^ 2 := by
  rw [sqDev, sum_sq_sub, sum_sq_sub, ← length_mul_mean xs]
  ring

/-- **Welford's update**: the deviations from the mean before the new value and from the mean after it. -/
theorem sqDev_concat (xs : List K) (x : K) :
    sqDev (xs ++ [x]) = sqDev xs + (x - mean xs) * (x - mean (xs ++ [x])) := by
  have hlength : (xs.length + 1 : K) ≠ 0 := Nat.cast_add_one_ne_zero _
  have hsplit : sqDev (xs ++ [x]) =
      sqDev xs + xs.length * (mean xs - mean (xs ++ [x])) ^ 2 + (x - mean (xs ++ [x])) ^ 2 := by
    rw [← sum_sq_sub_eq, sqDev, List.map_append, List.sum_append, List.map_singleton, List.sum_singleton]
  rw [hsplit, mean_concat]
  field_simp
  ring

end Field

section Order

variable {K : Type*} [Field K] [LinearOrder K] [IsStrictOrderedRing K]

theorem sqDev_nonneg (xs : List K) : 0 ≤ sqDev xs := by
  apply List.sum_nonneg
  intro y hy
  obtain ⟨x, -, rfl⟩ := List.mem_map.mp hy
  exact sq_nonneg _

theorem populationVariance_nonneg (xs : List K) : 0 ≤ populationVariance xs :=
  div_nonneg (sqDev_nonneg xs) (Nat.cast_nonneg _)

end Order

/-! ## Least and greatest

The running minimum and maximum of a stream start at an infinity, so they are first known as bounds; of a list that is
not empty they are elements. -/

section Extrema

variable {α β : Type*} [LinearOrder β] {f : α → β}

theorem isGLB_concat {xs : List α} {m : β} (h : IsGLB (f '' {y | y ∈ xs}) m) (x : α) :
    IsGLB (f '' {y | y ∈ xs ++ [x]}) (min m (f x)) := by
  have himage : f '' {y | y ∈ xs ++ [x]} = insert (f x) (f '' {y | y ∈ xs}) := by
    rw [← Set.image_insert_eq]
    congr 1
    ext y
    simp [or_comm]
  rw [himage, min_comm]
  exact h.insert (f x)

theorem isLUB_concat {xs : List α} {m : β} (h : IsLUB (f '' {y | y ∈ xs}) m) (x : α) :
    IsLUB (f '' {y | y ∈ xs ++ [x]}) (max m (f x)) := isGLB_concat (β := βᵒᵈ) h x

variable [LinearOrder α]

/-- The lower bound of a list is its least element. -/
theorem exists_isLeast (hf : Monotone f) {xs : List α} (hne : xs ≠ []) {m : β}
    (h : IsGLB (f '' {y | y ∈ xs}) m) : ∃ least, IsLeast {y | y ∈ xs} least ∧ m = f least := by
  obtain ⟨x, hx⟩ := List.exists_mem_of_ne_nil xs hne
  obtain ⟨least, hleast⟩ := (xs.finite_toSet).exists_minimal ⟨x, hx⟩
  have hisLeast : IsLeast {y | y ∈ xs} least :=
    ⟨hleast.prop, fun y hy => (le_total least y).elim id (hleast.le_of_le hy)⟩
  exact ⟨least, hisLeast, h.unique (hf.map_isLeast hisLeast).isGLB⟩

theorem exists_isGreatest (hf : Monotone f) {xs : List α} (hne : xs ≠ []) {m : β}
    (h : IsLUB (f '' {y | y ∈ xs}) m) : ∃ greatest, IsGreatest {y | y ∈ xs} greatest ∧ m = f greatest :=
  exists_isLeast (α := αᵒᵈ) (β := βᵒᵈ) hf.dual hne h

end Extrema

end Moments
end Lib
end HybridStream
