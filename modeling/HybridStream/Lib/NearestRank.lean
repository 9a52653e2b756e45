import Mathlib.Data.List.Sort
import Mathlib.Data.Rat.Floor
import Mathlib.Data.List.Perm.Basic
import Mathlib.Tactic.Linarith

/-!
# `Lib.NearestRank` — percentiles by nearest rank

The percentile of a list for a share is the sample that at least the share of all samples does not exceed, while fewer
lie below it. This says which sample it is (`IsNearestRank.unique`), whatever the order of the list
(`IsNearestRank.perm`). In a sorted list it stands at the share of the length, rounded up (`isNearestRank_rankIndex`).

The definition counts samples, so it has no use for an order of the list; the computation sorts and takes an index.
The two meet in `rankIndex_spec`, which says between which positions the share of the length falls. Nothing here names
a particular system.
-/

namespace HybridStream
namespace Lib

universe u

variable {α : Type u} [LinearOrder α] {share : ℚ} {xs ys : List α} {v w : α}

/-! ## Which sample it is

The nearest rank said by counting: how many samples do not exceed it, and how many lie below. That determines the
sample, and does not mention an order in which the samples are given. -/

/-- The sample at the nearest rank. -/
structure IsNearestRank (share : ℚ) (xs : List α) (v : α) : Prop where
  mem   : v ∈ xs
  le    : share * xs.length ≤ xs.countP (· ≤ v)
  below : xs.countP (· < v) < share * xs.length

/-- What lies below a greater sample contains what does not exceed a smaller one. -/
theorem countP_le_le_countP_lt (h : v < w) (xs : List α) : xs.countP (· ≤ v) ≤ xs.countP (· < w) := by
  refine List.countP_mono_left fun x _ hx => ?_
  simp only [decide_eq_true_eq] at hx ⊢
  exact hx.trans_lt h

theorem IsNearestRank.le_other (hv : IsNearestRank share xs v) (hw : IsNearestRank share xs w) : w ≤ v := by
  refine not_lt.mp fun h => ?_
  have hcount : (xs.countP (· ≤ v) : ℚ) ≤ xs.countP (· < w) := Nat.cast_le.mpr (countP_le_le_countP_lt h xs)
  exact absurd (hv.le.trans hcount) (not_le.mpr hw.below)

/-- There is one at most. -/
theorem IsNearestRank.unique (hv : IsNearestRank share xs v) (hw : IsNearestRank share xs w) : v = w :=
  le_antisymm (hw.le_other hv) (hv.le_other hw)

/-- The order of the samples does not matter. -/
theorem IsNearestRank.perm (h : IsNearestRank share xs v) (hperm : xs.Perm ys) : IsNearestRank share ys v where
  mem   := hperm.subset h.mem
  le    := by
    rw [← hperm.countP_eq, ← hperm.length_eq]
    exact h.le
  below := by
    rw [← hperm.countP_eq, ← hperm.length_eq]
    exact h.below

/-! ## Where it stands in a sorted list

A sorted list has it at a position that depends on the length alone, the share of the samples rounded up. -/

section Sorted

variable {i : Nat}

/-- Up to a position, and including it, nothing exceeds what stands there. -/
theorem lt_countP_le_getElem (h : xs.Pairwise (· ≤ ·)) (hi : i < xs.length) : i < xs.countP (· ≤ xs[i]) := by
  have hfirst : (xs.take (i + 1)).countP (· ≤ xs[i]) = (xs.take (i + 1)).length := by
    rw [List.countP_eq_length]
    intro x hx
    obtain ⟨j, hj, rfl⟩ := List.getElem_of_mem hx
    rw [List.length_take] at hj
    rw [List.getElem_take, decide_eq_true_eq]
    rcases Nat.lt_or_eq_of_le (show j ≤ i by omega) with hlt | rfl
    · exact List.pairwise_iff_getElem.mp h j i (by omega) hi hlt
    · exact le_refl _
  have hsub := (List.take_sublist (i + 1) xs).countP_le (p := fun x => decide (x ≤ xs[i]))
  rw [hfirst, List.length_take] at hsub
  omega

/-- What lies below it stands in front of it. -/
theorem countP_lt_getElem_le (h : xs.Pairwise (· ≤ ·)) (hi : i < xs.length) : xs.countP (· < xs[i]) ≤ i := by
  have hrest : (xs.drop i).countP (· < xs[i]) = 0 := by
    rw [List.countP_eq_zero]
    intro x hx
    obtain ⟨j, hj, rfl⟩ := List.getElem_of_mem hx
    rw [List.length_drop] at hj
    rw [List.getElem_drop, decide_eq_true_eq, not_lt]
    cases j with
    | zero => exact le_refl _
    | succ j => exact List.pairwise_iff_getElem.mp h i (i + (j + 1)) hi (by omega) (by omega)
  have hsplit : xs.countP (· < xs[i]) = (xs.take i).countP (· < xs[i]) + (xs.drop i).countP (· < xs[i]) := by
    rw [← List.countP_append, List.take_append_drop]
  rw [hrest] at hsplit
  have hlength := List.countP_le_length (p := fun x => decide (x < xs[i])) (l := xs.take i)
  rw [List.length_take] at hlength
  omega

/-- The share of `n` samples, rounded up, as a position of a list of that length. -/
def rankIndex (share : ℚ) (n : Nat) : Int := min (n - 1) (max 0 (⌈(n : ℚ) * share⌉ - 1))

theorem rankIndex_nonneg {n : Nat} (hn : 0 < n) : 0 ≤ rankIndex share n := by
  unfold rankIndex
  omega

theorem rankIndex_lt (n : Nat) : rankIndex share n < n := by
  unfold rankIndex
  omega

/-- The share of the samples lies between the position and the next one. -/
theorem rankIndex_spec {n : Nat} (hn : 0 < n) (hpos : 0 < share) (hle : share ≤ 1) :
    (rankIndex share n : ℚ) < share * n ∧ share * n ≤ rankIndex share n + 1 := by
  have hcast : (0 : ℚ) < n := Nat.cast_pos.mpr hn
  have hceil : 0 < ⌈(n : ℚ) * share⌉ := Int.ceil_pos.mpr (mul_pos hcast hpos)
  have hupper : ⌈(n : ℚ) * share⌉ ≤ n := Int.ceil_le.mpr (by
    rw [Int.cast_natCast]
    exact mul_le_of_le_one_right hcast.le hle)
  have hindex : rankIndex share n = ⌈(n : ℚ) * share⌉ - 1 := by
    unfold rankIndex
    omega
  have hlt := Int.ceil_lt_add_one ((n : ℚ) * share)
  have hself := Int.le_ceil ((n : ℚ) * share)
  rw [hindex]
  push_cast
  constructor
  · linarith
  · linarith

/-- What stands there is the sample at the nearest rank. -/
theorem isNearestRank_rankIndex (h : xs.Pairwise (· ≤ ·)) (hpos : 0 < share) (hle : share ≤ 1)
    (hi : (rankIndex share xs.length).toNat < xs.length) :
    IsNearestRank share xs (xs[(rankIndex share xs.length).toNat]) := by
  have hn : 0 < xs.length := by omega
  obtain ⟨hlower, hupper⟩ := rankIndex_spec hn hpos hle
  have hnat : (((rankIndex share xs.length).toNat : Nat) : ℚ) = rankIndex share xs.length := by
    rw [← Int.cast_natCast, Int.toNat_of_nonneg (rankIndex_nonneg hn)]
  set i := (rankIndex share xs.length).toNat with hdef
  constructor
  · exact List.getElem_mem hi
  · have hcount : (i : ℚ) + 1 ≤ xs.countP (· ≤ xs[i]) := by exact_mod_cast lt_countP_le_getElem h hi
    linarith
  · have hcount : (xs.countP (· < xs[i]) : ℚ) ≤ i := by exact_mod_cast countP_lt_getElem_le h hi
    linarith

end Sorted

end Lib
end HybridStream
