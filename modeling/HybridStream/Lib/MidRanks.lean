import Mathlib.Data.Rat.Lemmas
import Mathlib.Algebra.Order.Field.Rat
import Mathlib.Algebra.Order.BigOperators.Group.List
import Mathlib.Tactic.Linarith
import Mathlib.Tactic.Ring

/-!
# `Lib.MidRanks` — ranks with ties

The rank of an item of a list is its place in the sorted list; items that tie share the mean of their places. However
the items tie, the ranks add up to the sum of all places (`sum_midRank`), and so do the rank sums of two classes the
items are divided into (`rankSum_add_rankSum_not`).

The induction is over the list: of two items one takes a place in front of the other, or they share one. Nothing here
names a particular system; the signed-rank test uses it with the absolute differences for keys.
-/

namespace HybridStream
namespace Lib

universe u v

variable {α : Type u} {β : Type v} [LinearOrder α]

/-- The mean of the places that items like `x` take. -/
def midRank (xs : List α) (x : α) : ℚ := xs.countP (· < x) + (xs.countP (· = x) + 1) / 2

/-- How much of `x`'s rank is due to `y`: the whole place in front of it, half a place beside it. -/
def placesBefore (y x : α) : ℚ := if y < x then 1 else if y = x then 1 / 2 else 0

theorem midRank_nil (x : α) : midRank [] x = 1 / 2 := by simp [midRank]

theorem midRank_cons (y : α) (xs : List α) (x : α) : midRank (y :: xs) x = midRank xs x + placesBefore y x := by
  unfold midRank placesBefore
  rw [List.countP_cons, List.countP_cons]
  by_cases hlt : y < x
  · simp [hlt, hlt.ne]
    ring
  · by_cases heq : y = x
    · simp [heq]
      ring
    · simp [hlt, heq]

/-- Of two items one stands before the other, or they share a place. -/
theorem placesBefore_add (x y : α) : placesBefore x y + placesBefore y x = 1 := by
  unfold placesBefore
  rcases lt_trichotomy x y with h | h | h
  · rw [if_pos h, if_neg h.not_gt, if_neg h.ne']
    ring
  · rw [h, if_neg (lt_irrefl y), if_pos rfl]
    ring
  · rw [if_neg h.not_gt, if_neg h.ne', if_pos h]
    ring

theorem midRank_pos (xs : List α) (x : α) : 0 < midRank xs x := by
  have hlt : (0 : ℚ) ≤ xs.countP (· < x) := Nat.cast_nonneg _
  have heq : (0 : ℚ) ≤ xs.countP (· = x) := Nat.cast_nonneg _
  unfold midRank
  linarith

/-- The places an item takes from all others, and its own rank among them. -/
theorem sum_placesBefore_add_midRank (x : α) (xs : List α) :
    (xs.map (placesBefore x)).sum + midRank xs x = xs.length + 1 / 2 := by
  induction xs with
  | nil => simp [midRank_nil]
  | cons y xs ih =>
      have hpair := placesBefore_add x y
      rw [List.map_cons, List.sum_cons, midRank_cons, List.length_cons]
      push_cast
      linarith

/-- The ranks add up to the sum of the places. -/
theorem sum_midRank (xs : List α) : (xs.map (midRank xs)).sum = xs.length * (xs.length + 1) / 2 := by
  induction xs with
  | nil => simp
  | cons y xs ih =>
      have hrest : (xs.map (midRank (y :: xs))).sum = (xs.map (midRank xs)).sum + (xs.map (placesBefore y)).sum := by
        rw [← List.sum_map_add]
        exact congrArg List.sum (List.map_congr_left fun x _ => midRank_cons y xs x)
      have hself : placesBefore y y = 1 / 2 := by simp [placesBefore]
      have hplaces := sum_placesBefore_add_midRank y xs
      rw [List.map_cons, List.sum_cons, midRank_cons, hself, hrest, ih, List.length_cons]
      push_cast
      linarith

/-! ## Rank sums

The ranks of two classes share out the sum of all places, so a statistic made of one rank sum is known with the other,
and one that is zero says that its class is empty. -/

/-- The sum of the ranks, by a key, of the items of a class. -/
def rankSum (key : β → α) (p : β → Prop) [DecidablePred p] (xs : List β) : ℚ :=
  ((xs.filter p).map (fun x => midRank (xs.map key) (key x))).sum

variable {key : β → α} {p : β → Prop} [DecidablePred p] {xs : List β}

theorem sum_filter_add_sum_filter_not (f : β → ℚ) (xs : List β) :
    ((xs.filter p).map f).sum + ((xs.filter (fun x => ¬ p x)).map f).sum = (xs.map f).sum := by
  induction xs with
  | nil => simp
  | cons x xs ih =>
      rw [List.map_cons, List.sum_cons, ← ih]
      by_cases h : p x
      · simp [h, add_assoc]
      · simp [h]
        ring

/-- The two classes share out the sum of the places. -/
theorem rankSum_add_rankSum_not (key : β → α) (p : β → Prop) [DecidablePred p] (xs : List β) :
    rankSum key p xs + rankSum key (fun x => ¬ p x) xs = xs.length * (xs.length + 1) / 2 := by
  have htotal := sum_midRank (xs.map key)
  rw [List.map_map, List.length_map] at htotal
  rw [← htotal]
  exact sum_filter_add_sum_filter_not _ xs

theorem rankSum_nonneg : 0 ≤ rankSum key p xs := by
  refine List.sum_nonneg fun r hr => ?_
  obtain ⟨x, -, rfl⟩ := List.mem_map.mp hr
  exact (midRank_pos _ _).le

/-- A rank sum is zero where the class is empty. -/
theorem rankSum_eq_zero_iff : rankSum key p xs = 0 ↔ ∀ x ∈ xs, ¬ p x := by
  constructor
  · intro h x hx hp
    have hmem : midRank (xs.map key) (key x) ∈ (xs.filter p).map (fun x => midRank (xs.map key) (key x)) :=
      List.mem_map.mpr ⟨x, List.mem_filter.mpr ⟨hx, decide_eq_true hp⟩, rfl⟩
    have hle := List.single_le_sum (fun r hr => ?_) _ hmem
    · rw [rankSum] at h
      rw [h] at hle
      exact absurd hle (not_le.mpr (midRank_pos _ _))
    · obtain ⟨y, -, rfl⟩ := List.mem_map.mp hr
      exact (midRank_pos _ _).le
  · intro h
    have hfilter : xs.filter p = [] := List.filter_eq_nil_iff.mpr fun x hx => by simpa using h x hx
    rw [rankSum, hfilter]
    rfl

end Lib
end HybridStream
