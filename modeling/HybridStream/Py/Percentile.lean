import HybridStream.Lib.NamedEntries
import HybridStream.Lib.NearestRank
import HybridStream.Py.Collections
import HybridStream.Py.Reals

/-!
# `Py.Percentile` — the sorted list and its percentile

`sorted(xs)[min(len(xs) - 1, max(0, math.ceil(len(xs) * 0.95) - 1))]`, for the metrics, the windows and the snapshots.
Over floats that compare as a linear order, and with 0.95 read as nineteen twentieths, the index is in range and what
stands there is the sample at the nearest rank.

`ExactShare` is the assumption about the share, of which floats have a neighbour: the index is the rounded-up product,
and a product that is off by a rounding may be off by a position. Results about percentiles carry it as an instance.
-/

namespace HybridStream
namespace Py

open Lib

variable {F : Type}

/-- The number 0.95 is nineteen twentieths, and shares of a length are computed without rounding. -/
class ExactShare (F : Type) [PyRuntime F] : Prop where
  ceil_share (n : Nat) :
    (do PyRuntime.ceil ((← floatOfInt n) * (0.95 : F)) : Except PyError Int) = .ok ⌈(n : ℚ) * (19 / 20)⌉

instance : ExactShare ℚ where
  ceil_share n := by
    have hshare : ((n : Int) : ℚ) * (0.95 : ℚ) = (n : ℚ) * (19 / 20) := by
      rw [Int.cast_natCast]
      norm_num
    show (Except.ok ⌈((n : Int) : ℚ) * (0.95 : ℚ)⌉ : Except PyError Int) = _
    rw [hshare]

instance : ExactShare ℝ where
  ceil_share n := by
    have hshare : ((n : Int) : ℝ) * (0.95 : ℝ) = (((n : ℚ) * (19 / 20) : ℚ) : ℝ) := by
      push_cast
      norm_num
    show (Except.ok ⌈((n : Int) : ℝ) * (0.95 : ℝ)⌉ : Except PyError Int) = _
    rw [hshare, Rat.ceil_cast]

/-- What is reported of samples: nothing if there are none, otherwise the sample at the nearest rank. -/
def ReportsP95 [LinearOrder F] (samples : List F) : Option F → Prop
  | none   => samples = []
  | some v => IsNearestRank (19 / 20) samples v

section Runtime

variable [PyRuntime F]

variable [LinearOrder F] [OrderedRuntime F]

/-- Sorting is sorting by the order. -/
theorem pySorted_eq (xs : List F) : pySorted xs = xs.insertionSort (· ≤ ·) := by
  have hrel : (fun x y : F => ¬ PyRuntime.lt y x = true) = (· ≤ ·) := by
    funext x y
    rw [OrderedRuntime.lt_iff, not_lt]
  unfold pySorted
  congr 1

omit [LinearOrder F] [OrderedRuntime F] in
theorem pySorted_perm (xs : List F) : (pySorted xs).Perm xs := List.perm_insertionSort _ xs

theorem pySorted_pairwise (xs : List F) : (pySorted xs).Pairwise (· ≤ ·) := by
  rw [pySorted_eq]
  exact List.pairwise_insertionSort (· ≤ ·) xs

/-- Sorting forgets the order. -/
theorem pySorted_congr {xs ys : List F} (h : xs.Perm ys) : pySorted xs = pySorted ys := by
  have hperm := (pySorted_perm xs).trans (h.trans (pySorted_perm ys).symm)
  exact hperm.eq_of_pairwise' (pySorted_pairwise xs) (pySorted_pairwise ys)

variable [ExactShare F]

/-- The index the source computes, and what stands there. -/
theorem p95Of_eq {samples : List F} (h : samples ≠ []) :
    0 ≤ rankIndex (19 / 20) samples.length ∧ rankIndex (19 / 20) samples.length < samples.length ∧
      ∃ v, (pySorted samples)[(rankIndex (19 / 20) samples.length).toNat]? = some v ∧
        p95Of samples = .ok v ∧ IsNearestRank (19 / 20) samples v := by
  have hlength := (pySorted_perm samples).length_eq
  have hpos : 0 < samples.length := List.length_pos_iff.mpr h
  have hlow : 0 ≤ rankIndex (19 / 20) samples.length := rankIndex_nonneg hpos
  have hhigh : rankIndex (19 / 20) samples.length < samples.length := rankIndex_lt samples.length
  have hi : (rankIndex (19 / 20) (pySorted samples).length).toNat < (pySorted samples).length := by
    rw [hlength]
    omega
  have hrank := isNearestRank_rankIndex (pySorted_pairwise samples) (by norm_num) (by norm_num) hi
  have hget := List.getElem?_eq_getElem hi
  refine ⟨hlow, hhigh, _, ?_, ?_, hrank.perm (pySorted_perm samples)⟩
  · rw [← hlength]
    exact hget
  · have hindex := listIndex_of_nonneg (rankIndex_nonneg (hlength ▸ hpos)) hget
    unfold p95Of
    dsimp only
    rw [← bind_assoc, ExactShare.ceil_share]
    exact hindex

variable (F) in
/-- The percentile as a function. -/
theorem exists_nearest : ∃ nearest : List F → F, ∀ samples, samples ≠ [] →
    p95Of samples = .ok (nearest samples) ∧ IsNearestRank (19 / 20) samples (nearest samples) := by
  refine ⟨fun samples => (p95Of samples).toOption.getD 0.0, fun samples hne => ?_⟩
  obtain ⟨-, -, v, -, hv, hrank⟩ := p95Of_eq hne
  dsimp only
  rw [hv]
  exact ⟨rfl, hrank⟩

/-- **A table of percentiles**, of what `window` looks at in a table of samples: it is computed, and reports the nearest
    rank under each key that has samples. -/
theorem exists_percentiles {κ : Type} [BEq κ] [LawfulBEq κ] {d : Dict κ (List F)} {samples : κ → List F}
    (kept window : List F → List F) (hd : ∀ k, d.get k = entryOf kept (samples k))
    (hkept : ∀ xs, xs ≠ [] → kept xs ≠ []) (hwindow : ∀ xs, xs ≠ [] → window xs ≠ []) (hnil : window (kept []) = []) :
    ∃ result,
      (do let table ← (d.entries.filter (fun e => !e.2.isEmpty)).mapM fun e => do
            .ok (e.1, (← p95Of (window e.2)))
          .ok (Dict.ofList table) : Except PyError (Dict κ F)) = .ok result ∧
      ∀ k, ReportsP95 (window (kept (samples k))) (result.get k) := by
  obtain ⟨nearest, hnearest⟩ := exists_nearest F
  have hnonempty : ∀ e ∈ d.entries, e.2 ≠ [] := by
    intro e he
    obtain ⟨hne, heq⟩ := entryOf_eq_some ((hd e.1).symm.trans (Dict.get_eq_some_iff.mpr he))
    rw [heq]
    exact hkept _ hne
  have hfilter : d.entries.filter (fun e => !e.2.isEmpty) = d.entries := by
    refine List.filter_eq_self.mpr fun e he => ?_
    simpa using hnonempty e he
  have hmap := mapM_entries (f := fun xs => p95Of (window xs)) (g := fun xs => nearest (window xs)) (d := d)
    fun e he => (hnearest (window e.2) (hwindow e.2 (hnonempty e he))).1
  refine ⟨Dict.mapValues (fun xs => nearest (window xs)) d, ?_, fun k => ?_⟩
  · rw [hfilter]
    exact bind_eq_ok.mpr ⟨_, hmap, congrArg Except.ok (Dict.ofList_entries _)⟩
  · rw [Dict.get_mapValues, hd]
    cases hsamples : samples k with
    | nil => exact hnil
    | cons x xs => exact (hnearest _ (hwindow _ (hkept _ (List.cons_ne_nil x xs)))).2

end Runtime

end Py
end HybridStream
