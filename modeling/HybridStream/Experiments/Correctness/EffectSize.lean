import HybridStream.Experiments.Stats
import HybridStream.Lib.MidRanks
import HybridStream.Py.Exact

/-!
# `Experiments.Correctness.EffectSize` — the effect size and the rank-biserial correlation

The statistic of the signed-rank test is the smaller of two rank sums over the pairs that differ, and the effect size
relates it to the rank total of all pairs. The rank-biserial correlation relates it to the total of the pairs that
differ. So the two are equal exactly if all pairs differ, or if the statistic is zero because all differences have one
sign (`effect_size_iff`).
-/

namespace HybridStream
namespace Experiments

open Lib Py

/-! ## Signed ranks

The documented statistic and the textbook correlation, both from the rank sums of the positive and the negative
differences. -/

/-- The differences that are not zero. -/
def nonzero (diffs : List ℚ) : List ℚ := diffs.filter (fun d => d ≠ 0)

/-- The rank sum of the positive differences. -/
def positiveRanks (diffs : List ℚ) : ℚ := rankSum (fun d => |d|) (fun d => 0 < d) (nonzero diffs)

/-- The rank sum of the negative differences. -/
def negativeRanks (diffs : List ℚ) : ℚ := rankSum (fun d => |d|) (fun d => d < 0) (nonzero diffs)

/-- The rank-biserial correlation of matched pairs, without its sign. -/
def rankBiserial (diffs : List ℚ) : ℚ :=
  |positiveRanks diffs - negativeRanks diffs| / (positiveRanks diffs + negativeRanks diffs)

/-- `scipy.stats.wilcoxon` as documented: zero differences are dropped, and the statistic is the smaller rank sum. -/
def SignedRankStatistic (np : Numerics ℚ) : Prop :=
  ∀ groupA groupB, (∃ d ∈ differences groupA groupB, d ≠ 0) →
    (np.wilcoxon groupA groupB).1 =
      min (positiveRanks (differences groupA groupB)) (negativeRanks (differences groupA groupB))

/-! ## Sums of places

The sum of the first places as a function of their number, which is injective and monotone. -/

/-- The sum of the first places determines their number. -/
theorem places_inj {m n : Nat} (h : m ≤ n) : (n : ℚ) * (n + 1) / 2 = (m : ℚ) * (m + 1) / 2 ↔ m = n := by
  constructor
  · intro heq
    have hle : (m : ℚ) ≤ n := Nat.cast_le.mpr h
    have hfactor : ((n : ℚ) - m) * (n + m + 1) = 0 := by linarith
    rcases mul_eq_zero.mp hfactor with hsame | hsum
    · exact (Nat.cast_inj.mp (sub_eq_zero.mp hsame)).symm
    · have hm : (0 : ℚ) ≤ m := Nat.cast_nonneg m
      linarith
  · rintro rfl
    rfl

theorem places_pos {n : Nat} (h : 0 < n) : (0 : ℚ) < (n : ℚ) * (n + 1) / 2 := by
  have hcast : (0 : ℚ) < n := Nat.cast_pos.mpr h
  positivity

theorem places_mono {m n : Nat} (h : m ≤ n) : (m : ℚ) * (m + 1) / 2 ≤ (n : ℚ) * (n + 1) / 2 := by
  have hle : (m : ℚ) ≤ n := Nat.cast_le.mpr h
  have hmul := mul_le_mul hle (add_le_add_left hle 1) (by positivity) (by positivity)
  linarith

theorem length_nonzero_le (diffs : List ℚ) : (nonzero diffs).length ≤ diffs.length := List.length_filter_le _ _

theorem length_nonzero_eq_iff {diffs : List ℚ} : (nonzero diffs).length = diffs.length ↔ ∀ d ∈ diffs, d ≠ 0 := by
  unfold nonzero
  rw [List.length_filter_eq_length_iff]
  simp

theorem length_pos_of_mem_nonzero {diffs : List ℚ} (hsome : ∃ d ∈ diffs, d ≠ 0) :
    0 < diffs.length ∧ 0 < (nonzero diffs).length := by
  obtain ⟨d, hd, hne⟩ := hsome
  exact ⟨List.length_pos_of_mem hd, List.length_pos_of_mem (List.mem_filter.mpr ⟨hd, by simpa using hne⟩)⟩

/-! ## The two rank sums

They share out the places of the pairs that differ, and the smaller one is zero exactly if all differences have one
sign. -/

section Ranks

variable {diffs : List ℚ}

/-- The rank total of the pairs that differ. -/
theorem positive_add_negative (diffs : List ℚ) :
    positiveRanks diffs + negativeRanks diffs = (nonzero diffs).length * ((nonzero diffs).length + 1) / 2 := by
  have hnegative : negativeRanks diffs = rankSum (fun d => |d|) (fun d => ¬ 0 < d) (nonzero diffs) := by
    have hfilter : (nonzero diffs).filter (fun d => d < 0) = (nonzero diffs).filter (fun d => ¬ 0 < d) := by
      refine List.filter_congr fun d hd => ?_
      have hne : d ≠ 0 := by simpa using (List.mem_filter.mp hd).2
      rw [decide_eq_decide, not_lt, hne.le_iff_lt]
    unfold negativeRanks rankSum
    rw [hfilter]
  rw [hnegative]
  exact rankSum_add_rankSum_not _ _ _

/-- The rank sum of a class without the zero difference is zero where no difference is in the class. -/
theorem rankSum_nonzero_eq_zero_iff (diffs : List ℚ) (p : ℚ → Prop) [DecidablePred p] (hzero : ¬ p 0) :
    rankSum (fun d => |d|) p (nonzero diffs) = 0 ↔ ∀ d ∈ diffs, ¬ p d := by
  unfold nonzero
  rw [rankSum_eq_zero_iff]
  constructor
  · intro h d hd hp
    have hne : d ≠ 0 := by
      rintro rfl
      exact hzero hp
    exact h d (List.mem_filter.mpr ⟨hd, by simpa using hne⟩) hp
  · intro h d hd
    exact h d (List.mem_filter.mp hd).1

theorem positiveRanks_eq_zero_iff : positiveRanks diffs = 0 ↔ ∀ d ∈ diffs, d ≤ 0 := by
  have hclass := rankSum_nonzero_eq_zero_iff diffs (fun d => 0 < d) (lt_irrefl 0)
  simp only [not_lt] at hclass
  exact hclass

theorem negativeRanks_eq_zero_iff : negativeRanks diffs = 0 ↔ ∀ d ∈ diffs, 0 ≤ d := by
  have hclass := rankSum_nonzero_eq_zero_iff diffs (fun d => d < 0) (lt_irrefl 0)
  simp only [not_lt] at hclass
  exact hclass

/-- The smaller rank sum is zero where the differences have one sign. -/
theorem min_ranks_eq_zero_iff :
    min (positiveRanks diffs) (negativeRanks diffs) = 0 ↔ (∀ d ∈ diffs, 0 ≤ d) ∨ ∀ d ∈ diffs, d ≤ 0 := by
  have hpositive : 0 ≤ positiveRanks diffs := rankSum_nonneg
  have hnegative : 0 ≤ negativeRanks diffs := rankSum_nonneg
  rw [← negativeRanks_eq_zero_iff, ← positiveRanks_eq_zero_iff]
  constructor
  · intro h
    rcases min_choice (positiveRanks diffs) (negativeRanks diffs) with hmin | hmin
    · exact Or.inr (hmin ▸ h)
    · exact Or.inl (hmin ▸ h)
  · rintro (h | h)
    · rw [h, min_eq_right hpositive]
    · rw [h, min_eq_left hnegative]

/-- The correlation from the smaller rank sum. -/
theorem rankBiserial_eq (hsome : ∃ d ∈ diffs, d ≠ 0) :
    rankBiserial diffs =
      1 - 2 * min (positiveRanks diffs) (negativeRanks diffs) / (positiveRanks diffs + negativeRanks diffs) := by
  have hpos : 0 < positiveRanks diffs + negativeRanks diffs := by
    rw [positive_add_negative]
    exact places_pos (length_pos_of_mem_nonzero hsome).2
  have habs : |positiveRanks diffs - negativeRanks diffs| =
      positiveRanks diffs + negativeRanks diffs - 2 * min (positiveRanks diffs) (negativeRanks diffs) := by
    rcases le_total (positiveRanks diffs) (negativeRanks diffs) with hle | hle
    · rw [abs_of_nonpos (sub_nonpos.mpr hle), min_eq_left hle]
      ring
    · rw [abs_of_nonneg (sub_nonneg.mpr hle), min_eq_right hle]
      ring
  unfold rankBiserial
  rw [habs, sub_div, div_self hpos.ne']

end Ranks

/-! ## The reported effect size

The code divides by the rank total of all pairs, the correlation by that of the pairs that differ. So both are the
same if there is no pair without a difference, or if the smaller rank sum is zero. -/

section EffectSize

variable {np : Numerics ℚ} {groupA groupB : List ℚ}

/-- A statistic that is no more than half the rank total is neither cut off nor turned round. -/
theorem effectSize_eq {stat : ℚ} {n : Nat} (hn : 0 < n) (hnonneg : 0 ≤ stat)
    (hle : 2 * stat ≤ (n : ℚ) * (n + 1) / 2) :
    effectSize stat n = .ok (1 - 2 * stat / ((n : ℚ) * (n + 1) / 2)) ∧
      0 ≤ 1 - 2 * stat / ((n : ℚ) * (n + 1) / 2) := by
  have hcast : (0 : ℚ) < n := Nat.cast_pos.mpr hn
  have htotal : (0 : ℚ) < (n : ℚ) * (n + 1) / 2 := by positivity
  have hpairs : intDiv ((n : Int) * (n + 1)) 2 = (.ok ((n : ℚ) * (n + 1) / 2) : Except PyError ℚ) := by
    show (Except.ok ((((n : Int) * (n + 1) : Int) : ℚ) / ((2 : Int) : ℚ)) : Except PyError ℚ) = _
    push_cast
    rfl
  have hlow : 0 ≤ 1 - 2 * stat / ((n : ℚ) * (n + 1) / 2) := sub_nonneg.mpr ((div_le_one htotal).mpr hle)
  have hhigh : 1 - 2 * stat / ((n : ℚ) * (n + 1) / 2) ≤ 1 := by
    have hratio : 0 ≤ 2 * stat / ((n : ℚ) * (n + 1) / 2) := by positivity
    linarith
  refine ⟨?_, hlow⟩
  unfold effectSize
  rw [hpairs]
  show Except.ok (pyMax (-1.0) (pyMin 1.0 (if PyRuntime.lt 0.0 ((n : ℚ) * (n + 1) / 2) then _ else 0.0))) = _
  have hzero : (0.0 : ℚ) = 0 := by norm_num
  have hone : (1.0 : ℚ) = 1 := by norm_num
  have htwo : (2.0 : ℚ) = 2 := by norm_num
  rw [hzero, hone, htwo, if_pos (OrderedRuntime.lt_iff.mpr htotal), OrderedRuntime.pyMin_eq_min,
    OrderedRuntime.pyMax_eq_max, min_eq_right hhigh, max_eq_right (by linarith)]

/-- Groups that match and differ somewhere are compared, and the effect size is the one of the statistic. -/
theorem wilcoxonComparison_effect (hlength : groupA.length = groupB.length)
    (hsome : ∃ d ∈ differences groupA groupB, d ≠ 0) {r : ℚ}
    (hr : effectSize (np.wilcoxon groupA groupB).1 groupA.length = .ok r) (metric labelA labelB : String)
    (nComparisons nBootstrap : Int) (alpha : ℚ) :
    ∃ result, wilcoxonComparison np groupA groupB metric labelA labelB nComparisons nBootstrap alpha = .ok result ∧
      result.effectSizeR = r := by
  have hall : ¬ (differences groupA groupB).all (fun d => PyRuntime.eq d 0.0) = true := by
    intro hall
    obtain ⟨d, hd, hne⟩ := hsome
    have hzero := OrderedRuntime.eq_iff.mp (List.all_eq_true.mp hall d hd)
    exact hne (hzero.trans (by norm_num))
  unfold wilcoxonComparison
  rw [if_neg (not_not.mpr hlength)]
  dsimp only
  rw [if_neg hall, hr]
  exact ⟨_, rfl, rfl⟩

/-- One share of two totals. -/
theorem one_sub_share_eq_iff {share total total' : ℚ} (h : 0 < total) (h' : 0 < total') :
    1 - 2 * share / total = 1 - 2 * share / total' ↔ total = total' ∨ share = 0 := by
  rw [sub_right_inj, div_eq_div_iff h.ne' h'.ne']
  constructor
  · intro heq
    have hfactor : share * (total - total') = 0 := by linarith
    rcases mul_eq_zero.mp hfactor with hshare | htotal
    · exact Or.inr hshare
    · exact Or.inl (sub_eq_zero.mp htotal)
  · rintro (rfl | rfl)
    · rfl
    · ring

/-- The effect size of the smaller rank sum, over all pairs. -/
theorem effectSize_of_ranks {diffs : List ℚ} (hsome : ∃ d ∈ diffs, d ≠ 0) :
    effectSize (min (positiveRanks diffs) (negativeRanks diffs)) diffs.length =
        .ok (1 - 2 * min (positiveRanks diffs) (negativeRanks diffs) / ((diffs.length : ℚ) * (diffs.length + 1) / 2)) ∧
      0 ≤ 1 - 2 * min (positiveRanks diffs) (negativeRanks diffs) / ((diffs.length : ℚ) * (diffs.length + 1) / 2) := by
  have hsum := positive_add_negative diffs
  have hp := min_le_left (positiveRanks diffs) (negativeRanks diffs)
  have hq := min_le_right (positiveRanks diffs) (negativeRanks diffs)
  have htotals := places_mono (length_nonzero_le diffs)
  refine effectSize_eq (length_pos_of_mem_nonzero hsome).1 (le_min rankSum_nonneg rankSum_nonneg) ?_
  linarith

/-- **The effect size** is the rank-biserial correlation exactly if all pairs differ, or all differences have one sign.
    One is one minus the statistic by the total of the ranks of all pairs, the other by that of the pairs that differ:
    equal totals are no pair without a difference, and otherwise the statistic is zero. -/
theorem effect_size_iff (hwilcoxon : SignedRankStatistic np) (hlength : groupA.length = groupB.length)
    (hsome : ∃ d ∈ differences groupA groupB, d ≠ 0) (metric labelA labelB : String) (nComparisons nBootstrap : Int)
    (alpha : ℚ) :
    ∃ result, wilcoxonComparison np groupA groupB metric labelA labelB nComparisons nBootstrap alpha = .ok result ∧
      (|result.effectSizeR| = rankBiserial (differences groupA groupB) ↔
        (∀ d ∈ differences groupA groupB, d ≠ 0) ∨
        (∀ d ∈ differences groupA groupB, 0 ≤ d) ∨ ∀ d ∈ differences groupA groupB, d ≤ 0) := by
  have hstat := hwilcoxon groupA groupB hsome
  have hpairs : groupA.length = (differences groupA groupB).length := by
    rw [differences, List.length_zipWith, hlength, min_self]
  obtain ⟨heffect, hlow⟩ := effectSize_of_ranks hsome
  rw [← hstat, ← hpairs] at heffect
  obtain ⟨result, hresult, hr⟩ :=
    wilcoxonComparison_effect hlength hsome heffect metric labelA labelB nComparisons nBootstrap alpha
  refine ⟨result, hresult, ?_⟩
  rw [hr, hstat, hpairs, abs_of_nonneg hlow, rankBiserial_eq hsome, positive_add_negative]
  rw [one_sub_share_eq_iff (places_pos (length_pos_of_mem_nonzero hsome).1)
    (places_pos (length_pos_of_mem_nonzero hsome).2), places_inj (length_nonzero_le _), length_nonzero_eq_iff,
    min_ranks_eq_zero_iff]

/-- The documented statistic, with what else SciPy and NumPy give for three pairs with differences 1, 2 and 3. -/
def documented : Numerics ℚ where
  wilcoxon groupA groupB :=
    (min (positiveRanks (differences groupA groupB)) (negativeRanks (differences groupA groupB)), 1 / 4)
  median xs              := (xs.insertionSort (· ≤ ·)).getD (xs.length / 2) 0
  bootstrapCi diffs _    := (diffs.min?.getD 0, diffs.max?.getD 0)
  groupMean xs           := xs.sum / xs.length

/-- Three pairs that all differ. -/
theorem effect_size_iff_three :
    ∃ result,
      wilcoxonComparison documented [2, 4, 6] [1, 2, 3] "m1_p95_latency_ms" "HS" "B1" 1 9999 0.05 = .ok result ∧
      (|result.effectSizeR| = rankBiserial (differences [2, 4, 6] [1, 2, 3]) ↔
        (∀ d ∈ differences ([2, 4, 6] : List ℚ) [1, 2, 3], d ≠ 0) ∨
        (∀ d ∈ differences ([2, 4, 6] : List ℚ) [1, 2, 3], 0 ≤ d) ∨
        ∀ d ∈ differences ([2, 4, 6] : List ℚ) [1, 2, 3], d ≤ 0) := by
  have hsome : ∃ d ∈ differences ([2, 4, 6] : List ℚ) [1, 2, 3], d ≠ 0 := ⟨1, by decide +kernel, by decide +kernel⟩
  have hlength : ([2, 4, 6] : List ℚ).length = ([1, 2, 3] : List ℚ).length := rfl
  exact effect_size_iff (fun _ _ _ => rfl) hlength hsome _ _ _ _ _ _

/-- Of three pairs one is equal, and the others differ in both directions: the effect size is twice the
    correlation. -/
theorem effect_size_doubled : SignedRankStatistic documented ∧
    (wilcoxonComparison documented [2, 1, 3] [0, 2, 3] "m2_slo_compliance" "HS" "B1" 1 9999 0.05).map
      ComparisonResult.effectSizeR = .ok (2 / 3) ∧
    rankBiserial (differences [2, 1, 3] [0, 2, 3]) = 1 / 3 :=
  ⟨fun _ _ _ => rfl, by decide +kernel, by decide +kernel⟩

end EffectSize

end Experiments
end HybridStream
