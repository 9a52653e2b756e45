import Mathlib.Data.Int.ConditionallyCompleteOrder
import Mathlib.Data.Finset.Sort
import HybridStream.Experiments.Correctness.EffectSize

/-!
# `Experiments.Correctness.PairedRepetitions` — what a comparison pairs

The values of a system come in ascending order of the repetition numbers that occur for it, and are paired by position.
So they belong together exactly if the same numbers occur for both systems, which is not checked: only that there are
ten of them (`pairs_repetitions_iff`).

The test is on the sets of numbers, read off the frame; that each repetition has as many rows as it likes makes no
difference, as a repetition has one mean. The counterexample shifts the numbers of one system by one.
-/

namespace HybridStream
namespace Experiments

open Lib Py

variable {F : Type}

/-! ## Repetition numbers

`groupby` has its keys in ascending order, each once, so the values of a group come by ascending repetition number. -/

/-- The repetition numbers that occur for a system in a workload and a network. -/
def repetitionSet (df : List (Row F)) (workload network system : String) : Finset Int :=
  ((select df workload network system).map Row.repetition).toFinset

/-- In ascending order they are the keys of the groups. -/
theorem repetitionsOf_select (df : List (Row F)) (workload network system : String) :
    repetitionsOf (select df workload network system) =
      (repetitionSet df workload network system).sort (· ≤ ·) := by
  have hperm : (repetitionsOf (select df workload network system)).Perm
      ((select df workload network system).map Row.repetition).dedup := List.perm_insertionSort _ _
  have hset : (repetitionsOf (select df workload network system)).toFinset =
      repetitionSet df workload network system := by
    ext rep
    rw [List.mem_toFinset, hperm.mem_iff, List.mem_dedup, repetitionSet, List.mem_toFinset]
  have hnodup : (repetitionsOf (select df workload network system)).Nodup :=
    hperm.nodup_iff.mpr (List.nodup_dedup _)
  rw [← hset]
  exact ((List.toFinset_sort (· ≤ ·) hnodup).mpr (List.pairwise_insertionSort _ _)).symm

/-- The same numbers occur where the groups have the same keys. -/
theorem repetitionsOf_select_inj {df : List (Row F)} {workload network system system' : String} :
    repetitionsOf (select df workload network system) = repetitionsOf (select df workload network system') ↔
      repetitionSet df workload network system = repetitionSet df workload network system' := by
  rw [repetitionsOf_select, repetitionsOf_select]
  constructor
  · intro h
    rw [← Finset.sort_toFinset (repetitionSet df workload network system) (· ≤ ·), h, Finset.sort_toFinset]
  · intro h
    rw [h]

theorem length_meansByRepetition (np : Numerics F) (df : List (Row F)) (workload network system : String)
    (metric : Metric) :
    (meansByRepetition np (select df workload network system) metric).length =
      (repetitionSet df workload network system).card := by
  rw [meansByRepetition, List.length_map, repetitionsOf_select, Finset.length_sort]

/-! ## Pairs

Values are paired by position. Both of a pair are of one repetition exactly if the two systems have the same
repetitions, which the code does not compare; it only counts them. -/

/-- The mean of a metric over the rows of one repetition of a system. -/
def meanOf (np : Numerics F) (df : List (Row F)) (workload network system : String) (metric : Metric) (rep : Int) : F :=
  np.groupMean (((select df workload network system).filter (fun row => row.repetition = rep)).map metric.of)

/-- Position by position, both values are those of one repetition of the workload and the network. -/
def PairsRepetitions (np : Numerics F) (df : List (Row F)) (c : Comparison F) : Prop :=
  ∃ reps : List Int,
    c.groupA = reps.map (fun rep => (rep, meanOf np df c.workload c.network "HybridStream" c.metric rep)) ∧
    c.groupB = reps.map (fun rep => (rep, meanOf np df c.workload c.network c.baseline c.metric rep))

/-- The systems that a comparison is between all have ten repetitions. -/
def Complete (df : List (Row F)) (workload network : String) : Prop :=
  (repetitionSet df workload network "HybridStream").card = 10 ∧
    (repetitionSet df workload network "B1").card = 10 ∧ (repetitionSet df workload network "B2").card = 10

/-- The same repetitions of them. -/
def SameRepetitions (df : List (Row F)) (workload network : String) : Prop :=
  repetitionSet df workload network "HybridStream" = repetitionSet df workload network "B1" ∧
    repetitionSet df workload network "HybridStream" = repetitionSet df workload network "B2"

section Pairs

variable {np : Numerics F} {df : List (Row F)} {workload network baseline : String} {metric : Metric}

/-- **One comparison** pairs the same repetitions exactly if the same ones occur for both systems. -/
theorem pairsRepetitions_iff :
    PairsRepetitions np df ⟨workload, network, baseline, metric,
      meansByRepetition np (select df workload network "HybridStream") metric,
      meansByRepetition np (select df workload network baseline) metric⟩ ↔
    repetitionSet df workload network "HybridStream" = repetitionSet df workload network baseline := by
  rw [← repetitionsOf_select_inj]
  constructor
  · rintro ⟨reps, hA, hB⟩
    have hkeysA := congrArg (List.map Prod.fst) hA
    have hkeysB := congrArg (List.map Prod.fst) hB
    simp only [meansByRepetition, List.map_map, Function.comp_def, List.map_id'] at hkeysA hkeysB
    exact hkeysA.trans hkeysB.symm
  · intro h
    refine ⟨repetitionsOf (select df workload network "HybridStream"), rfl, ?_⟩
    rw [h]
    rfl

variable (np metric) in
/-- The comparisons of one metric in one workload and network are made where all systems are complete. -/
theorem mem_comparisonsOf {c : Comparison F} :
    c ∈ comparisonsOf np df workload network metric ↔ Complete df workload network ∧
      ∃ baseline ∈ ["B1", "B2"], c = ⟨workload, network, baseline, metric,
        meansByRepetition np (select df workload network "HybridStream") metric,
        meansByRepetition np (select df workload network baseline) metric⟩ := by
  unfold comparisonsOf
  dsimp only
  rw [length_meansByRepetition, length_meansByRepetition, length_meansByRepetition]
  split
  · rename_i h
    have hcomplete : Complete df workload network := ⟨h.1.trans (h.2.1.trans h.2.2), h.2.1.trans h.2.2, h.2.2⟩
    simp [hcomplete]
  · rename_i h
    have hincomplete : ¬ Complete df workload network := by
      rintro ⟨hA, hB, hC⟩
      exact h ⟨hA.trans hB.symm, hB.trans hC.symm, hC⟩
    simp [hincomplete]

end Pairs

/-- **The tie to `run_all_pairwise_comparisons`**: its results are those of the comparisons listed, in their order and
    each of them on the values alone. -/
theorem results_of_comparisons [PyRuntime F] {np : Numerics F} {df : List (Row F)} {results : List (ComparisonResult F)}
    (h : runAllPairwiseComparisons np df = .ok results) :
    List.Forall₂
      (fun c result => wilcoxonComparison np (c.groupA.map Prod.snd) (c.groupB.map Prod.snd) c.metric.name
        (c.labelOf "HybridStream") (c.labelOf c.baseline) 54 9999 0.05 = .ok result)
      (comparisons np df) results := mapM_eq_ok h

/-- **All comparisons** that are made pair the same repetitions exactly if, wherever all systems have ten of them, they
    are the same ones. The values of a system come in ascending order of its repetition numbers and are paired by
    position, so a comparison asks for the same set of numbers on both sides. -/
theorem pairs_repetitions_iff (np : Numerics F) (df : List (Row F)) :
    (∀ c ∈ comparisons np df, PairsRepetitions np df c) ↔
      ∀ workload ∈ workloads, ∀ network ∈ networks, Complete df workload network →
        SameRepetitions df workload network := by
  have hmem : ∀ c, c ∈ comparisons np df ↔ ∃ workload ∈ workloads, ∃ network ∈ networks, ∃ metric ∈ metrics,
      c ∈ comparisonsOf np df workload network metric := by
    intro c
    simp only [comparisons, List.mem_flatMap]
  constructor
  · intro h workload hworkload network hnetwork hcomplete
    have hpairs : ∀ baseline ∈ ["B1", "B2"],
        repetitionSet df workload network "HybridStream" = repetitionSet df workload network baseline := by
      intro baseline hbaseline
      have hc := (mem_comparisonsOf np .m1P95LatencyMs).mpr ⟨hcomplete, baseline, hbaseline, rfl⟩
      refine pairsRepetitions_iff.mp (h _ ((hmem _).mpr ⟨workload, hworkload, network, hnetwork, _, ?_, hc⟩))
      exact List.mem_cons_self
    exact ⟨hpairs "B1" (by decide), hpairs "B2" (by decide)⟩
  · intro h c hc
    obtain ⟨workload, hworkload, network, hnetwork, metric, -, hc⟩ := (hmem c).mp hc
    obtain ⟨hcomplete, baseline, hbaseline, rfl⟩ := (mem_comparisonsOf np metric).mp hc
    obtain ⟨hB1, hB2⟩ := h workload hworkload network hnetwork hcomplete
    refine pairsRepetitions_iff.mpr ?_
    rcases List.mem_pair.mp hbaseline with rfl | rfl
    · exact hB1
    · exact hB2

/-- Ten repetitions of each system, those of one baseline numbered from two. -/
def shiftedRepetitions : List (Row ℚ) :=
  (List.range 10).flatMap fun i =>
    [ ⟨"W1", "N1", "HybridStream", i + 1, i, 1, i⟩,
      ⟨"W1", "N1", "B1",           i + 1, i, 1, i⟩,
      ⟨"W1", "N1", "B2",           i + 2, i, 1, i⟩ ]

/-- They are compared, the first repetition of one system with the second of the other, and so on. -/
theorem repetitions_mixed : ∃ c ∈ comparisons documented shiftedRepetitions,
    c.groupA.map Prod.fst = [1, 2, 3, 4, 5, 6, 7, 8, 9, 10] ∧
    c.groupB.map Prod.fst = [2, 3, 4, 5, 6, 7, 8, 9, 10, 11] ∧
    ¬ PairsRepetitions documented shiftedRepetitions c := by
  refine ⟨⟨"W1", "N1", "B2", .m1P95LatencyMs,
    meansByRepetition documented (select shiftedRepetitions "W1" "N1" "HybridStream") .m1P95LatencyMs,
    meansByRepetition documented (select shiftedRepetitions "W1" "N1" "B2") .m1P95LatencyMs⟩, ?_, ?_, ?_, ?_⟩
  · have hcomplete : Complete shiftedRepetitions "W1" "N1" :=
      ⟨by decide +kernel, by decide +kernel, by decide +kernel⟩
    have hc := (mem_comparisonsOf documented .m1P95LatencyMs).mpr ⟨hcomplete, "B2", by decide, rfl⟩
    exact List.mem_flatMap.mpr ⟨"W1", by decide, List.mem_flatMap.mpr ⟨"N1", by decide,
      List.mem_flatMap.mpr ⟨.m1P95LatencyMs, by decide, hc⟩⟩⟩
  · decide +kernel
  · decide +kernel
  · rw [pairsRepetitions_iff]
    decide +kernel

end Experiments
end HybridStream
