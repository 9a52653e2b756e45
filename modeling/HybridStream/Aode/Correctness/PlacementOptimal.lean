import HybridStream.Aode.Correctness.Preference

/-!
# `Aode.Correctness.PlacementOptimal` — the placement on computed scores is optimal

In exact arithmetic a score is the sum of a part that depends on the operator alone and a part that depends
on the tier alone (`computeScores_separable`). So all operators rank the tiers alike, an assignment takes the
cheapest tier with room (`PlanInv.filledFirst_assign`), and no tier is used while a cheaper one has room. On
a matrix without this structure the greedy choice need not be optimal.
-/

namespace HybridStream
namespace Aode

open Lib Py

/-! ## The two parts of a score

A score is a part of the operator (latency, SLO) and a part of the tier (utilization, network); there is no term that
depends on both. -/

namespace ScoringAlgorithm

variable {s : ScoringAlgorithm ℚ}

/-- What a score takes from the operator: its latency and its SLO. -/
def operatorPart (s : ScoringAlgorithm ℚ) (operatorType : String) (sloMs : Option ℚ) (lambdaClass : String) : ℚ :=
  s.weights.wLat * s.computePhiLat operatorType lambdaClass
    + s.weights.wSlo * (s.computePhiSlo operatorType sloMs).toOption.getD 0

/-- What a score takes from the tier: its utilization and its network distance. -/
def tierPart (s : ScoringAlgorithm ℚ) (tierId : String) : ℚ :=
  s.weights.wRes * (s.computePhiRes tierId).toOption.getD 0 + s.weights.wNet * s.computePhiNet tierId

theorem score_eq_ok {op t lambdaClass : String} {sloMs : Option ℚ} {x : ℚ}
    (h : s.score op t sloMs lambdaClass = .ok x) : x = s.operatorPart op sloMs lambdaClass + s.tierPart t := by
  obtain ⟨phiRes, hres, h⟩ := bind_eq_ok.mp h
  obtain ⟨phiSlo, hslo, h⟩ := bind_eq_ok.mp h
  cases h
  unfold operatorPart tierPart
  rw [hres, hslo]
  show _ = (_ + s.weights.wSlo * phiSlo) + (s.weights.wRes * phiRes + _)
  ring

/-- **The scores are separable.** -/
theorem computeScores_separable {ops tiers : List String} {sloMap : Dict String (Option ℚ)}
    {lambdaMap : Dict String String} {scores : Scores ℚ}
    (h : s.computeScores ops tiers sloMap lambdaMap = .ok scores) {op t : String} {i j : Nat}
    (hop : (op, i) ∈ ops.zipIdx) (ht : (t, j) ∈ tiers.zipIdx) :
    scores.entry i j =
      s.operatorPart op (sloMap.getD op none) (lambdaMap.getD op "standard") + s.tierPart t := by
  obtain ⟨row, hrow, h⟩ := mapM_getElem? h (List.mem_zipIdx_iff_getElem?.mp hop)
  obtain ⟨x, hx, h⟩ := mapM_getElem? h (List.mem_zipIdx_iff_getElem?.mp ht)
  have hentry : scores.entry i j = x := by
    have hrowD : scores.getD i [] = row := by rw [List.getD_eq_getElem?_getD, show scores[i]? = _ from hrow]; rfl
    unfold Scores.entry
    rw [hrowD, List.getD_eq_getElem?_getD, show row[j]? = _ from hx, Option.getD_some]
  rw [hentry]
  exact score_eq_ok h

end ScoringAlgorithm

/-! ## The cheapest tier with room

With such scores every operator has the same order of tiers, so assigning the cheapest one with room keeps the cheap
tiers full. -/

section Separable

variable {scores : Scores ℚ} {ops tiers : List String} {caps : Dict String Nat} {own price : String → ℚ}

/-- Every entry is the operator's own part and the tier's price. -/
def Separable (scores : Scores ℚ) (ops tiers : List String) (own price : String → ℚ) : Prop :=
  ∀ op i, (op, i) ∈ ops.zipIdx → ∀ t j, (t, j) ∈ tiers.zipIdx → scores.entry i j = own op + price t

/-- **An assignment keeps the cheap tiers full**: the tier it takes is the cheapest with room. -/
theorem PlanInv.filledFirst_assign {plan : Plan} {done : List String} {op : String} {i : Nat}
    (h : PlanInv tiers caps plan done) (hsep : Separable scores ops tiers own price)
    (hi : (op, i) ∈ ops.zipIdx) (hop : op ∉ done) (hlt : done.length < ∑ t ∈ tiers.toFinset, caps.getD t 0)
    (hfilled : plan.placement.FilledFirst tiers.toFinset price (fun t => caps.getD t 0)) :
    (plan.assign scores tiers caps (op, i)).placement.FilledFirst tiers.toFinset price
      (fun t => caps.getD t 0) := by
  obtain ⟨x, hfind, -, -, hassign⟩ := h.assign_eq scores op i hlt
  have hcheapest : ∀ t ∈ tiers, plan.placement.load t < caps.getD t 0 → price x.1 ≤ price t := by
    intro t ht hroom
    obtain ⟨y, hy, rfl⟩ := (mem_tierScores scores i).mpr ht
    have hle := score_le_of_find? hfind hy (decide_eq_true hroom)
    obtain ⟨hxj, hxscore⟩ := mem_tierScores_iff.mp (List.mem_of_find?_eq_some hfind)
    obtain ⟨hyj, hyscore⟩ := mem_tierScores_iff.mp hy
    rw [hxscore, hyscore, hsep op i hi _ _ hxj, hsep op i hi _ _ hyj] at hle
    exact le_of_add_le_add_left hle
  have hnew : op ∉ plan.placement.keys := by rw [h.keys]; exact hop
  rw [hassign]
  intro t ht t' ht' hprice hused
  rw [Dict.load_set_of_not_mem hnew] at hused ⊢
  have hfull : caps.getD t 0 ≤ plan.placement.load t := by
    by_cases hold : 0 < plan.placement.load t'
    · exact hfilled t ht t' ht' hprice hold
    · -- `t'` is used now and was not before, so it is the tier taken
      have htaken : x.1 = t' := by
        by_contra hne
        rw [if_neg hne] at hused
        exact hold hused
      rw [← htaken] at hprice
      by_contra hroom
      exact absurd hprice (not_lt.mpr (hcheapest t (List.mem_toFinset.mp ht) (not_le.mp hroom)))
  exact hfull.trans (Nat.le_add_right _ _)

/-- **The plan keeps the cheap tiers full.** -/
theorem filledFirst_of_plan {optimal : Dict String String} (hops : ops.Nodup)
    (hsep : Separable scores ops tiers own price) (hfit : ops.length ≤ ∑ t ∈ tiers.toFinset, caps.getD t 0)
    (h : findOptimalPlacement scores ops tiers caps = .ok optimal) :
    optimal.FilledFirst tiers.toFinset price (fun t => caps.getD t 0) := by
  obtain ⟨plan, _, -, -, hfilled, rfl⟩ := plan_induct
    (Q := fun plan => plan.placement.FilledFirst tiers.toFinset price (fun t => caps.getD t 0)) hops hfit h
    (fun _ t _ t' _ _ hused => absurd hused (Nat.lt_irrefl 0))
    (fun plan done x hinv hx hop hlt hfilled => hinv.filledFirst_assign hsep hx hop hlt hfilled)
  exact hfilled

end Separable

/-! ## Optimality

The library's result on separable costs, applied to the placement that the loop returns. -/

/-- An assignment of the operators to the tiers that respects the capacities. -/
structure Feasible (ops tiers : List String) (caps : Dict String Nat) (d : Dict String String) : Prop where
  assigns : d.keys.Perm ops
  known   : ∀ t ∈ d.values, t ∈ tiers
  fits    : ∀ t ∈ tiers, d.load t ≤ caps.getD t 0

/-- The total score of an assignment: for each operator, the entry of its row at the tier it is on. -/
def totalScore (scores : Scores ℚ) (ops tiers : List String) (d : Dict String String) : ℚ :=
  d.cost (fun op t => scores.entry (ops.idxOf op) (tiers.idxOf t))

theorem mem_zipIdx_idxOf {xs : List String} {x : String} (h : x ∈ xs) : (x, xs.idxOf x) ∈ xs.zipIdx := by
  rw [List.mem_zipIdx_iff_getElem?]
  show xs[xs.idxOf x]? = some x
  rw [List.getElem?_eq_getElem (List.idxOf_lt_length_iff.mpr h), List.getElem_idxOf]

/-- **The placement is optimal on computed scores**: it respects the capacities, and no assignment that does has a lower
    total score. A score is a part of the operator and a part of the tier, so assignments differ only in what their
    tiers cost; the loop fills the cheapest tiers first, and by exchange nothing is cheaper
    (`Dict.cost_le_of_separable`). -/
theorem placement_optimal {s : ScoringAlgorithm ℚ} {ops tiers : List String}
    {sloMap : Dict String (Option ℚ)} {lambdaMap : Dict String String} {scores : Scores ℚ}
    (caps : Dict String Nat) (hops : ops.Nodup) (htiers : tiers.Nodup)
    (hfit : ops.length ≤ (tiers.map (fun t => caps.getD t 0)).sum)
    (hscores : s.computeScores ops tiers sloMap lambdaMap = .ok scores) :
    ∃ placement, findOptimalPlacement scores ops tiers caps = .ok placement ∧
      Feasible ops tiers caps placement ∧
      ∀ d, Feasible ops tiers caps d → totalScore scores ops tiers placement ≤ totalScore scores ops tiers d := by
  rw [← List.sum_toFinset _ htiers] at hfit
  have hnone : tiers = [] → ops = [] := by
    rintro rfl
    exact List.length_eq_zero_iff.mp (Nat.le_zero.mp hfit)
  obtain ⟨placement, hplacement⟩ := exists_findOptimalPlacement scores ops tiers caps hnone
  obtain ⟨hkeys, hknown, hload⟩ := plan_spec hops hfit hplacement
  refine ⟨placement, hplacement, ⟨hkeys, hknown, hload⟩, ?_⟩
  intro d hd
  have hsep : Separable scores ops tiers
      (fun op => s.operatorPart op (sloMap.getD op none) (lambdaMap.getD op "standard")) s.tierPart :=
    fun op i hop t j ht => ScoringAlgorithm.computeScores_separable hscores hop ht
  have hfilled := filledFirst_of_plan hops hsep hfit hplacement
  have hcost : ∀ op ∈ placement.keys, ∀ t ∈ tiers.toFinset,
      scores.entry (ops.idxOf op) (tiers.idxOf t) =
        s.operatorPart op (sloMap.getD op none) (lambdaMap.getD op "standard") + s.tierPart t := by
    intro op hop t ht
    exact hsep op _ (mem_zipIdx_idxOf (hkeys.mem_iff.mp hop)) t _ (mem_zipIdx_idxOf (List.mem_toFinset.mp ht))
  exact Dict.cost_le_of_separable hcost hfilled (hkeys.trans hd.assigns.symm)
    (fun t ht => List.mem_toFinset.mpr (hknown t ht)) (fun t ht => List.mem_toFinset.mpr (hd.known t ht))
    (fun t ht => hd.fits t (List.mem_toFinset.mp ht))

/-- Two operators that both would rather be on the one place of the cheaper tier. -/
theorem placement_optimal_two : ∃ scores placement,
    PlacementOptimizer.crowded.scoring.computeScores ["op-1", "op-6"] ["edge-node-1", "cloud"]
      (Dict.ofList [("op-6", some 5)]) (Dict.ofList [("op-1", "batch")]) = .ok scores ∧
    findOptimalPlacement scores ["op-1", "op-6"] ["edge-node-1", "cloud"]
      (Dict.ofList [("edge-node-1", 1), ("cloud", 1)]) = .ok placement ∧
    ∀ d, Feasible ["op-1", "op-6"] ["edge-node-1", "cloud"] (Dict.ofList [("edge-node-1", 1), ("cloud", 1)]) d →
      totalScore scores ["op-1", "op-6"] ["edge-node-1", "cloud"] placement ≤
        totalScore scores ["op-1", "op-6"] ["edge-node-1", "cloud"] d := by
  cases h : PlacementOptimizer.crowded.scoring.computeScores ["op-1", "op-6"] ["edge-node-1", "cloud"]
      (Dict.ofList [("op-6", some 5)]) (Dict.ofList [("op-1", "batch")]) with
  | error e =>
      have hok : (PlacementOptimizer.crowded.scoring.computeScores ["op-1", "op-6"] ["edge-node-1", "cloud"]
        (Dict.ofList [("op-6", some 5)]) (Dict.ofList [("op-1", "batch")])).isOk = true := by decide +kernel
      rw [h] at hok
      exact absurd hok (by simp [Except.isOk, Except.toBool])
  | ok scores =>
      obtain ⟨placement, hplacement, -, hmin⟩ := placement_optimal
        (Dict.ofList [("edge-node-1", 1), ("cloud", 1)]) (by decide) (by decide) (by decide) h
      exact ⟨scores, placement, rfl, hplacement, hmin⟩

end Aode
end HybridStream
