import HybridStream.Aode.Scoring
import HybridStream.Lib.Proc
import HybridStream.Py.Exact
import Mathlib.Order.Bounds.Basic
import Mathlib.Tactic.Linarith
import Mathlib.Tactic.NormNum
import Mathlib.Tactic.Positivity

/-!
# `Aode.Correctness.ScoreTerms` — the terms of a score in exact arithmetic

The four terms of a score as functions of the telemetry (`computePhiRes_eq`, `computePhiSlo_eq`, `score_eq`), and
how each grows: `resTerm` and `sloTerm` are monotone. The latency of an operator is the greatest of those the
reachable HEAs report (`getOperatorLatency_eq_some`).

These are facts about numbers once the look-ups have been made, in the form in which the monotonicity of scores and
the comparison of two tiers use them. The matrix of scores is read by names here, so that results need not speak of
rows and columns.
-/

namespace HybridStream
namespace Aode

open Lib Py

/-! ## Latencies

The latency of an operator is the greatest that any reachable HEA reports for it. -/

namespace TelemetryCollector

variable {t : TelemetryCollector ℚ} {op : String}

/-- What the reachable HEAs report for an operator. -/
def latencies (t : TelemetryCollector ℚ) (op : String) : Set ℚ :=
  {x | ∃ hea tel, t.lastTelemetry.get hea = some tel ∧ tel.reachable = true ∧ tel.operatorP95Ms.get op = some x}

theorem mem_latencies_iff {x : ℚ} : x ∈ t.latencies op ↔ x ∈ t.lastTelemetry.values.filterMap
    (fun tel => if tel.reachable then tel.operatorP95Ms.get op else none) := by
  rw [List.mem_filterMap]
  constructor
  · rintro ⟨hea, tel, hget, hreach, hx⟩
    exact ⟨tel, List.mem_map.mpr ⟨(hea, tel), Dict.get_eq_some_iff.mp hget, rfl⟩, by rw [if_pos hreach]; exact hx⟩
  · rintro ⟨tel, htel, hx⟩
    obtain ⟨⟨hea, tel⟩, hmem, rfl⟩ := List.mem_map.mp htel
    obtain ⟨hreach, hx⟩ := Option.ite_none_right_eq_some.mp hx
    exact ⟨hea, tel, Dict.get_eq_some_iff.mpr hmem, hreach, hx⟩

/-- **The latency of an operator is the greatest reported.** -/
theorem getOperatorLatency_cases (t : TelemetryCollector ℚ) (op : String) :
    (t.latencies op = ∅ ∧ t.getOperatorLatency op = none) ∨
      ∃ x, IsGreatest (t.latencies op) x ∧ t.getOperatorLatency op = some x := by
  have hset : t.latencies op = {x | x ∈ t.lastTelemetry.values.filterMap
      (fun tel => if tel.reachable then tel.operatorP95Ms.get op else none)} :=
    Set.ext fun x => mem_latencies_iff
  rw [hset]
  unfold getOperatorLatency
  cases t.lastTelemetry.values.filterMap
      (fun tel => if tel.reachable then tel.operatorP95Ms.get op else none) with
  | nil => exact Or.inl ⟨Set.eq_empty_of_forall_notMem fun x hx => absurd hx List.not_mem_nil, rfl⟩
  | cons x xs => exact Or.inr ⟨_, OrderedRuntime.isGreatest_pyMaxOf x xs, rfl⟩

theorem getOperatorLatency_eq_some {x : ℚ} :
    t.getOperatorLatency op = some x ↔ IsGreatest (t.latencies op) x := by
  rcases t.getOperatorLatency_cases op with ⟨hempty, hnone⟩ | ⟨y, hy, hsome⟩
  · rw [hnone, hempty]
    exact iff_of_false nofun fun h => h.1
  · rw [hsome, Option.some.injEq]
    constructor
    · rintro rfl; exact hy
    · exact fun hx => hy.unique hx

end TelemetryCollector

/-! ## The terms

The resource and the SLO term as functions of one number each, monotone and not negative. -/

/-- `_compute_phi_res` at a utilization. -/
def resTerm (kappa utilization : ℚ) : ℚ := kappa * min utilization 0.99 / (1 - min utilization 0.99)

/-- `_compute_phi_slo` at a latency. -/
def sloTerm (penalty : Int) (sloMs observed : ℚ) : ℚ :=
  if observed ≤ sloMs then 0 else penalty * ((observed - sloMs) / sloMs)

theorem one_sub_min_pos (x : ℚ) : 0 < 1 - min x 0.99 := by
  have hcap : min x 0.99 ≤ 0.99 := min_le_right _ _
  have hlt : (0.99 : ℚ) < 1 := by norm_num
  linarith

theorem resTerm_nonneg {kappa x : ℚ} (hkappa : 0 ≤ kappa) (hx : 0 ≤ x) : 0 ≤ resTerm kappa x :=
  div_nonneg (mul_nonneg hkappa (le_min hx (by norm_num))) (one_sub_min_pos x).le

/-- The resource term grows with the utilization, up to its cap. -/
theorem resTerm_mono {kappa x y : ℚ} (hkappa : 0 ≤ kappa) (hx : 0 ≤ x) (hle : x ≤ y) :
    resTerm kappa x ≤ resTerm kappa y := by
  have hcap : min x 0.99 ≤ min y 0.99 := min_le_min_right _ hle
  have hy : 0 ≤ min y 0.99 := le_min (hx.trans hle) (by norm_num)
  exact div_le_div₀ (mul_nonneg hkappa hy) (mul_le_mul_of_nonneg_left hcap hkappa) (one_sub_min_pos y)
    (sub_le_sub_left hcap 1)

theorem sloTerm_nonneg {penalty : Int} {sloMs observed : ℚ} (hpenalty : 0 ≤ penalty) (hslo : 0 < sloMs) :
    0 ≤ sloTerm penalty sloMs observed := by
  unfold sloTerm
  split
  · exact le_refl 0
  · rename_i hgt
    have hpos : (0 : ℚ) ≤ penalty := Int.cast_nonneg hpenalty
    exact mul_nonneg hpos (div_nonneg (sub_nonneg.mpr (not_le.mp hgt).le) hslo.le)

/-- The SLO term grows with the latency: nothing up to the SLO, and from there on its share of the SLO. -/
theorem sloTerm_mono {penalty : Int} {sloMs x y : ℚ} (hpenalty : 0 ≤ penalty) (hslo : 0 < sloMs) (hle : x ≤ y) :
    sloTerm penalty sloMs x ≤ sloTerm penalty sloMs y := by
  by_cases hx : x ≤ sloMs
  · have hzero : sloTerm penalty sloMs x = 0 := if_pos hx
    rw [hzero]
    exact sloTerm_nonneg hpenalty hslo
  · have hy : ¬ y ≤ sloMs := fun h => hx (hle.trans h)
    unfold sloTerm
    rw [if_neg hx, if_neg hy]
    have hpos : (0 : ℚ) ≤ penalty := Int.cast_nonneg hpenalty
    exact mul_le_mul_of_nonneg_left (div_le_div_of_nonneg_right (sub_le_sub_right hle _) hslo.le) hpos

/-! ## The score

A score as the weighted sum of its four terms, with everything that the methods look up written out. -/

namespace ScoringAlgorithm

variable {s : ScoringAlgorithm ℚ}

theorem floatDiv_eq {x y : ℚ} (h : y ≠ 0) : floatDiv x y = .ok (x / y) := by
  unfold floatDiv
  rw [if_neg (mt Exact.eq_iff.mp (by norm_num [h]))]

/-- The utilization a tier is scored with: the greater of the two. -/
def utilization (s : ScoringAlgorithm ℚ) (tierId : String) : ℚ :=
  max (s.telemetry.getTierUtilization tierId).1 (s.telemetry.getTierUtilization tierId).2

theorem computePhiRes_eq (s : ScoringAlgorithm ℚ) (tierId : String) :
    s.computePhiRes tierId = .ok (resTerm s.config.kappa (s.utilization tierId)) := by
  have hone : (1.0 : ℚ) = 1 := by norm_num
  unfold computePhiRes
  dsimp only
  rw [OrderedRuntime.pyMax_eq_max, OrderedRuntime.pyMin_eq_min, hone]
  exact floatDiv_eq (one_sub_min_pos _).ne'

/-- The SLO an operator is scored with: an hour if it has none. -/
def sloOf (sloMs : Option ℚ) : ℚ := sloMs.getD (3600.0 * 1000.0)

theorem computePhiSlo_eq (s : ScoringAlgorithm ℚ) (op : String) {sloMs : Option ℚ} (hslo : sloOf sloMs ≠ 0) :
    s.computePhiSlo op sloMs = .ok (sloTerm s.config.sloPenaltyFactor (sloOf sloMs) (s.observedLatencyMs op)) := by
  unfold computePhiSlo sloTerm
  dsimp only
  rw [show sloMs.getD (3600.0 * 1000.0) = sloOf sloMs from rfl]
  by_cases hle : s.observedLatencyMs op ≤ sloOf sloMs
  · have hzero : (0.0 : ℚ) = 0 := by norm_num
    rw [if_pos hle, if_pos (Exact.le_iff.mpr hle), hzero]
  · rw [if_neg hle, if_neg (mt Exact.le_iff.mp hle)]
    exact bind_eq_ok.mpr ⟨_, floatDiv_eq hslo, rfl⟩

/-- The factor of a lambda class. -/
def lambdaFactor (lambdaClass : String) : ℚ :=
  (Dict.ofList [("critical", 3.0), ("standard", 1.0), ("batch", 0.1)]).getD lambdaClass 1.0

/-- The sum of the four terms. -/
def scoreValue (s : ScoringAlgorithm ℚ) (op tierId : String) (sloMs : Option ℚ) (lambdaClass : String) : ℚ :=
  s.weights.wLat * (lambdaFactor lambdaClass * s.observedLatencyMs op)
    + s.weights.wRes * resTerm s.config.kappa (s.utilization tierId)
    + s.weights.wNet * s.computePhiNet tierId
    + s.weights.wSlo * sloTerm s.config.sloPenaltyFactor (sloOf sloMs) (s.observedLatencyMs op)

/-- **A score is the sum of its four terms**; only an SLO of zero makes it fail. -/
theorem score_eq (s : ScoringAlgorithm ℚ) (op tierId lambdaClass : String) {sloMs : Option ℚ}
    (hslo : sloOf sloMs ≠ 0) : s.score op tierId sloMs lambdaClass = .ok (s.scoreValue op tierId sloMs lambdaClass) :=
  bind_eq_ok.mpr ⟨_, s.computePhiRes_eq tierId, bind_eq_ok.mpr ⟨_, s.computePhiSlo_eq op hslo, rfl⟩⟩

theorem lambdaFactor_pos (lambdaClass : String) : 0 < lambdaFactor lambdaClass := by
  have hall : ∀ x ∈ (Dict.ofList [("critical", (3.0 : ℚ)), ("standard", 1.0), ("batch", 0.1)]).values, 0 < x := by
    decide +kernel
  unfold lambdaFactor Dict.getD
  cases hget : (Dict.ofList [("critical", (3.0 : ℚ)), ("standard", 1.0), ("batch", 0.1)]).get lambdaClass with
  | none => norm_num
  | some x => exact hall x (List.mem_map_of_mem (Dict.get_eq_some_iff.mp hget))

/-- All weights of a preset are positive. -/
theorem weights_pos {w : WeightPreset ℚ} (h : w ∈ weightPresets.values) :
    0 < w.wLat ∧ 0 < w.wRes ∧ 0 < w.wNet ∧ 0 < w.wSlo := by
  have hall : ∀ w ∈ (weightPresets (F := ℚ)).values, 0 < w.wLat ∧ 0 < w.wRes ∧ 0 < w.wNet ∧ 0 < w.wSlo := by
    decide +kernel
  exact hall w h

/-- What `get_operator_latency(…) or 1.0` is: no latency and a latency of zero are one millisecond. -/
def orDefault : Option ℚ → ℚ
  | some x => if x = 0 then 1 else x
  | none   => 1

theorem orDefault_zero : orDefault (some 0) = 1 := by
  show (if (0 : ℚ) = 0 then (1 : ℚ) else 0) = 1
  exact if_pos rfl

theorem orDefault_of_ne {x : ℚ} (h : x ≠ 0) : orDefault (some x) = x := by
  show (if x = 0 then (1 : ℚ) else x) = x
  exact if_neg h

theorem observedLatencyMs_eq (s : ScoringAlgorithm ℚ) (op : String) :
    s.observedLatencyMs op = orDefault (s.telemetry.getOperatorLatency op) := by
  have hzero : (0.0 : ℚ) = 0 := by norm_num
  have hone : (1.0 : ℚ) = 1 := by norm_num
  unfold observedLatencyMs orDefault
  rw [hone]
  cases s.telemetry.getOperatorLatency op with
  | none => rfl
  | some x =>
      dsimp only
      rw [hzero]
      by_cases hx : x = 0
      · rw [if_pos hx, if_pos (Exact.eq_iff.mpr hx)]
      · rw [if_neg hx, if_neg (mt Exact.eq_iff.mp hx)]

/-! ## The matrix

The scores by name instead of by position, which is how results about operators and tiers read them. -/

section Matrix

variable {ops tiers : List String} {f g : String → String → ℚ}

/-- A matrix by the names of its rows and columns. -/
def matrix (ops tiers : List String) (f : String → String → ℚ) : Scores ℚ :=
  ops.map (fun op => tiers.map (f op))

theorem computeScores_eq (s : ScoringAlgorithm ℚ) {sloMap : Dict String (Option ℚ)} (lambdaMap : Dict String String)
    (hslo : ∀ op ∈ ops, sloOf (sloMap.getD op none) ≠ 0) :
    s.computeScores ops tiers sloMap lambdaMap = .ok (matrix ops tiers (fun op t =>
      s.scoreValue op t (sloMap.getD op none) (lambdaMap.getD op "standard"))) := by
  apply mapM_eq_map
  intro op hop
  apply mapM_eq_map
  exact fun t _ => s.score_eq op t _ (hslo op hop)

theorem entry_matrix {op t : String} {i j : Nat} (hop : ops[i]? = some op) (ht : tiers[j]? = some t) :
    (matrix ops tiers f).entry i j = f op t := by
  unfold matrix Scores.entry
  rw [List.getD_eq_getElem?_getD, List.getD_eq_getElem?_getD, List.getElem?_map, hop, Option.map_some,
    Option.getD_some, List.getElem?_map, ht]
  rfl

/-- Off the matrix there are zeros. -/
theorem entry_matrix_of_none {i j : Nat} (h : ops[i]? = none ∨ tiers[j]? = none) :
    (matrix ops tiers f).entry i j = 0.0 := by
  unfold matrix Scores.entry
  rw [List.getD_eq_getElem?_getD, List.getD_eq_getElem?_getD, List.getElem?_map]
  cases hop : ops[i]? with
  | none => rfl
  | some op =>
      rw [Option.map_some, Option.getD_some, List.getElem?_map,
        h.resolve_left (by rw [hop]; exact nofun)]
      rfl

/-- What relates the entries by name relates them by position. -/
theorem entry_matrix_rel {R : ℚ → ℚ → Prop} (hzero : R 0.0 0.0) :
    (∀ i j, R ((matrix ops tiers f).entry i j) ((matrix ops tiers g).entry i j)) ↔
      ∀ op ∈ ops, ∀ t ∈ tiers, R (f op t) (g op t) := by
  constructor
  · intro h op hop t ht
    obtain ⟨i, hi⟩ := List.getElem?_of_mem hop
    obtain ⟨j, hj⟩ := List.getElem?_of_mem ht
    have hij := h i j
    rw [entry_matrix hi hj, entry_matrix hi hj] at hij
    exact hij
  · intro h i j
    cases hi : ops[i]? with
    | none =>
        rw [entry_matrix_of_none (Or.inl hi), entry_matrix_of_none (Or.inl hi)]
        exact hzero
    | some op =>
        cases hj : tiers[j]? with
        | none =>
            rw [entry_matrix_of_none (Or.inr hj), entry_matrix_of_none (Or.inr hj)]
            exact hzero
        | some t =>
            rw [entry_matrix hi hj, entry_matrix hi hj]
            exact h op (List.mem_of_getElem? hi) t (List.mem_of_getElem? hj)

end Matrix

end ScoringAlgorithm

end Aode
end HybridStream
