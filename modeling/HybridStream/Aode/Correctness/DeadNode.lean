import HybridStream.Aode.Correctness.ScoreTerms

/-!
# `Aode.Correctness.DeadNode` — a reachable edge node against an unreachable one

An unreachable HEA is scored with stand-ins: a utilization of 0.9 and a round trip of 1000 ms. A reachable one is
scored with what it reports, a utilization of up to 0.99 and any round trip, so nothing keeps it below the
stand-ins. `live_le_dead_iff` says how long the round trip of the reachable one may be: the stand-in, and what it
saves in the resource term.
-/

namespace HybridStream
namespace Aode

open Lib Py

namespace TelemetryCollector

/-- No telemetry, or that of an unreachable HEA. -/
def Dead (t : TelemetryCollector ℚ) (heaId : String) : Prop :=
  ∀ tel, t.lastTelemetry.get heaId = some tel → tel.reachable = false

theorem getTierUtilization_of_dead {t : TelemetryCollector ℚ} {heaId : String} (h : t.Dead heaId) :
    t.getTierUtilization heaId = (0.9, 0.9) := by
  unfold getTierUtilization
  cases hget : t.lastTelemetry.get heaId with
  | none => rfl
  | some tel =>
      dsimp only
      rw [h tel hget]
      rfl

end TelemetryCollector

namespace ScoringAlgorithm

variable {s : ScoringAlgorithm ℚ} {tierId : String} {tel : HEATelemetry ℚ}

theorem computePhiNet_of_dead (h : s.telemetry.Dead tierId) (hedge : tierId ≠ "cloud") :
    s.computePhiNet tierId = 1000 := by
  have hthousand : (1000.0 : ℚ) = 1000 := by norm_num
  unfold computePhiNet
  rw [if_neg hedge, hthousand]
  cases hget : s.telemetry.lastTelemetry.get tierId with
  | none => rfl
  | some tel =>
      dsimp only
      rw [h tel hget]
      rfl

theorem computePhiNet_of_live (hget : s.telemetry.lastTelemetry.get tierId = some tel) (hreach : tel.reachable = true)
    (hedge : tierId ≠ "cloud") : s.computePhiNet tierId = tel.rttMs := by
  unfold computePhiNet
  rw [if_neg hedge, hget]
  dsimp only
  rw [if_pos hreach]

theorem utilization_of_dead (h : s.telemetry.Dead tierId) : s.utilization tierId = 0.9 := by
  unfold utilization
  rw [TelemetryCollector.getTierUtilization_of_dead h]
  exact max_self _

theorem utilization_of_live (hget : s.telemetry.lastTelemetry.get tierId = some tel) (hreach : tel.reachable = true) :
    s.utilization tierId = max tel.cpuUtilization tel.memoryUtilization := by
  unfold utilization TelemetryCollector.getTierUtilization
  rw [hget]
  dsimp only
  rw [if_pos hreach]

/-- The resource term of the stand-in. -/
theorem resTerm_standIn (kappa : ℚ) : resTerm kappa 0.9 = 9 * kappa := by
  have hmin : min (0.9 : ℚ) 0.99 = 0.9 := min_eq_left (by norm_num)
  unfold resTerm
  rw [hmin]
  ring

/-- Two tiers differ, for one operator, in the resource and the network term only. -/
theorem score_le_score_iff {op a b lambdaClass : String} {sloMs : Option ℚ} {x y : ℚ}
    (hx : s.score op a sloMs lambdaClass = .ok x) (hy : s.score op b sloMs lambdaClass = .ok y) :
    x ≤ y ↔ s.weights.wRes * resTerm s.config.kappa (s.utilization a) + s.weights.wNet * s.computePhiNet a ≤
      s.weights.wRes * resTerm s.config.kappa (s.utilization b) + s.weights.wNet * s.computePhiNet b := by
  obtain ⟨resA, hresA, hx⟩ := bind_eq_ok.mp hx
  obtain ⟨resB, hresB, hy⟩ := bind_eq_ok.mp hy
  obtain ⟨slo, hslo, hx⟩ := bind_eq_ok.mp hx
  obtain ⟨slo', hslo', hy⟩ := bind_eq_ok.mp hy
  -- the latency and the SLO term do not look at the tier
  rw [hslo] at hslo'
  cases hslo'
  rw [computePhiRes_eq] at hresA hresB
  cases hresA
  cases hresB
  cases hx
  cases hy
  constructor
  · intro h
    linarith
  · intro h
    linarith

/-- **How long the round trip to a reachable node may be for it to be preferred to an unreachable one**, by its
    utilization. The two scores differ only in the terms for resources and for the network, so the comparison is one of
    two sums of weighted terms, solved for the round trip. Arithmetic is exact: at the bound itself rounded scores may
    compare the other way. -/
theorem live_le_dead_iff (hpreset : s.weights ∈ weightPresets.values) {op a b lambdaClass : String}
    {sloMs : Option ℚ} {x y : ℚ} (ha : a ≠ "cloud") (hb : b ≠ "cloud")
    (hget : s.telemetry.lastTelemetry.get a = some tel) (hreach : tel.reachable = true) (hdead : s.telemetry.Dead b)
    (hx : s.score op a sloMs lambdaClass = .ok x) (hy : s.score op b sloMs lambdaClass = .ok y) :
    x ≤ y ↔ tel.rttMs ≤ 1000 + s.weights.wRes / s.weights.wNet *
      (9 * s.config.kappa - resTerm s.config.kappa (max tel.cpuUtilization tel.memoryUtilization)) := by
  obtain ⟨-, -, hnet, -⟩ := weights_pos hpreset
  rw [score_le_score_iff hx hy, computePhiNet_of_live hget hreach ha, computePhiNet_of_dead hdead hb,
    utilization_of_live hget hreach, utilization_of_dead hdead, resTerm_standIn]
  have hscale : s.weights.wNet * (1000 + s.weights.wRes / s.weights.wNet *
      (9 * s.config.kappa - resTerm s.config.kappa (max tel.cpuUtilization tel.memoryUtilization))) =
      s.weights.wNet * 1000 + s.weights.wRes *
        (9 * s.config.kappa - resTerm s.config.kappa (max tel.cpuUtilization tel.memoryUtilization)) := by
    rw [mul_add, ← mul_assoc, mul_div_cancel₀ _ hnet.ne']
  constructor
  · intro h
    apply le_of_mul_le_mul_left _ hnet
    rw [hscale]
    linarith
  · intro h
    have h := mul_le_mul_of_nonneg_left h hnet.le
    rw [hscale] at h
    linarith

/-- A node within both stand-ins is preferred. -/
theorem live_le_dead (hpreset : s.weights ∈ weightPresets.values) (hkappa : 0 ≤ s.config.kappa)
    {op a b lambdaClass : String} {sloMs : Option ℚ} {x y : ℚ} (ha : a ≠ "cloud") (hb : b ≠ "cloud")
    (hget : s.telemetry.lastTelemetry.get a = some tel) (hreach : tel.reachable = true) (hdead : s.telemetry.Dead b)
    (hcpu : 0 ≤ tel.cpuUtilization) (hutilization : max tel.cpuUtilization tel.memoryUtilization ≤ 0.9)
    (hrtt : tel.rttMs ≤ 1000) (hx : s.score op a sloMs lambdaClass = .ok x)
    (hy : s.score op b sloMs lambdaClass = .ok y) : x ≤ y := by
  obtain ⟨-, hres, hnet, -⟩ := weights_pos hpreset
  have hterm := resTerm_mono hkappa (le_max_of_le_left hcpu) hutilization
  rw [resTerm_standIn] at hterm
  rw [live_le_dead_iff hpreset ha hb hget hreach hdead hx hy]
  have hsaved := mul_nonneg (div_pos hres hnet).le (sub_nonneg.mpr hterm)
  linarith

/-! ## Two nodes

A reachable node and one that has only been registered, on both sides of the condition. -/

/-- A reachable node, and one that has only been registered. -/
def twoNodes (utilization rttMs : ℚ) : ScoringAlgorithm ℚ where
  config    := AODEConfig.default
  telemetry := ⟨Dict.ofList [("hea-1", ⟨utilization, utilization, rttMs, Dict.empty, true⟩),
    ("hea-2", ⟨0, 0, 1000, Dict.empty, false⟩)]⟩
  weights   := ⟨"balanced", 0.30, 0.30, 0.20, 0.20⟩

theorem twoNodes_weights (utilization rttMs : ℚ) :
    (twoNodes utilization rttMs).weights ∈ (weightPresets (F := ℚ)).values :=
  List.mem_map_of_mem (Dict.get_eq_some_iff.mp
    (show weightPresets.get "balanced" = some (twoNodes 0 0).weights from rfl))

theorem twoNodes_dead (utilization rttMs : ℚ) : (twoNodes utilization rttMs).telemetry.Dead "hea-2" := by
  intro tel hget
  have hget : some ⟨0, 0, 1000, Dict.empty, false⟩ = some tel := hget
  cases hget
  rfl

/-- A half idle node may take more than the stand-in. -/
theorem live_le_dead_iff_idle :
    (twoNodes 0.5 1020).score "normalizer" "hea-1" (some 50) "standard" = .ok 204.9 ∧
    (twoNodes 0.5 1020).score "normalizer" "hea-2" (some 50) "standard" = .ok 205.7 ∧ (204.9 : ℚ) ≤ 205.7 := by
  have hlive : (twoNodes 0.5 1020).score "normalizer" "hea-1" (some 50) "standard" = .ok 204.9 := by decide +kernel
  have hdead : (twoNodes 0.5 1020).score "normalizer" "hea-2" (some 50) "standard" = .ok 205.7 := by decide +kernel
  exact ⟨hlive, hdead, (live_le_dead_iff (twoNodes_weights _ _) (by decide) (by decide) rfl rfl (twoNodes_dead _ _)
    hlive hdead).mpr (by decide +kernel)⟩

/-- The utilization is low, the round trip four seconds. -/
theorem dead_preferred :
    (twoNodes 0.2 4000).weights ∈ weightPresets.values ∧ (twoNodes 0.2 4000).telemetry.Dead "hea-2" ∧
    (twoNodes 0.2 4000).score "normalizer" "hea-1" (some 50) "standard" = .ok 800.45 ∧
    (twoNodes 0.2 4000).score "normalizer" "hea-2" (some 50) "standard" = .ok 205.7 ∧ (205.7 : ℚ) < 800.45 := by
  refine ⟨twoNodes_weights _ _, twoNodes_dead _ _, ?_, ?_, by norm_num⟩
  · decide +kernel
  · decide +kernel

end ScoringAlgorithm

end Aode
end HybridStream
