import HybridStream.Aode.Correctness.ScoreTerms

/-!
# `Aode.Correctness.LoadMonotone` — more load, higher scores

One reachable HEA reports a higher utilization, round trip or latency, and no score gets lower: every term is
monotone in what it reads. The one exception is `get_operator_latency(…) or 1.0`: a latency of zero counts as no
latency and is scored as one millisecond, so raising it to less than that lowers the scores of the operator.

The change is of one value of one HEA, and the result compares the whole matrix of scores before and after it. Where
the exception applies, the score of the operator does get lower on every tier, so nothing weaker than the condition
would do.
-/

namespace HybridStream
namespace Aode

open Lib Py

/-! ## One higher value

A change of the telemetry in which one HEA reports one value higher than before, the others as they were: utilization,
memory, round trip, or one percentile. -/

/-- What one HEA reports anew. -/
inductive LoadChange where
  | cpu (x : ℚ)
  | memory (x : ℚ)
  | rtt (x : ℚ)
  | p95 (op : String) (x : ℚ)

namespace LoadChange

/-- The telemetry with the new value. -/
def apply (tel : HEATelemetry ℚ) : LoadChange → HEATelemetry ℚ
  | .cpu x    => { tel with cpuUtilization := x }
  | .memory x => { tel with memoryUtilization := x }
  | .rtt x    => { tel with rttMs := x }
  | .p95 op x => { tel with operatorP95Ms := tel.operatorP95Ms.set op x }

/-- The new value is higher than the old one. -/
def Higher (tel : HEATelemetry ℚ) : LoadChange → Prop
  | .cpu x    => tel.cpuUtilization < x
  | .memory x => tel.memoryUtilization < x
  | .rtt x    => tel.rttMs < x
  | .p95 op x => ∃ y, tel.operatorP95Ms.get op = some y ∧ y < x

end LoadChange

/-- Every value a HEA reports is at least zero. -/
structure HEATelemetry.NonNegative (tel : HEATelemetry ℚ) : Prop where
  cpu    : 0 ≤ tel.cpuUtilization
  memory : 0 ≤ tel.memoryUtilization
  rtt    : 0 ≤ tel.rttMs
  p95    : ∀ op x, tel.operatorP95Ms.get op = some x → 0 ≤ x

/-- At least the load of `tel`, by every value. -/
structure HEATelemetry.AtLeast (tel tel' : HEATelemetry ℚ) : Prop where
  reachable : tel'.reachable = tel.reachable
  cpu       : tel.cpuUtilization ≤ tel'.cpuUtilization
  memory    : tel.memoryUtilization ≤ tel'.memoryUtilization
  rtt       : tel.rttMs ≤ tel'.rttMs
  p95       : ∀ op x, tel.operatorP95Ms.get op = some x → ∃ y, tel'.operatorP95Ms.get op = some y ∧ x ≤ y

namespace LoadChange

variable {tel : HEATelemetry ℚ} {change : LoadChange}

theorem Higher.atLeast (h : change.Higher tel) : tel.AtLeast (change.apply tel) := by
  cases change with
  | cpu x => exact ⟨rfl, le_of_lt h, le_rfl, le_rfl, fun op x hx => ⟨x, hx, le_rfl⟩⟩
  | memory x => exact ⟨rfl, le_rfl, le_of_lt h, le_rfl, fun op x hx => ⟨x, hx, le_rfl⟩⟩
  | rtt x => exact ⟨rfl, le_rfl, le_rfl, le_of_lt h, fun op x hx => ⟨x, hx, le_rfl⟩⟩
  | p95 op x =>
      obtain ⟨y, hy, hlt⟩ := h
      refine ⟨rfl, le_rfl, le_rfl, le_rfl, fun op' z hz => ?_⟩
      show ∃ w, (tel.operatorP95Ms.set op x).get op' = some w ∧ z ≤ w
      rw [Dict.get_set]
      by_cases heq : op' = op
      · rw [heq, hy] at hz
        cases hz
        exact ⟨x, if_pos heq, hlt.le⟩
      · exact ⟨z, by rw [if_neg heq]; exact hz, le_rfl⟩

theorem Higher.nonNegative (h : change.Higher tel) (htel : tel.NonNegative) : (change.apply tel).NonNegative := by
  cases change with
  | cpu x => exact ⟨htel.cpu.trans (le_of_lt h), htel.memory, htel.rtt, htel.p95⟩
  | memory x => exact ⟨htel.cpu, htel.memory.trans (le_of_lt h), htel.rtt, htel.p95⟩
  | rtt x => exact ⟨htel.cpu, htel.memory, htel.rtt.trans (le_of_lt h), htel.p95⟩
  | p95 op x =>
      obtain ⟨y, hy, hlt⟩ := h
      refine ⟨htel.cpu, htel.memory, htel.rtt, fun op' z hz => ?_⟩
      have hz : (tel.operatorP95Ms.set op x).get op' = some z := hz
      rw [Dict.get_set] at hz
      split at hz
      · cases hz
        exact (htel.p95 op y hy).trans hlt.le
      · exact htel.p95 op' z hz

end LoadChange

/-! ## What is read of the telemetry

The scoring reads the telemetry in three places. What each of them reads does not get lower; the latency of an
operator is the greatest reported, and only it depends on the percentiles. -/

namespace TelemetryCollector

variable {t : TelemetryCollector ℚ} {hea op : String} {tel tel' : HEATelemetry ℚ}

/-- The telemetry of one HEA is replaced. -/
def replace (t : TelemetryCollector ℚ) (hea : String) (tel : HEATelemetry ℚ) : TelemetryCollector ℚ :=
  { t with lastTelemetry := t.lastTelemetry.set hea tel }

def NonNegative (t : TelemetryCollector ℚ) : Prop := ∀ hea tel, t.lastTelemetry.get hea = some tel → tel.NonNegative

theorem get_replace (t : TelemetryCollector ℚ) (hea hea' : String) (tel : HEATelemetry ℚ) :
    (t.replace hea tel).lastTelemetry.get hea' = if hea' = hea then some tel else t.lastTelemetry.get hea' :=
  Dict.get_set _ _ _ _

theorem NonNegative.replace (h : t.NonNegative) (htel : tel.NonNegative) : (t.replace hea tel).NonNegative := by
  intro hea' tel' hget
  rw [get_replace] at hget
  split at hget
  · cases hget
    exact htel
  · exact h hea' tel' hget

/-- Whatever is looked up of a HEA is at least what it was. -/
theorem get_replace_atLeast (hget : t.lastTelemetry.get hea = some tel) (hle : tel.AtLeast tel') {hea' : String}
    {old : HEATelemetry ℚ} (hold : t.lastTelemetry.get hea' = some old) :
    ∃ new, (t.replace hea tel').lastTelemetry.get hea' = some new ∧ old.AtLeast new := by
  rw [get_replace]
  by_cases heq : hea' = hea
  · rw [heq, hget] at hold
    cases hold
    exact ⟨tel', if_pos heq, hle⟩
  · rw [if_neg heq]
    exact ⟨old, hold, rfl, le_rfl, le_rfl, le_rfl, fun op x hx => ⟨x, hx, le_rfl⟩⟩

theorem get_replace_none (hget : t.lastTelemetry.get hea = some tel) {hea' : String}
    (hnone : t.lastTelemetry.get hea' = none) : (t.replace hea tel').lastTelemetry.get hea' = none := by
  have hne : hea' ≠ hea := by
    rintro rfl
    rw [hget] at hnone
    cases hnone
  rw [get_replace, if_neg hne]
  exact hnone

theorem latency_mono (hget : t.lastTelemetry.get hea = some tel) (hle : tel.AtLeast tel') {x : ℚ}
    (hx : t.getOperatorLatency op = some x) :
    ∃ y, (t.replace hea tel').getOperatorLatency op = some y ∧ x ≤ y := by
  obtain ⟨⟨hea', old, hold, hreach, hp95⟩, -⟩ := getOperatorLatency_eq_some.mp hx
  obtain ⟨new, hnew, hatLeast⟩ := get_replace_atLeast hget hle hold
  obtain ⟨z, hz, hxz⟩ := hatLeast.p95 op x hp95
  have hmem : z ∈ (t.replace hea tel').latencies op := ⟨hea', new, hnew, by rw [hatLeast.reachable]; exact hreach, hz⟩
  rcases (t.replace hea tel').getOperatorLatency_cases op with ⟨hempty, -⟩ | ⟨y, hy, hsome⟩
  · rw [hempty] at hmem
    exact absurd hmem (Set.notMem_empty z)
  · exact ⟨y, hsome, hxz.trans (hy.2 hmem)⟩

/-- Where the HEA reports the same for the operator, the latency is the same. -/
theorem latency_replace_of_eq (hget : t.lastTelemetry.get hea = some tel) (hreach : tel'.reachable = tel.reachable)
    (hp95 : tel'.operatorP95Ms.get op = tel.operatorP95Ms.get op) :
    (t.replace hea tel').getOperatorLatency op = t.getOperatorLatency op := by
  have hset : (t.replace hea tel').latencies op = t.latencies op := by
    ext x
    constructor
    · rintro ⟨hea', new, hnew, hr, hx⟩
      rw [get_replace] at hnew
      split at hnew
      · cases hnew
        exact ⟨hea, tel, hget, hreach ▸ hr, hp95 ▸ hx⟩
      · exact ⟨hea', new, hnew, hr, hx⟩
    · rintro ⟨hea', old, hold, hr, hx⟩
      by_cases heq : hea' = hea
      · rw [heq, hget] at hold
        cases hold
        exact ⟨hea, tel', by rw [get_replace, if_pos rfl], hreach.trans hr, hp95.trans hx⟩
      · exact ⟨hea', old, by rw [get_replace, if_neg heq]; exact hold, hr, hx⟩
  rcases t.getOperatorLatency_cases op with ⟨hempty, hnone⟩ | ⟨x, hx, hsome⟩
  · rcases (t.replace hea tel').getOperatorLatency_cases op with ⟨-, hnone'⟩ | ⟨y, hy, -⟩
    · rw [hnone, hnone']
    · rw [hset, hempty] at hy
      exact absurd hy.1 (Set.notMem_empty y)
  · rw [hsome, getOperatorLatency_eq_some, hset]
    exact hx

/-- What the operator's latency becomes where it was zero: the one value that is not. -/
theorem latency_replace_of_zero (hreach : tel.reachable = true) (hzero : t.getOperatorLatency op = some 0) {x : ℚ}
    (hx : 0 < x) :
    (t.replace hea (LoadChange.apply tel (.p95 op x))).getOperatorLatency op = some x := by
  rw [getOperatorLatency_eq_some]
  constructor
  · exact ⟨hea, LoadChange.apply tel (.p95 op x), by rw [get_replace, if_pos rfl], hreach, Dict.get_set_self _ _ _⟩
  · rintro z ⟨hea', new, hnew, hr, hz⟩
    rw [get_replace] at hnew
    split at hnew
    · cases hnew
      have hz : (tel.operatorP95Ms.set op x).get op = some z := hz
      rw [Dict.get_set_self] at hz
      exact (Option.some.inj hz).ge
    · exact ((getOperatorLatency_eq_some.mp hzero).2 ⟨hea', new, hnew, hr, hz⟩).trans hx.le

end TelemetryCollector

/-! ## The terms of a score

Each term grows with what it is made of. The one exception is the latency, where zero counts as one millisecond, so a
rise from zero to less than that lowers the value the score is computed with. -/

namespace ScoringAlgorithm

variable {s : ScoringAlgorithm ℚ} {hea : String} {tel tel' : HEATelemetry ℚ} {change : LoadChange}

/-- The algorithm after one HEA has reported anew. -/
def observing (s : ScoringAlgorithm ℚ) (hea : String) (tel : HEATelemetry ℚ) : ScoringAlgorithm ℚ :=
  { s with telemetry := s.telemetry.replace hea tel }

/-- A tier has reported before and after, and then no less after, or neither. -/
theorem observing_cases (hget : s.telemetry.lastTelemetry.get hea = some tel) (hle : tel.AtLeast tel')
    (tier : String) :
    (s.telemetry.lastTelemetry.get tier = none ∧ (s.observing hea tel').telemetry.lastTelemetry.get tier = none) ∨
      ∃ old new, s.telemetry.lastTelemetry.get tier = some old ∧
        (s.observing hea tel').telemetry.lastTelemetry.get tier = some new ∧ old.AtLeast new := by
  cases hold : s.telemetry.lastTelemetry.get tier with
  | none => exact Or.inl ⟨rfl, TelemetryCollector.get_replace_none hget hold⟩
  | some old =>
      obtain ⟨new, hnew, hatLeast⟩ := TelemetryCollector.get_replace_atLeast hget hle hold
      exact Or.inr ⟨old, new, rfl, hnew, hatLeast⟩

theorem utilization_nonneg (h : s.telemetry.NonNegative) (tier : String) : 0 ≤ s.utilization tier := by
  unfold utilization TelemetryCollector.getTierUtilization
  cases hget : s.telemetry.lastTelemetry.get tier with
  | none => exact le_max_of_le_left (by norm_num)
  | some tel =>
      dsimp only
      split
      · exact le_max_of_le_left (h tier tel hget).cpu
      · exact le_max_of_le_left (by norm_num)

theorem utilization_mono (hget : s.telemetry.lastTelemetry.get hea = some tel) (hle : tel.AtLeast tel')
    (tier : String) : s.utilization tier ≤ (s.observing hea tel').utilization tier := by
  unfold utilization TelemetryCollector.getTierUtilization
  rcases observing_cases hget hle tier with ⟨hold, hnew⟩ | ⟨old, new, hold, hnew, hatLeast⟩
  · rw [hold, hnew]
  · rw [hold, hnew]
    dsimp only
    rw [hatLeast.reachable]
    split
    · exact max_le_max hatLeast.cpu hatLeast.memory
    · exact le_rfl

theorem computePhiNet_nonneg (h : s.telemetry.NonNegative) (tier : String) : 0 ≤ s.computePhiNet tier := by
  unfold computePhiNet
  split
  · norm_num
  · cases hget : s.telemetry.lastTelemetry.get tier with
    | none => norm_num
    | some tel =>
        dsimp only
        split
        · exact (h tier tel hget).rtt
        · norm_num

theorem computePhiNet_mono (hget : s.telemetry.lastTelemetry.get hea = some tel) (hle : tel.AtLeast tel')
    (tier : String) : s.computePhiNet tier ≤ (s.observing hea tel').computePhiNet tier := by
  unfold computePhiNet
  split
  · exact le_rfl
  · rcases observing_cases hget hle tier with ⟨hold, hnew⟩ | ⟨old, new, hold, hnew, hatLeast⟩
    · rw [hold, hnew]
    · rw [hold, hnew]
      dsimp only
      rw [hatLeast.reachable]
      split
      · exact hatLeast.rtt
      · exact le_rfl

/-- A latency that grows is scored higher, unless it grows from zero to less than the default. -/
theorem orDefault_mono {x y : ℚ} (hx : 0 ≤ x) (hle : x ≤ y) (h : x = 0 → y = 0 ∨ 1 ≤ y) :
    orDefault (some x) ≤ orDefault (some y) := by
  by_cases hzero : x = 0
  · subst hzero
    rw [orDefault_zero]
    rcases h rfl with hy | hy
    · rw [hy, orDefault_zero]
    · rw [orDefault_of_ne (by linarith)]
      exact hy
  · have hpos : 0 < x := lt_of_le_of_ne hx (Ne.symm hzero)
    rw [orDefault_of_ne hzero, orDefault_of_ne (hpos.trans_le hle).ne']
    exact hle

/-- The change raises a latency to less than the default of one millisecond, where no reachable HEA reports more
    than zero. -/
def BelowDefault (s : ScoringAlgorithm ℚ) (change : LoadChange) (op : String) : Prop :=
  IsGreatest (s.telemetry.latencies op) 0 ∧ ∃ x < 1, change = .p95 op x

theorem observedLatencyMs_mono (hnonneg : s.telemetry.NonNegative)
    (hget : s.telemetry.lastTelemetry.get hea = some tel) (hreach : tel.reachable = true)
    (hhigher : change.Higher tel) {op : String} (hdefault : ¬ s.BelowDefault change op) :
    s.observedLatencyMs op ≤ (s.observing hea (change.apply tel)).observedLatencyMs op := by
  rw [observedLatencyMs_eq, observedLatencyMs_eq]
  by_cases hp95 : (change.apply tel).operatorP95Ms.get op = tel.operatorP95Ms.get op
  · rw [show (s.observing hea (change.apply tel)).telemetry.getOperatorLatency op = _ from
      TelemetryCollector.latency_replace_of_eq hget hhigher.atLeast.reachable hp95]
  · -- the change is to what the HEA reports for this operator
    obtain ⟨x, rfl⟩ : ∃ x, change = .p95 op x := by
      cases change with
      | cpu | memory | rtt => exact absurd rfl hp95
      | p95 op' x =>
          refine ⟨x, ?_⟩
          by_contra hne
          have hop : op ≠ op' := fun heq => hne (by rw [heq])
          exact hp95 (Dict.get_set_ne _ hop _)
    obtain ⟨y, hy, hyx⟩ := hhigher
    have hmem : y ∈ s.telemetry.latencies op := ⟨hea, tel, hget, hreach, hy⟩
    rcases s.telemetry.getOperatorLatency_cases op with ⟨hempty, -⟩ | ⟨l, hl, hsome⟩
    · rw [hempty] at hmem
      exact absurd hmem (Set.notMem_empty y)
    · have hatLeast : tel.AtLeast (LoadChange.apply tel (.p95 op x)) := LoadChange.Higher.atLeast ⟨y, hy, hyx⟩
      obtain ⟨l', hsome', hle⟩ := TelemetryCollector.latency_mono hget hatLeast hsome
      have hypos : 0 ≤ y := (hnonneg hea tel hget).p95 op y hy
      rw [hsome, show (s.observing hea (LoadChange.apply tel (.p95 op x))).telemetry.getOperatorLatency op = _ from
        hsome']
      refine orDefault_mono (hypos.trans (hl.2 hmem)) hle fun hzero => Or.inr ?_
      rw [hzero] at hsome
      rw [TelemetryCollector.latency_replace_of_zero hreach hsome (hypos.trans_lt hyx)] at hsome'
      rw [← Option.some.inj hsome']
      by_contra hlt
      exact hdefault ⟨TelemetryCollector.getOperatorLatency_eq_some.mp hsome, x, not_le.mp hlt, rfl⟩

/-! ## Monotonicity

The sum of the terms, over all operators and tiers; where the exception applies, some score does get lower, so the
condition is exact. -/

/-- The score of an operator does not get lower, unless its latency is raised below the default. -/
theorem scoreValue_mono (hpreset : s.weights ∈ weightPresets.values) (hkappa : 0 ≤ s.config.kappa)
    (hpenalty : 0 ≤ s.config.sloPenaltyFactor) (hnonneg : s.telemetry.NonNegative)
    (hget : s.telemetry.lastTelemetry.get hea = some tel) (hreach : tel.reachable = true)
    (hhigher : change.Higher tel) {op : String} (hdefault : ¬ s.BelowDefault change op) (tier lambdaClass : String)
    {sloMs : Option ℚ} (hslo : 0 < sloOf sloMs) :
    s.scoreValue op tier sloMs lambdaClass ≤
      (s.observing hea (change.apply tel)).scoreValue op tier sloMs lambdaClass := by
  obtain ⟨hlat, hres, hnet, hwslo⟩ := weights_pos hpreset
  have hobserved := observedLatencyMs_mono hnonneg hget hreach hhigher hdefault
  have hphiRes := resTerm_mono hkappa (utilization_nonneg hnonneg tier)
    (utilization_mono hget hhigher.atLeast tier)
  have hphiNet := computePhiNet_mono hget hhigher.atLeast tier
  have hphiSlo := sloTerm_mono hpenalty hslo hobserved
  exact add_le_add (add_le_add (add_le_add
    (mul_le_mul_of_nonneg_left (mul_le_mul_of_nonneg_left hobserved (lambdaFactor_pos _).le) hlat.le)
    (mul_le_mul_of_nonneg_left hphiRes hres.le)) (mul_le_mul_of_nonneg_left hphiNet hnet.le))
    (mul_le_mul_of_nonneg_left hphiSlo hwslo.le)

/-- What a HEA reports of its operators does not enter the terms of its tier. -/
theorem tierTerms_p95 (hget : s.telemetry.lastTelemetry.get hea = some tel) (op : String) (x : ℚ) (tier : String) :
    (s.observing hea (LoadChange.apply tel (.p95 op x))).utilization tier = s.utilization tier ∧
      (s.observing hea (LoadChange.apply tel (.p95 op x))).computePhiNet tier = s.computePhiNet tier := by
  unfold utilization TelemetryCollector.getTierUtilization computePhiNet
  have hlookup := s.telemetry.get_replace hea tier (LoadChange.apply tel (.p95 op x))
  by_cases heq : tier = hea
  · rw [if_pos heq] at hlookup
    rw [show (s.observing hea (LoadChange.apply tel (.p95 op x))).telemetry.lastTelemetry.get tier = _ from hlookup,
      heq, hget]
    exact ⟨rfl, rfl⟩
  · rw [if_neg heq] at hlookup
    rw [show (s.observing hea (LoadChange.apply tel (.p95 op x))).telemetry.lastTelemetry.get tier = _ from hlookup]
    exact ⟨rfl, rfl⟩

/-- A latency raised from zero to less than the default lowers the score on every tier. -/
theorem scoreValue_lt_of_belowDefault (hpreset : s.weights ∈ weightPresets.values)
    (hpenalty : 0 ≤ s.config.sloPenaltyFactor) (hnonneg : s.telemetry.NonNegative)
    (hget : s.telemetry.lastTelemetry.get hea = some tel) (hreach : tel.reachable = true)
    (hhigher : change.Higher tel) {op : String} (hdefault : s.BelowDefault change op) (tier lambdaClass : String)
    {sloMs : Option ℚ} (hslo : 0 < sloOf sloMs) :
    (s.observing hea (change.apply tel)).scoreValue op tier sloMs lambdaClass <
      s.scoreValue op tier sloMs lambdaClass := by
  obtain ⟨hlat, -, -, hwslo⟩ := weights_pos hpreset
  obtain ⟨hgreatest, x, hx, rfl⟩ := hdefault
  obtain ⟨y, hy, hyx⟩ := hhigher
  have hzero : s.telemetry.getOperatorLatency op = some 0 :=
    TelemetryCollector.getOperatorLatency_eq_some.mpr hgreatest
  have hpos : 0 < x := ((hnonneg hea tel hget).p95 op y hy).trans_lt hyx
  have hold : s.observedLatencyMs op = 1 := by rw [observedLatencyMs_eq, hzero, orDefault_zero]
  have hnew : (s.observing hea (LoadChange.apply tel (.p95 op x))).observedLatencyMs op = x := by
    rw [observedLatencyMs_eq, show (s.observing hea (LoadChange.apply tel (.p95 op x))).telemetry.getOperatorLatency
      op = _ from TelemetryCollector.latency_replace_of_zero hreach hzero hpos, orDefault_of_ne hpos.ne']
  obtain ⟨hutilization, hphiNet⟩ := tierTerms_p95 hget op x tier
  have hphiLat : s.weights.wLat * (lambdaFactor lambdaClass * x) < s.weights.wLat * (lambdaFactor lambdaClass * 1) :=
    mul_lt_mul_of_pos_left (mul_lt_mul_of_pos_left hx (lambdaFactor_pos _)) hlat
  have hphiSlo := mul_le_mul_of_nonneg_left (sloTerm_mono hpenalty hslo hx.le) hwslo.le
  unfold scoreValue
  rw [hutilization, hphiNet, hold, hnew]
  exact add_lt_add_of_lt_of_le (add_lt_add_left (add_lt_add_left hphiLat _) _) hphiSlo

theorem scoreValue_nonneg (hpreset : s.weights ∈ weightPresets.values) (hkappa : 0 ≤ s.config.kappa)
    (hpenalty : 0 ≤ s.config.sloPenaltyFactor) (hnonneg : s.telemetry.NonNegative) (op tier lambdaClass : String)
    {sloMs : Option ℚ} (hslo : 0 < sloOf sloMs) : 0 ≤ s.scoreValue op tier sloMs lambdaClass := by
  obtain ⟨hlat, hres, hnet, hwslo⟩ := weights_pos hpreset
  have hobserved : 0 ≤ s.observedLatencyMs op := by
    rw [observedLatencyMs_eq]
    rcases s.telemetry.getOperatorLatency_cases op with ⟨-, hnone⟩ | ⟨x, ⟨⟨hea, tel, hget, -, hx⟩, -⟩, hsome⟩
    · rw [hnone]
      exact zero_le_one
    · rw [hsome]
      by_cases hzero : x = 0
      · rw [hzero, orDefault_zero]
        exact zero_le_one
      · rw [orDefault_of_ne hzero]
        exact (hnonneg hea tel hget).p95 op x hx
  have hphiLat := mul_nonneg hlat.le (mul_nonneg (lambdaFactor_pos lambdaClass).le hobserved)
  have hphiRes := mul_nonneg hres.le (resTerm_nonneg hkappa (utilization_nonneg hnonneg tier))
  have hphiNet := mul_nonneg hnet.le (computePhiNet_nonneg hnonneg tier)
  have hphiSlo : 0 ≤ s.weights.wSlo * sloTerm s.config.sloPenaltyFactor (sloOf sloMs) (s.observedLatencyMs op) :=
    mul_nonneg hwslo.le (sloTerm_nonneg hpenalty hslo)
  exact add_nonneg (add_nonneg (add_nonneg hphiLat hphiRes) hphiNet) hphiSlo

/-- **Scores are monotone in the load, and not negative, exactly if no listed operator's latency is raised from zero to
    less than the default.** Entry by entry a score is a sum of terms that grow with what they read, all but the one in
    which a latency of zero is taken for the default. -/
theorem scores_monotone_iff (hpreset : s.weights ∈ weightPresets.values) (hkappa : 0 ≤ s.config.kappa)
    (hpenalty : 0 ≤ s.config.sloPenaltyFactor) {ops tiers : List String} {sloMap : Dict String (Option ℚ)}
    (lambdaMap : Dict String String) (hslo : ∀ op ∈ ops, ∀ ms, sloMap.getD op none = some ms → 0 < ms)
    (hnonneg : s.telemetry.NonNegative) (hget : s.telemetry.lastTelemetry.get hea = some tel)
    (hreach : tel.reachable = true) (hhigher : change.Higher tel) :
    (∃ scores scores', s.computeScores ops tiers sloMap lambdaMap = .ok scores ∧
      (s.observing hea (change.apply tel)).computeScores ops tiers sloMap lambdaMap = .ok scores' ∧
      ∀ i j, 0 ≤ scores.entry i j ∧ 0 ≤ scores'.entry i j ∧ scores.entry i j ≤ scores'.entry i j) ↔
    (tiers = [] ∨ ∀ op ∈ ops, ¬ s.BelowDefault change op) := by
  have hslo' : ∀ op ∈ ops, 0 < sloOf (sloMap.getD op none) := by
    intro op hop
    cases hms : sloMap.getD op none with
    | none => show (0 : ℚ) < 3600.0 * 1000.0; norm_num
    | some ms => exact hslo op hop ms hms
  have hzero : (0.0 : ℚ) = 0 := by norm_num
  have hnonneg' : (s.observing hea (change.apply tel)).telemetry.NonNegative :=
    hnonneg.replace (hhigher.nonNegative (hnonneg hea tel hget))
  rw [s.computeScores_eq lambdaMap fun op hop => (hslo' op hop).ne',
    (s.observing hea (change.apply tel)).computeScores_eq lambdaMap fun op hop => (hslo' op hop).ne']
  -- where an operator is below the default, its score gets lower on any tier
  constructor
  · rintro ⟨scores, scores', hscores, hscores', hall⟩
    cases hscores
    cases hscores'
    have hle := (entry_matrix_rel (R := fun x y => x ≤ y) le_rfl).mp fun i j => (hall i j).2.2
    by_contra hnot
    obtain ⟨htiers, hbelow⟩ := not_or.mp hnot
    obtain ⟨op, hop, hbelow⟩ := not_forall₂.mp hbelow
    obtain ⟨t, ht⟩ := List.exists_mem_of_ne_nil tiers htiers
    exact absurd (hle op hop t ht) (not_le.mpr (scoreValue_lt_of_belowDefault hpreset hpenalty hnonneg hget hreach
      hhigher (not_not.mp hbelow) t _ (hslo' op hop)))
  · intro hdefault
    -- the matrix is compared entry by entry, and an entry out of range is zero in both
    refine ⟨_, _, rfl, rfl, ?_⟩
    refine (entry_matrix_rel (R := fun x y => 0 ≤ x ∧ 0 ≤ y ∧ x ≤ y)
      (by rw [hzero]; exact ⟨le_rfl, le_rfl, le_rfl⟩)).mpr fun op hop t ht => ⟨?_, ?_, ?_⟩
    · exact scoreValue_nonneg hpreset hkappa hpenalty hnonneg op t _ (hslo' op hop)
    · exact scoreValue_nonneg (s := s.observing hea (change.apply tel)) hpreset hkappa hpenalty hnonneg' op t _
        (hslo' op hop)
    · have hnot := hdefault.resolve_left (List.ne_nil_of_mem ht) op hop
      exact scoreValue_mono hpreset hkappa hpenalty hnonneg hget hreach hhigher hnot t _ (hslo' op hop)

/-! ## One node

One node with one operator, before and after a rise: of the utilization, for which the result speaks, and of the
percentile from zero. -/

/-- A node of an edge cluster that runs one operator. -/
def nodeTelemetry (p95 : ℚ) : HEATelemetry ℚ := ⟨0.5, 0.4, 10, Dict.ofList [("normalizer", p95)], true⟩

def oneNode (p95 : ℚ) : ScoringAlgorithm ℚ where
  config    := AODEConfig.default
  telemetry := ⟨Dict.ofList [("hea-1", nodeTelemetry p95)]⟩
  weights   := ⟨"balanced", 0.30, 0.30, 0.20, 0.20⟩

theorem oneNode_nonNegative {p95 : ℚ} (h : 0 ≤ p95) : (oneNode p95).telemetry.NonNegative := by
  intro hea tel hget
  have hmem : (hea, tel) ∈ [("hea-1", nodeTelemetry p95)] := Dict.get_eq_some_iff.mp hget
  cases List.mem_singleton.mp hmem
  refine ⟨?_, ?_, ?_, fun op x hx => ?_⟩
  · show (0 : ℚ) ≤ 0.5
    norm_num
  · show (0 : ℚ) ≤ 0.4
    norm_num
  · show (0 : ℚ) ≤ 10
    norm_num
  have hmem : (op, x) ∈ [("normalizer", p95)] := Dict.get_eq_some_iff.mp hx
  cases List.mem_singleton.mp hmem
  exact h

theorem oneNode_weights (p95 : ℚ) : (oneNode p95).weights ∈ (weightPresets (F := ℚ)).values :=
  List.mem_map_of_mem (Dict.get_eq_some_iff.mp
    (show weightPresets.get "balanced" = some (oneNode p95).weights from rfl))

theorem scores_monotone_iff_cpu : ∃ scores scores',
    (oneNode 5).computeScores ["normalizer"] ["hea-1", "cloud"] Dict.empty Dict.empty = .ok scores ∧
    ((oneNode 5).observing "hea-1" (LoadChange.apply (nodeTelemetry 5) (.cpu 2))).computeScores ["normalizer"]
      ["hea-1", "cloud"] Dict.empty Dict.empty = .ok scores' ∧
    ∀ i j, 0 ≤ scores.entry i j ∧ 0 ≤ scores'.entry i j ∧ scores.entry i j ≤ scores'.entry i j := by
  have hhigher : LoadChange.Higher (nodeTelemetry 5) (.cpu 2) := by
    show (0.5 : ℚ) < 2
    norm_num
  exact (scores_monotone_iff (s := oneNode 5) (oneNode_weights 5) (by decide +kernel) (by decide +kernel) Dict.empty
    (by rintro op - ms ⟨⟩) (oneNode_nonNegative (by norm_num)) rfl rfl hhigher).mpr
    (Or.inr fun op _ ⟨_, _, _, heq⟩ => LoadChange.noConfusion heq)

/-- The 95th percentile of the one operator rises from 0 to half a millisecond, and its score falls from 2.9 to
    2.75. -/
theorem score_lowered : (oneNode 0).weights ∈ weightPresets.values ∧ (oneNode 0).telemetry.NonNegative ∧
    (oneNode 0).telemetry.lastTelemetry.get "hea-1" = some (nodeTelemetry 0) ∧
    LoadChange.Higher (nodeTelemetry 0) (.p95 "normalizer" 0.5) ∧
    (oneNode 0).computeScores ["normalizer"] ["hea-1"] Dict.empty Dict.empty = .ok [[2.9]] ∧
    ((oneNode 0).observing "hea-1" (LoadChange.apply (nodeTelemetry 0) (.p95 "normalizer" 0.5))).computeScores
      ["normalizer"] ["hea-1"] Dict.empty Dict.empty = .ok [[2.75]] ∧ (2.75 : ℚ) < 2.9 := by
  refine ⟨oneNode_weights 0, oneNode_nonNegative le_rfl, rfl, ⟨0, rfl, by norm_num⟩, ?_, ?_, by norm_num⟩
  · decide +kernel
  · decide +kernel

end ScoringAlgorithm

end Aode
end HybridStream
