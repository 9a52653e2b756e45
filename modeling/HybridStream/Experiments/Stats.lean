import HybridStream.Lib.Proc
import HybridStream.Py.Value

/-!
# `Experiments.Stats` — the published comparisons

`wilcoxon_comparison` and `run_all_pairwise_comparisons` of `analysis/stats.py`. What SciPy and NumPy compute is a
parameter. A results frame is the list of its rows; grouping a column by repetition gives a value for each repetition
number that occurs, in ascending order, and the comparison is handed the values without the numbers.

Nothing is assumed about the parameter here; the result about effect sizes assumes of the test statistic what its
documentation says. The comparisons that are made are listed by `comparisons` before any of them is computed, so that
what is paired can be said without them.
-/

namespace HybridStream
namespace Experiments

open Lib Py

variable {F : Type}

/-- What SciPy and NumPy compute, by their documentation. -/
structure Numerics (F : Type) where
  /-- `stats.wilcoxon(a, b, alternative="two-sided")`, the statistic and the p-value -/
  wilcoxon    : List F → List F → F × F
  /-- `np.median(xs)` -/
  median      : List F → F
  /-- The bounds of the bootstrap interval of the median, of so many samples of `diffs`. -/
  bootstrapCi : List F → Int → F × F
  /-- `groupby(...).mean()` of one group -/
  groupMean   : List F → F

/-- `ComparisonResult`: what is reported of one comparison of two systems on one metric. -/
structure ComparisonResult (F : Type) where
  metric          : String
  groupALabel     : String
  groupBLabel     : String
  nA              : Int
  nB              : Int
  medianA         : F
  medianB         : F
  medianDiff      : F
  wilcoxonStat    : F
  wilcoxonP       : F
  bonferroniP     : F
  significant     : Bool
  effectSizeR     : F
  effectMagnitude : String
  bootstrapCiLo   : F
  bootstrapCiHi   : F

section Comparison

variable [PyRuntime F]

/-- `group_a - group_b`, element by element of two arrays of one length. -/
def differences (groupA groupB : List F) : List F := List.zipWith (· - ·) groupA groupB

/-- The effect size of a statistic over `n` pairs. -/
def effectSize (stat : F) (n : Int) : Except PyError F := do
  let nPairs : F ← intDiv (n * (n + 1)) 2
  let r := if PyRuntime.lt 0.0 nPairs then 1.0 - 2.0 * stat / nPairs else 0.0
  return pyMax (-1.0) (pyMin 1.0 r)

/-- `wilcoxon_comparison`: the test on paired values, with the interval of the median difference and the effect size.
    Where no pair differs, there is nothing to test. -/
def wilcoxonComparison (np : Numerics F) (groupA groupB : List F) (metric labelA labelB : String)
    (nComparisons nBootstrap : Int) (alpha : F) : Except PyError (ComparisonResult F) := do
  if groupA.length ≠ groupB.length then
    throw ⟨.other, "Groups must be matched"⟩
  let n : Int := groupA.length
  let diffs := differences groupA groupB
  -- where all differences are zero SciPy would raise, so the code answers without it
  if diffs.all (fun d => PyRuntime.eq d 0.0) then
    return { metric          := metric
             groupALabel     := labelA
             groupBLabel     := labelB
             nA              := n
             nB              := n
             medianA         := np.median groupA
             medianB         := np.median groupB
             medianDiff      := 0.0
             wilcoxonStat    := 0.0
             wilcoxonP       := 1.0
             bonferroniP     := 1.0
             significant     := false
             effectSizeR     := 0.0
             effectMagnitude := "small"
             bootstrapCiLo   := 0.0
             bootstrapCiHi   := 0.0 }
  let (stat, pValue) := np.wilcoxon groupA groupB
  let pBonferroni := pyMin (pValue * (← floatOfInt nComparisons)) 1.0
  let r ← effectSize stat n
  let absR := pyAbs r
  let magnitude :=
    if PyRuntime.lt absR 0.3 then "small" else if PyRuntime.lt absR 0.5 then "medium" else "large"
  let (ciLo, ciHi) := np.bootstrapCi diffs nBootstrap
  return { metric          := metric
           groupALabel     := labelA
           groupBLabel     := labelB
           nA              := n
           nB              := n
           medianA         := np.median groupA
           medianB         := np.median groupB
           medianDiff      := np.median groupA - np.median groupB
           wilcoxonStat    := stat
           wilcoxonP       := pValue
           bonferroniP     := pBonferroni
           significant     := PyRuntime.lt pBonferroni alpha
           effectSizeR     := r
           effectMagnitude := magnitude
           bootstrapCiLo   := ciLo
           bootstrapCiHi   := ciHi }

end Comparison

/-! ## Results frames

The frame as a list of rows, the comparisons that are made of it, and the groups by repetition that they are made
between. -/

/-- A row of the results, the columns the comparisons read. -/
structure Row (F : Type) where
  workload       : String
  network        : String
  system         : String
  repetition     : Int
  m1P95LatencyMs : F
  m2Compliance   : F
  m3Throughput   : F

/-- The metrics that are compared, by their columns. -/
inductive Metric where
  | m1P95LatencyMs
  | m2SloCompliance
  | m3ThroughputEps
  deriving DecidableEq

namespace Metric

def name : Metric → String
  | m1P95LatencyMs  => "m1_p95_latency_ms"
  | m2SloCompliance => "m2_slo_compliance"
  | m3ThroughputEps => "m3_throughput_eps"

/-- `row[metric]`, by the name of the column. -/
def of (row : Row F) : Metric → F
  | m1P95LatencyMs  => row.m1P95LatencyMs
  | m2SloCompliance => row.m2Compliance
  | m3ThroughputEps => row.m3Throughput

end Metric

def workloads : List String := ["W1", "W2", "W3"]

def networks : List String := ["N1", "N2", "N3"]

def metrics : List Metric := [.m1P95LatencyMs, .m2SloCompliance, .m3ThroughputEps]

/-- `df[mask]`: the rows of one workload, one network and one system. -/
def select (df : List (Row F)) (workload network system : String) : List (Row F) :=
  df.filter (fun row => row.workload = workload ∧ row.network = network ∧ row.system = system)

/-- The keys of `groupby("repetition")`, in ascending order and each once. -/
def repetitionsOf (rows : List (Row F)) : List Int := (rows.map Row.repetition).dedup.insertionSort (· ≤ ·)

/-- `groupby("repetition")[metric].mean()`, each value with the repetition it is of. -/
def meansByRepetition (np : Numerics F) (rows : List (Row F)) (metric : Metric) : List (Int × F) :=
  (repetitionsOf rows).map fun rep =>
    (rep, np.groupMean ((rows.filter (fun row => row.repetition = rep)).map metric.of))

/-- A comparison that is to be made: the values of both groups, each with its repetition. -/
structure Comparison (F : Type) where
  workload : String
  network  : String
  baseline : String
  metric   : Metric
  groupA   : List (Int × F)
  groupB   : List (Int × F)

/-- The comparisons of one metric in one workload and network. -/
def comparisonsOf (np : Numerics F) (df : List (Row F)) (workload network : String) (metric : Metric) :
    List (Comparison F) :=
  let getReps := fun system => meansByRepetition np (select df workload network system) metric
  let hs := getReps "HybridStream"
  let b1 := getReps "B1"
  let b2 := getReps "B2"
  if hs.length = b1.length ∧ b1.length = b2.length ∧ b2.length = 10 then
    [⟨workload, network, "B1", metric, hs, b1⟩, ⟨workload, network, "B2", metric, hs, b2⟩]
  else []

/-- The comparisons that are made, in order. -/
def comparisons (np : Numerics F) (df : List (Row F)) : List (Comparison F) :=
  workloads.flatMap fun workload => networks.flatMap fun network => metrics.flatMap fun metric =>
    comparisonsOf np df workload network metric

/-- `f"{prefix}/{system}"`: the label of a system in the report. -/
def Comparison.labelOf (c : Comparison F) (system : String) : String := s!"{c.workload}/{c.network}/{system}"

/-- `run_all_pairwise_comparisons`: the test for each of the comparisons, with the correction for 54 of them; the first
    that raises ends it. -/
def runAllPairwiseComparisons [PyRuntime F] (np : Numerics F) (df : List (Row F)) :
    Except PyError (List (ComparisonResult F)) :=
  (comparisons np df).mapM fun c =>
    wilcoxonComparison np (c.groupA.map Prod.snd) (c.groupB.map Prod.snd) c.metric.name (c.labelOf "HybridStream")
      (c.labelOf c.baseline) 54 9999 0.05

end Experiments
end HybridStream
