import HybridStream.Py.MessagePack
import HybridStream.Experiments.Storage

/-!
# `Experiments.Runner` — a campaign of experiment runs

`harness/config.py`, `harness/network.py`, `harness/baselines.py` and `harness/runner.py`: the configurations are sorted
by their networks, the network is shaped where it changes, and each configuration is run ten times. What shell commands
return and when the collector of a run takes its snapshots comes from outside (`Site`). A run hands its collector to
nobody. Sleeps, log lines and the generator, a task whose failure nobody looks at, are left out.
-/

namespace HybridStream
namespace Experiments

open Lib Py

variable {F : Type} {W : Type}

/-! ## `config.py`

Workloads, systems and networks by their names, with the profiles of the networks and the matrix of all
combinations. -/

inductive Workload where
  | w1 | w2 | w3
  deriving DecidableEq

inductive System where
  | hybridStream | b1 | b2
  deriving DecidableEq

inductive Network where
  | n1 | n2 | n3
  deriving DecidableEq

def Workload.name : Workload → String
  | w1 => "W1"
  | w2 => "W2"
  | w3 => "W3"

def System.name : System → String
  | hybridStream => "HybridStream"
  | b1           => "B1"
  | b2           => "B2"

def Network.name : Network → String
  | n1 => "N1"
  | n2 => "N2"
  | n3 => "N3"

/-- `NetworkProfile`: the round trip, the bandwidth and the jitter that a network is shaped to. -/
structure NetworkProfile where
  name          : Network
  rttMs         : Int
  bandwidthMbps : Int
  jitterMs      : Int

/-- `tc_netem_args`: half of the round trip is the delay in one direction. -/
def NetworkProfile.tcNetemArgs (profile : NetworkProfile) (interface : String) : String :=
  let delayMs := profile.rttMs / 2
  s!"tc qdisc add dev {interface} root netem " ++ s!"delay {delayMs}ms {profile.jitterMs}ms " ++
    s!"rate {profile.bandwidthMbps}mbit"

/-- `tc_netem_clear`: the same for all profiles. -/
def NetworkProfile.tcNetemClear (_profile : NetworkProfile) (interface : String) : String :=
  s!"tc qdisc del dev {interface} root"

/-- `NETWORK_PROFILES`: the three networks. -/
def Network.profile : Network → NetworkProfile
  | n1 => { name := n1, rttMs := 10,  bandwidthMbps := 1000, jitterMs := 1 }
  | n2 => { name := n2, rttMs := 50,  bandwidthMbps := 100,  jitterMs := 5 }
  | n3 => { name := n3, rttMs := 150, bandwidthMbps := 50,   jitterMs := 15 }

/-- `WORKLOAD_CONFIGS[workload].warmup_s`: none of them gives its own, so it is the default. -/
def Workload.warmupS [PyRuntime F] : Workload → F
  | w1 => 600.0
  | w2 => 600.0
  | w3 => 600.0

/-- `ExperimentConfig`: one cell of the matrix. -/
structure ExperimentConfig where
  workload : Workload
  system   : System
  network  : Network
  deriving DecidableEq

/-- `config_id`: the three names, with hyphens between them. -/
def ExperimentConfig.configId (config : ExperimentConfig) : String :=
  s!"{config.workload.name}-{config.system.name}-{config.network.name}"

/-- `build_experiment_matrix`: all workloads on all systems over all networks. -/
def buildExperimentMatrix : List ExperimentConfig :=
  [Workload.w1, .w2, .w3].flatMap fun w => [System.hybridStream, .b1, .b2].flatMap fun s =>
    [Network.n1, .n2, .n3].map fun n => ⟨w, s, n⟩

/-! ## `network.py`

Commands are run by a shell that may answer anything; what has been run is written down with its exit code. -/

/-- How a shell command ends: its exit code and what it has written. -/
structure Completed where
  returncode : Int
  stdout     : List UInt8
  stderr     : List UInt8

/-- What a campaign runs on, and what it does there is known of only by what comes back. -/
structure Site (W F : Type) where
  /-- A shell command, until it has ended. -/
  shell   : String → W → Except PyError Completed × W
  /-- A run on the deployed system: when its collector is created and started, and when it takes its snapshots. -/
  measure : ExperimentConfig → Int → W → Except PyError (F × F × List F) × W
  /-- How the interpreter iterates the union of two sets. -/
  union   : SetUnion

/-- What has been done, of what can be seen from outside. -/
inductive Act (F : Type) where
  | command (cmd : String) (exitCode : Int)
  | run (config : ExperimentConfig) (repetition : Int)
  | saved (config : ExperimentConfig) (repetition : Int) (rows : List (StoredRow F))

/-- The world outside, the results directory and what has been done. -/
structure Lab (W F : Type) where
  host  : W
  files : ResultFiles F
  acts  : List (Act F)

namespace Lab

/-- Nothing has been done yet: the host and the files are as they were found. -/
def new (host : W) (files : ResultFiles F) : Lab W F := { host := host, files := files, acts := [] }

def did (lab : Lab W F) (act : Act F) : Lab W F := { lab with acts := lab.acts ++ [act] }

end Lab

/-- Something that happens outside: the host is another one afterwards, also where it raises. -/
def outside {α : Type} (act : W → Except PyError α × W) : Proc PyError (Lab W F) α := do
  let lab ← get
  modify fun lab => { lab with host := (act lab.host).2 }
  Proc.lift (act lab.host).1

/-- `bs.decode()`, which raises on bytes that are no UTF-8. -/
def decodeText (bs : List UInt8) : Except PyError String :=
  match MessagePack.ofUtf8 bs with
  | some text => .ok text
  | none      => .error ⟨.valueError, "'utf-8' codec can't decode"⟩

/-- `_run_cmd`: an exit code other than zero raises, unless it is to be ignored. -/
def runCmd (site : Site W F) (cmd : String) (ignoreErrors : Bool) : Proc PyError (Lab W F) String := do
  let completed ← outside (site.shell cmd)
  modify fun lab => lab.did (.command cmd completed.returncode)
  if completed.returncode ≠ 0 ∧ ignoreErrors = false then
    Proc.lift (do throw ⟨.runtimeError, s!"Command failed [{cmd}]: " ++ (← decodeText completed.stderr)⟩)
  else
    Proc.lift (decodeText completed.stdout)

/-- `EDGE_CLOUD_INTERFACE`: the one interface that is shaped. -/
def edgeCloudInterface : String := "eth0"

/-- `apply_network_profile`: what was set is cleared, which may fail, and the profile is set, which may not. -/
def applyNetworkProfile (site : Site W F) (profile : NetworkProfile) : Proc PyError (Lab W F) Unit := do
  let _ ← runCmd site (profile.tcNetemClear edgeCloudInterface) true
  let _ ← runCmd site (profile.tcNetemArgs edgeCloudInterface) false
  return ()

/-! ## `baselines.py`

The one thing that setting up a baseline does besides logging: the static placement is looked up, and is missing for
no combination of the matrix. -/

/-- `B2_PLACEMENTS`: the static placement of each workload and network, as a list of operator types and tiers. -/
def b2Placements (workload : Workload) (network : Network) : Option (List (String × String)) :=
  match workload, network with
  | .w1, .n1 => some [("NormalizerOperator", "edge-node-1"), ("FeatureAggWindow", "edge-node-2"),
                      ("MultiStreamJoin", "edge-node-3"), ("BinaryClassifier", "edge-node-4")]
  | .w1, .n2 => some [("NormalizerOperator", "edge-node-1"), ("FeatureAggWindow", "edge-node-2"),
                      ("MultiStreamJoin", "cloud"), ("BinaryClassifier", "cloud")]
  | .w1, .n3 => some [("NormalizerOperator", "edge-node-1"), ("FeatureAggWindow", "edge-node-2"),
                      ("MultiStreamJoin", "edge-node-3"), ("BinaryClassifier", "edge-node-4")]
  | .w2, .n1 => some [("VehicleDetector", "edge-node-1"), ("ZoneAggregator", "edge-node-2"),
                      ("PatternDetector", "cloud")]
  | .w2, .n2 => some [("VehicleDetector", "edge-node-1"), ("ZoneAggregator", "edge-node-2"),
                      ("PatternDetector", "cloud")]
  | .w2, .n3 => some [("VehicleDetector", "edge-node-1"), ("ZoneAggregator", "edge-node-3"),
                      ("PatternDetector", "edge-node-4")]
  | .w3, .n1 => some [("RiskCheck", "cloud"), ("AnomalyDetector", "edge-node-1"),
                      ("StatAggregator", "edge-node-2"), ("ComplianceLogger", "edge-node-3")]
  | .w3, .n2 => some [("RiskCheck", "cloud"), ("AnomalyDetector", "cloud"),
                      ("StatAggregator", "edge-node-1"), ("ComplianceLogger", "edge-node-2")]
  | .w3, .n3 => some [("RiskCheck", "edge-node-1"), ("AnomalyDetector", "edge-node-2"),
                      ("StatAggregator", "edge-node-3"), ("ComplianceLogger", "edge-node-4")]

/-- `setup_baseline_b2`, the placement it returns, or a `ValueError` where there is none. -/
def setupBaselineB2 (workload : Workload) (network : Network) : Except PyError (List (String × String)) :=
  let placement := (b2Placements workload network).getD []
  if placement.isEmpty then
    throw ⟨.valueError, s!"No B2 static placement defined for ('{workload.name}', '{network.name}')"⟩
  else return placement

/-! ## `runner.py`

A run, the repetitions of a configuration, and the loop over the sorted configurations that sets the network where it
changes. -/

/-- `_setup_system`; only the static baseline does more than log. -/
def setupSystem (config : ExperimentConfig) : Except PyError Unit :=
  match config.system with
  | .b1           => return ()
  | .b2           => do
      let _ ← setupBaselineB2 config.workload config.network
      return ()
  | .hybridStream => return ()

/-- The snapshots that a run has kept when its collector has been stopped. -/
def keptSnapshots [PyRuntime F] (config : ExperimentConfig) (repetition : Int) (measured : F × F × List F) :
    List (MetricSnapshot F) :=
  let collector := (MetricsCollector.new config.configId repetition measured.1 measured.1).start measured.2.1
  collector.getSnapshots config.workload.warmupS (collector.collectionLoop (measured.2.2.map .snapshot)) false true

/-- `_run_single`; what it does after a failure is to log it, and `_teardown_system` only logs. -/
def runSingle [PyRuntime F] (site : Site W F) (config : ExperimentConfig) (repetition : Int) :
    Proc PyError (Lab W F) Unit := do
  modify fun lab => lab.did (.run config repetition)
  Proc.lift (setupSystem config)
  let measured ← outside (site.measure config repetition)
  let snapshots := keptSnapshots config repetition measured
  modify fun lab =>
    { lab with files := (saveSnapshots site.union lab.files snapshots config.configId repetition).1 }
  modify fun lab => lab.did (.saved config repetition (snapshots.flatMap (rowsOf site.union)))

/-- `range(1, 11)`: ten repetitions of each configuration. -/
def repetitions : List Int := [1, 2, 3, 4, 5, 6, 7, 8, 9, 10]

/-- The repetitions of one configuration, one after the other; the first that raises ends them. -/
def runReps [PyRuntime F] (site : Site W F) (dryRun : Bool) (config : ExperimentConfig) :
    List Int → Proc PyError (Lab W F) Unit
  | []          => return ()
  | rep :: reps => do
      unless dryRun do
        runSingle site config rep
      runReps site dryRun config reps

/-- The configurations that are left, in the network of the last one. -/
def runConfigs [PyRuntime F] (site : Site W F) (dryRun : Bool) :
    Option Network → List ExperimentConfig → Proc PyError (Lab W F) Unit
  | _, []                             => return ()
  | currentNetwork, config :: configs => do
      if some config.network ≠ currentNetwork then
        unless dryRun do
          applyNetworkProfile site config.network.profile
      runReps site dryRun config repetitions
      runConfigs site dryRun (some config.network) configs

/-- `s <= t` on text: by code points. -/
def textLe : List Char → List Char → Bool
  | [], _           => true
  | _ :: _, []      => false
  | c :: cs, d :: ds => if c = d then textLe cs ds else c.toNat < d.toNat

/-- `s <= t`, and where they are the same what comes behind them in a tuple. -/
def tupleLe (s t : String) (rest : Bool) : Bool := if s = t then rest else textLe s.toList t.toList

/-- The configurations are sorted by `(c.network, c.workload, c.system)`. -/
def ExperimentConfig.keyLe (c c' : ExperimentConfig) : Bool :=
  tupleLe c.network.name c'.network.name
    (tupleLe c.workload.name c'.workload.name (textLe c.system.name.toList c'.system.name.toList))

/-- `sorted(configs, key=lambda c: (c.network, c.workload, c.system))` -/
def sortedConfigs (configs : List ExperimentConfig) : List ExperimentConfig :=
  configs.insertionSort (fun c c' => c.keyLe c' = true)

/-- `run_all`, of the configurations of a matrix. -/
def runAll [PyRuntime F] (site : Site W F) (dryRun : Bool) (matrix : List ExperimentConfig) :
    Proc PyError (Lab W F) Unit := runConfigs site dryRun none (sortedConfigs matrix)

end Experiments
end HybridStream
