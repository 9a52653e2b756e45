import HybridStream.Experiments.Runner
import HybridStream.Lib.Triple

/-!
# `Experiments.Correctness.Campaign` — what a campaign does, in order

`runAll` writes down what it does. One lemma for each of its parts says what the part adds, whether it returns or raises
(`ends_runCmd`, `ends_applyNetworkProfile`, `ends_runSingle`); `Progress` is what the loop over the configurations
keeps. A campaign runs its configurations in the order of their keys, sets the profile of each network at most once, and
runs everything while the profile of its network is in force (`campaign_in_order`). It stops at the first command or run
that raises, and what it has done until then is the beginning of its schedule.
-/

namespace HybridStream
namespace Experiments

open Lib Py Proc

variable {F W : Type}

/-! ## What a part adds

Each part of a campaign by how it can end: what it adds to the log of commands and runs, and what it does to the
files. The shell and the deployed system may do anything in between, but they do not write the log. -/

/-- The command that sets the profile of a network. -/
def Network.shaping (network : Network) : String := network.profile.tcNetemArgs edgeCloudInterface

/-- The command that clears the interface. -/
def Network.clearing (network : Network) : String := network.profile.tcNetemClear edgeCloudInterface

theorem Network.shaping_injective {network network' : Network} (h : network.shaping = network'.shaping) :
    network = network' := by
  cases network <;> cases network' <;> first | rfl | exact absurd h (by decide)

theorem Network.clearing_ne_shaping (network network' : Network) : network.clearing ≠ network'.shaping := by
  cases network <;> cases network' <;> decide

section Parts

variable (site : Site W F) (lab : Lab W F)

theorem ends_outside {α : Type} (act : W → Except PyError α × W) :
    Ends (outside act) lab (fun a t => (act lab.host).1 = .ok a ∧ t = { lab with host := (act lab.host).2 })
      (fun _ t => t = { lab with host := (act lab.host).2 }) :=
  ends_get_bind (ends_modify_bind (ends_lift (fun _ ha => ⟨ha, rfl⟩) fun _ _ => rfl))

/-- **One command** is written down once it has ended, and an exit code that is not ignored is zero. -/
theorem ends_runCmd (cmd : String) (ignoreErrors : Bool) :
    Ends (runCmd site cmd ignoreErrors) lab
      (fun _ t => t.files = lab.files ∧ ∃ exitCode, (exitCode = 0 ∨ ignoreErrors = true) ∧
        t.acts = lab.acts ++ [.command cmd exitCode])
      (fun _ t => t.files = lab.files ∧ ∃ exitCode, ∃ done, done <+: [Act.command cmd exitCode] ∧
        t.acts = lab.acts ++ done) := by
  unfold runCmd
  refine ends_bind ((ends_outside lab _).imp (fun _ _ h => h.2) ?_) ?_
  · rintro - t rfl
    exact ⟨rfl, 0, [], List.nil_prefix, (List.append_nil _).symm⟩
  · rintro completed t rfl
    refine ends_modify_bind ?_
    split
    · refine ends_lift (fun _ h => ?_) fun _ _ => ⟨rfl, completed.returncode, _, List.prefix_rfl, rfl⟩
      obtain ⟨text, -, h⟩ := bind_eq_ok.mp h
      cases h
    · rename_i hcode
      refine ends_lift (fun _ _ => ⟨rfl, completed.returncode, ?_, rfl⟩)
        fun _ _ => ⟨rfl, completed.returncode, _, List.prefix_rfl, rfl⟩
      rw [not_and_or, not_not, Bool.not_eq_false] at hcode
      exact hcode

/-- **One change of the network** clears the interface and sets the profile. -/
theorem ends_applyNetworkProfile (network : Network) :
    Ends (applyNetworkProfile site network.profile) lab
      (fun _ t => t.files = lab.files ∧ ∃ exitCode,
        t.acts = lab.acts ++ [.command network.clearing exitCode, .command network.shaping 0])
      (fun _ t => t.files = lab.files ∧ ∃ exitCode exitCode' done,
        done <+: [Act.command network.clearing exitCode, .command network.shaping exitCode'] ∧
        t.acts = lab.acts ++ done) := by
  unfold applyNetworkProfile
  refine ends_bind ((ends_runCmd site lab network.clearing true).imp (fun _ _ h => h) ?_) ?_
  · rintro - t ⟨hfiles, exitCode, done, hdone, hacts⟩
    exact ⟨hfiles, exitCode, 0, done, hdone.trans ⟨[_], rfl⟩, hacts⟩
  · rintro - t ⟨hfiles, exitCode, -, hacts⟩
    refine ends_bind ((ends_runCmd site t network.shaping false).imp (fun _ _ h => h) ?_) ?_
    · rintro - u ⟨hfiles', exitCode', done, hdone, hacts'⟩
      refine ⟨hfiles'.trans hfiles, exitCode, exitCode', .command network.clearing exitCode :: done, ?_, ?_⟩
      · exact (List.prefix_cons_inj _).mpr hdone
      · rw [hacts', hacts, List.append_assoc, List.singleton_append]
    · rintro - u ⟨hfiles', exitCode', hzero, hacts'⟩
      refine ends_pure ⟨hfiles'.trans hfiles, exitCode, ?_⟩
      have hcode : exitCode' = 0 := hzero.resolve_right Bool.false_ne_true
      rw [hacts', hacts, hcode, List.append_assoc, List.singleton_append]

/-- The configurations of a matrix can all be set up. -/
theorem setupSystem_ok (config : ExperimentConfig) : setupSystem config = .ok () := by
  obtain ⟨workload, system, network⟩ := config
  cases workload <;> cases system <;> cases network <;> rfl

/-- The rows that a run saves. -/
def rowsOfRun [PyRuntime F] (union : SetUnion) (config : ExperimentConfig) (repetition : Int)
    (measured : F × F × List F) : List (StoredRow F) :=
  (keptSnapshots config repetition measured).flatMap (rowsOf union)

/-- **One run** is measured and saved, or raises before it has saved anything. -/
theorem ends_runSingle [PyRuntime F] (config : ExperimentConfig) (repetition : Int) :
    Ends (runSingle site config repetition) lab
      (fun _ t => ∃ measured, t.acts = lab.acts ++
          [.run config repetition, .saved config repetition (rowsOfRun site.union config repetition measured)] ∧
        t.files = (saveSnapshots site.union lab.files (keptSnapshots config repetition measured) config.configId
          repetition).1)
      (fun _ t => t.acts = lab.acts ++ [.run config repetition] ∧ t.files = lab.files) := by
  unfold runSingle
  refine ends_modify_bind (ends_bind (R := fun _ t => t = lab.did (.run config repetition)) ?_ ?_)
  · exact ends_lift (fun _ _ => rfl) fun _ h => absurd ((setupSystem_ok config).symm.trans h) nofun
  · rintro - t rfl
    refine ends_bind ((ends_outside _ _).imp (fun _ _ h => h.2) ?_) ?_
    · rintro - t rfl
      exact ⟨rfl, rfl⟩
    · rintro measured t rfl
      refine ends_modify_bind (ends_modify ⟨measured, ?_, rfl⟩)
      exact List.append_assoc _ _ _

end Parts

/-! ## What has been done

The log read as commands and runs. A run is in its network if the last command before it set that network's profile
and was successful. -/

/-- The commands that have ended, with their exit codes. -/
def commandsOf (acts : List (Act F)) : List (String × Int) :=
  acts.filterMap fun
    | .command cmd exitCode => some (cmd, exitCode)
    | _                     => none

/-- The runs that have begun. -/
def runsOf (acts : List (Act F)) : List (ExperimentConfig × Int) :=
  acts.filterMap fun
    | .run config repetition => some (config, repetition)
    | _                      => none

/-- How often the profile of a network has been set, successfully or not. -/
def timesSet (network : Network) (acts : List (Act F)) : Nat :=
  (commandsOf acts).countP (fun c => c.1 = network.shaping)

/-- The last command set the profile of the network. -/
def Shaped (network : Network) (acts : List (Act F)) : Prop := (commandsOf acts).getLast? = some (network.shaping, 0)

/-- Everything was run while the profile of its network was in force. -/
def InForce (acts : List (Act F)) : Prop :=
  ∀ done config repetition rest, acts = done ++ .run config repetition :: rest → Shaped config.network done

@[simp] theorem commandsOf_append (acts acts' : List (Act F)) :
    commandsOf (acts ++ acts') = commandsOf acts ++ commandsOf acts' := List.filterMap_append

@[simp] theorem runsOf_append (acts acts' : List (Act F)) : runsOf (acts ++ acts') = runsOf acts ++ runsOf acts' :=
  List.filterMap_append

@[simp] theorem timesSet_append (network : Network) (acts acts' : List (Act F)) :
    timesSet network (acts ++ acts') = timesSet network acts + timesSet network acts' := by
  unfold timesSet
  rw [commandsOf_append, List.countP_append]

theorem inForce_nil : InForce ([] : List (Act F)) := by
  intro done config repetition rest h
  exact absurd h.symm (List.append_ne_nil_of_right_ne_nil _ (List.cons_ne_nil _ _))

/-- What is added is run in its network. -/
theorem InForce.append {acts new : List (Act F)} (h : InForce acts)
    (hnew : ∀ done config repetition rest, new = done ++ .run config repetition :: rest →
      Shaped config.network (acts ++ done)) : InForce (acts ++ new) := by
  intro done config repetition rest hsplit
  rcases List.append_eq_append_iff.mp hsplit with ⟨mid, rfl, hmid⟩ | ⟨mid, rfl, hmid⟩
  · exact hnew mid config repetition rest hmid
  · cases mid with
    | nil =>
        have hshaped := hnew [] config repetition rest hmid.symm
        rwa [List.append_nil, List.append_nil] at hshaped
    | cons act mid =>
        obtain ⟨rfl, -⟩ := List.cons.inj hmid
        exact h done config repetition mid rfl

/-- Nothing is run by what only shapes the network. -/
theorem InForce.append_commands {acts new : List (Act F)} (h : InForce acts) (hnew : runsOf new = []) :
    InForce (acts ++ new) := by
  refine h.append fun done config repetition rest hsplit => ?_
  rw [hsplit, runsOf_append] at hnew
  exact absurd (List.append_eq_nil_iff.mp hnew).2 (List.cons_ne_nil _ _)

/-- What is run without a command in between is run in the same network. -/
theorem InForce.append_runs {acts new : List (Act F)} {network : Network} (h : InForce acts)
    (hshaped : Shaped network acts) (hcommands : commandsOf new = [])
    (hruns : ∀ run ∈ runsOf new, run.1.network = network) : InForce (acts ++ new) := by
  refine h.append fun done config repetition rest hsplit => ?_
  rw [hsplit, commandsOf_append] at hcommands
  rw [hsplit, runsOf_append] at hruns
  have hnetwork : config.network = network := hruns _ (List.mem_append_right _ List.mem_cons_self)
  rw [Shaped, commandsOf_append, (List.append_eq_nil_iff.mp hcommands).1, List.append_nil, hnetwork]
  exact hshaped

/-! ## The order of the configurations

The configurations are sorted by network, workload and system, as texts. Sorted that way the networks come one after
the other. -/

/-- Networks, workloads and systems in the order of their names. -/
def Network.rank : Network → Nat
  | n1 => 0
  | n2 => 1
  | n3 => 2

def Workload.rank : Workload → Nat
  | w1 => 0
  | w2 => 1
  | w3 => 2

def System.rank : System → Nat
  | b1           => 0
  | b2           => 1
  | hybridStream => 2

def ExperimentConfig.rank (config : ExperimentConfig) : Nat :=
  9 * config.network.rank + 3 * config.workload.rank + config.system.rank

theorem Network.rank_injective {network network' : Network} (h : network.rank = network'.rank) :
    network = network' := by
  cases network <;> cases network' <;> first | rfl | cases h

theorem Network.tupleLe_name (n m : Network) (rest : Bool) :
    tupleLe n.name m.name rest = (decide (n.rank < m.rank) || (decide (n.rank = m.rank) && rest)) := by
  cases n <;> cases m <;> rfl

theorem Workload.tupleLe_name (w v : Workload) (rest : Bool) :
    tupleLe w.name v.name rest = (decide (w.rank < v.rank) || (decide (w.rank = v.rank) && rest)) := by
  cases w <;> cases v <;> rfl

theorem System.textLe_name (s t : System) : textLe s.name.toList t.name.toList = decide (s.rank ≤ t.rank) := by
  cases s <;> cases t <;> rfl

theorem Workload.rank_lt (w : Workload) : w.rank < 3 := by cases w <;> decide

theorem System.rank_lt (s : System) : s.rank < 3 := by cases s <;> decide

/-- Comparing the keys is comparing the ranks. -/
theorem ExperimentConfig.keyLe_iff {c c' : ExperimentConfig} : c.keyLe c' = true ↔ c.rank ≤ c'.rank := by
  have hw := c.workload.rank_lt
  have hw' := c'.workload.rank_lt
  have hs := c.system.rank_lt
  have hs' := c'.system.rank_lt
  unfold keyLe rank
  rw [Network.tupleLe_name, Workload.tupleLe_name, System.textLe_name]
  simp only [Bool.or_eq_true, Bool.and_eq_true, decide_eq_true_eq]
  omega

theorem sortedConfigs_perm (configs : List ExperimentConfig) : (sortedConfigs configs).Perm configs :=
  List.perm_insertionSort _ _

/-- The networks come one after the other. -/
theorem sortedConfigs_pairwise (configs : List ExperimentConfig) :
    (sortedConfigs configs).Pairwise (fun c c' => c.network.rank ≤ c'.network.rank) := by
  have htotal : Std.Total (fun c c' : ExperimentConfig => c.keyLe c' = true) := by
    refine ⟨fun c c' => ?_⟩
    rw [ExperimentConfig.keyLe_iff, ExperimentConfig.keyLe_iff]
    exact Nat.le_total _ _
  have htrans : IsTrans ExperimentConfig (fun c c' => c.keyLe c' = true) := by
    refine ⟨fun c c' c'' h h' => ?_⟩
    rw [ExperimentConfig.keyLe_iff] at h h' ⊢
    exact h.trans h'
  refine (List.pairwise_insertionSort _ configs).imp fun {c c'} h => ?_
  have hrank := ExperimentConfig.keyLe_iff.mp h
  have hw := c.workload.rank_lt
  have hw' := c'.workload.rank_lt
  have hs := c.system.rank_lt
  have hs' := c'.system.rank_lt
  unfold ExperimentConfig.rank at hrank
  omega

/-- What a campaign of these configurations runs. -/
def schedule (configs : List ExperimentConfig) : List (ExperimentConfig × Int) :=
  configs.flatMap fun config => repetitions.map fun rep => (config, rep)

/-! ## The loops

The invariant of the loop over the configurations: the current network was set last, the networks after it have not
been set yet. A change of the network may stop half-way, which ends the campaign. -/

/-- Runs in their networks, and no profile set twice. -/
structure Orderly (acts : List (Act F)) : Prop where
  inForce : InForce acts
  once    : ∀ network, timesSet network acts ≤ 1

/-- Where the loop over the configurations is: the current network was set last, after those before it. -/
structure Progress (currentNetwork : Option Network) (acts : List (Act F)) : Prop extends Orderly acts where
  shaped : ∀ network ∈ currentNetwork, Shaped network acts
  behind : ∀ network, 0 < timesSet network acts → ∃ current ∈ currentNetwork, network.rank ≤ current.rank

/-- What a change of the network sets. -/
theorem timesSet_change (network n : Network) (exitCode exitCode' : Int) :
    timesSet n ([.command network.clearing exitCode, .command network.shaping exitCode'] : List (Act F)) =
      if n = network then 1 else 0 := by
  have hclear : network.clearing ≠ n.shaping := network.clearing_ne_shaping n
  unfold timesSet commandsOf
  by_cases hn : n = network
  · simp [hn, network.clearing_ne_shaping network]
  · have hset : network.shaping ≠ n.shaping := fun h => hn (Network.shaping_injective h).symm
    simp [hn, hclear, hset]

section Changes

variable {currentNetwork : Option Network} {acts : List (Act F)} {network : Network}

/-- A network that comes after the current one has not been set yet. -/
theorem Progress.timesSet_eq_zero (h : Progress currentNetwork acts) (hnew : some network ≠ currentNetwork)
    (hle : ∀ current ∈ currentNetwork, current.rank ≤ network.rank) : timesSet network acts = 0 := by
  by_contra hset
  obtain ⟨current, hcurrent, hrank⟩ := h.behind network (Nat.pos_of_ne_zero hset)
  have hsame : network = current := Network.rank_injective (Nat.le_antisymm hrank (hle current hcurrent))
  rw [Option.mem_def] at hcurrent
  exact hnew (hsame ▸ hcurrent.symm)

/-- A change to a later network, also one that stops half-way, sets nothing twice. -/
theorem Progress.orderly_change (h : Progress currentNetwork acts) (hnew : some network ≠ currentNetwork)
    (hle : ∀ current ∈ currentNetwork, current.rank ≤ network.rank) {exitCode exitCode' : Int} {done : List (Act F)}
    (hdone : done <+: [.command network.clearing exitCode, .command network.shaping exitCode']) :
    Orderly (acts ++ done) := by
  obtain ⟨rest, hrest⟩ := hdone
  constructor
  · refine h.inForce.append_commands (List.append_eq_nil_iff.mp (?_ : runsOf done ++ runsOf rest = [])).1
    rw [← runsOf_append, hrest]
    rfl
  · intro n
    have hzero := h.timesSet_eq_zero hnew hle
    have hchange := timesSet_change (F := F) network n exitCode exitCode'
    have honce := h.once n
    rw [← hrest, timesSet_append] at hchange
    rw [timesSet_append]
    by_cases hn : n = network
    · rw [if_pos hn] at hchange
      rw [hn] at hchange ⊢
      omega
    · rw [if_neg hn] at hchange
      omega

/-- **A change** to a later network makes it the current one. -/
theorem Progress.change (h : Progress currentNetwork acts) (hnew : some network ≠ currentNetwork)
    (hle : ∀ current ∈ currentNetwork, current.rank ≤ network.rank) (exitCode : Int) :
    Progress (some network) (acts ++ [.command network.clearing exitCode, .command network.shaping 0]) := by
  refine ⟨h.orderly_change hnew hle List.prefix_rfl, ?_, ?_⟩
  · intro n hn
    rw [← Option.mem_some_iff.mp hn, Shaped, commandsOf_append]
    exact List.getLast?_append
  · intro n hn
    refine ⟨network, rfl, ?_⟩
    rw [timesSet_append, timesSet_change] at hn
    by_cases hsame : n = network
    · rw [hsame]
    · rw [if_neg hsame, Nat.add_zero] at hn
      obtain ⟨current, hcurrent, hrank⟩ := h.behind n hn
      exact hrank.trans (hle current hcurrent)

/-- Runs in the current network change nothing about it. -/
theorem Progress.runs {new : List (Act F)} (h : Progress (some network) acts) (hcommands : commandsOf new = [])
    (hruns : ∀ run ∈ runsOf new, run.1.network = network) : Progress (some network) (acts ++ new) := by
  have hcommandsOf : commandsOf (acts ++ new) = commandsOf acts := by
    rw [commandsOf_append, hcommands, List.append_nil]
  have htimes : ∀ n, timesSet n (acts ++ new) = timesSet n acts := by
    intro n
    rw [timesSet, timesSet, hcommandsOf]
  refine ⟨⟨h.inForce.append_runs (h.shaped network rfl) hcommands hruns, fun n => ?_⟩, ?_, ?_⟩
  · rw [htimes]
    exact h.once n
  · intro n hn
    rw [Shaped, hcommandsOf]
    exact h.shaped n hn
  · intro n hn
    rw [htimes] at hn
    exact h.behind n hn

end Changes

section Loops

variable [PyRuntime F] (site : Site W F)

/-- **The repetitions** of a configuration are run one after the other, without a command in between. -/
theorem ends_runReps (config : ExperimentConfig) (reps : List Int) (lab : Lab W F) :
    Ends (runReps site false config reps) lab
      (fun _ t => ∃ new, t.acts = lab.acts ++ new ∧ commandsOf new = [] ∧
        runsOf new = reps.map fun rep => (config, rep))
      (fun _ t => ∃ new, t.acts = lab.acts ++ new ∧ commandsOf new = [] ∧
        runsOf new <+: reps.map fun rep => (config, rep)) := by
  induction reps generalizing lab with
  | nil => exact ends_pure ⟨[], (List.append_nil _).symm, rfl, rfl⟩
  | cons rep reps ih =>
      refine ends_bind ((ends_runSingle site lab config rep).imp (fun _ _ h => h) ?_) ?_
      · rintro - t ⟨hacts, -⟩
        exact ⟨_, hacts, rfl, ⟨_, rfl⟩⟩
      · rintro - t ⟨measured, hacts, -⟩
        have hafter : ∀ {new : List (Act F)}, t.acts ++ new = lab.acts ++
            .run config rep :: .saved config rep (rowsOfRun site.union config rep measured) :: new := by
          intro new
          rw [hacts, List.append_assoc]
          rfl
        refine (ih t).imp ?_ ?_
        · rintro - u ⟨new, hnew, hcommands, hruns⟩
          exact ⟨_, hnew.trans hafter, hcommands, congrArg (List.cons (config, rep)) hruns⟩
        · rintro - u ⟨new, hnew, hcommands, hruns⟩
          exact ⟨_, hnew.trans hafter, hcommands, (List.prefix_cons_inj (config, rep)).mpr hruns⟩

/-- **The configurations** that are left are run in their order. -/
theorem ends_runConfigs {configs : List ExperimentConfig}
    (hsorted : configs.Pairwise (fun c c' => c.network.rank ≤ c'.network.rank)) {currentNetwork : Option Network}
    {lab : Lab W F} (h : Progress currentNetwork lab.acts)
    (hle : ∀ config ∈ configs, ∀ current ∈ currentNetwork, current.rank ≤ config.network.rank) :
    Ends (runConfigs site false currentNetwork configs) lab
      (fun _ t => Orderly t.acts ∧ runsOf t.acts = runsOf lab.acts ++ schedule configs)
      (fun _ t => Orderly t.acts ∧ ∃ part, part <+: schedule configs ∧ runsOf t.acts = runsOf lab.acts ++ part) := by
  induction configs generalizing currentNetwork lab with
  | nil => exact ends_pure ⟨h.toOrderly, (List.append_nil _).symm⟩
  | cons config configs ih =>
      obtain ⟨hfirst, hsorted⟩ := List.pairwise_cons.mp hsorted
      -- in the network of the configuration: its repetitions, and the configurations after it
      have hrest : ∀ {t : Lab W F}, Progress (some config.network) t.acts → runsOf t.acts = runsOf lab.acts →
          Ends (do runReps site false config repetitions; runConfigs site false (some config.network) configs) t
            (fun _ u => Orderly u.acts ∧ runsOf u.acts = runsOf lab.acts ++ schedule (config :: configs))
            (fun _ u => Orderly u.acts ∧ ∃ part, part <+: schedule (config :: configs) ∧
              runsOf u.acts = runsOf lab.acts ++ part) := by
        intro t ht hruns
        have hnetwork : ∀ {new : List (Act F)}, runsOf new <+: (repetitions.map fun rep => (config, rep)) →
            ∀ run ∈ runsOf new, run.1.network = config.network := by
          intro new hnew run hrun
          obtain ⟨rep, -, rfl⟩ := List.mem_map.mp (hnew.subset hrun)
          rfl
        refine ends_bind ((ends_runReps site config repetitions t).imp (fun _ _ hu => hu) ?_) ?_
        · rintro - u ⟨new, hacts, hcommands, hnew⟩
          rw [hacts]
          refine ⟨(ht.runs hcommands (hnetwork hnew)).toOrderly, _, hnew.trans (List.prefix_append _ _), ?_⟩
          rw [runsOf_append, hruns]
        · rintro - u ⟨new, hacts, hcommands, hnew⟩
          have hu : Progress (some config.network) u.acts := by
            rw [hacts]
            exact ht.runs hcommands (hnetwork (hnew ▸ List.prefix_rfl))
          have hdone : runsOf u.acts = runsOf lab.acts ++ repetitions.map fun rep => (config, rep) := by
            rw [hacts, runsOf_append, hruns, hnew]
          refine (ih hsorted hu fun c hc current hcurrent => ?_).imp ?_ ?_
          · rw [← Option.mem_some_iff.mp hcurrent]
            exact hfirst c hc
          · rintro - v ⟨hv, hall⟩
            exact ⟨hv, by rw [hall, hdone, List.append_assoc]; rfl⟩
          · rintro - v ⟨hv, part, hpart, hall⟩
            refine ⟨hv, _ ++ part, (List.prefix_append_right_inj _).mpr hpart, ?_⟩
            rw [hall, hdone, List.append_assoc]
      have hcurrent := hle config List.mem_cons_self
      unfold runConfigs
      dsimp only
      split
      · rename_i hnew
        refine ends_bind ((ends_applyNetworkProfile site lab config.network).imp (fun _ _ ht => ht) ?_) ?_
        · rintro - t ⟨-, exitCode, exitCode', done, hdone, hacts⟩
          have hnone : runsOf done = [] := by
            obtain ⟨rest, hrest⟩ := hdone
            have hruns := congrArg runsOf hrest
            rw [runsOf_append] at hruns
            exact (List.append_eq_nil_iff.mp hruns).1
          rw [hacts]
          refine ⟨h.orderly_change hnew hcurrent hdone, [], List.nil_prefix, ?_⟩
          rw [runsOf_append, hnone]
        · rintro - t ⟨-, exitCode, hacts⟩
          refine hrest ?_ ?_
          · rw [hacts]
            exact h.change hnew hcurrent exitCode
          · rw [hacts, runsOf_append]
            exact List.append_nil _
      · rename_i hsame
        rw [not_not] at hsame
        exact hrest (hsame ▸ h) rfl

end Loops

/-- **A campaign in order.** Whatever the shell and the runs do, a campaign executes a part from the beginning of its
    schedule, all of it if it returns: each configuration of the matrix ten times, network by network. Every run begins
    with the profile of its network as the last thing that was set, and no profile is set twice. The configurations are
    sorted by their network; `Progress` says which networks are behind and that the current one was set last, and each
    configuration keeps it. -/
theorem campaign_in_order [PyRuntime F] (site : Site W F) (matrix : List ExperimentConfig) (host : W)
    (files : ResultFiles F) :
    ∃ result ended, exec (runAll site false matrix) (Lab.new host files) = (result, ended) ∧
      (∀ done config repetition rest, ended.acts = done ++ .run config repetition :: rest →
        Shaped config.network done) ∧
      (∀ network, timesSet network ended.acts ≤ 1) ∧
      runsOf ended.acts <+: schedule (sortedConfigs matrix) ∧
      (result = .ok () → runsOf ended.acts = schedule (sortedConfigs matrix)) ∧
      (schedule (sortedConfigs matrix)).Perm (schedule matrix) := by
  have hperm : (schedule (sortedConfigs matrix)).Perm (schedule matrix) :=
    (sortedConfigs_perm matrix).flatMap_right _
  have hstart : Progress none (Lab.new host files : Lab W F).acts :=
    ⟨⟨inForce_nil, fun _ => Nat.zero_le _⟩, nofun, fun _ h => absurd h (Nat.lt_irrefl 0)⟩
  have hends := ends_runConfigs site (sortedConfigs_pairwise matrix) hstart fun _ _ _ h => nomatch h
  rcases hends.of_exec with ⟨result, ended, hexec, hended, hruns⟩ | ⟨error, ended, hexec, hended, part, hpart, hruns⟩
  · refine ⟨_, ended, hexec, hended.inForce, hended.once, ?_, fun _ => hruns, hperm⟩
    rw [hruns]
    exact List.prefix_rfl
  · refine ⟨_, ended, hexec, hended.inForce, hended.once, ?_, nofun, hperm⟩
    rw [hruns]
    exact hpart

/-- The campaign of the experiment matrix: 270 runs, none of them twice. -/
example : (schedule (sortedConfigs buildExperimentMatrix)).length = 270 ∧
    (schedule (sortedConfigs buildExperimentMatrix)).Nodup := by decide +kernel

end Experiments
end HybridStream
