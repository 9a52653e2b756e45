import HybridStream.Aode.CollectionLoops
import HybridStream.Aode.Correctness.DeadNode
import HybridStream.Aode.Correctness.OperatorSet
import HybridStream.Aode.Correctness.Recalibration

/-!
# `Aode.Correctness.BlindController` — what the controller sees of its edge tiers

Telemetry is kept under the host names of `hea_endpoints`, scores are computed for the tiers of
`get_tier_capacities`. Where no host is called like a tier, as with the default endpoints, every tier is scored as one
that was never reached (`dead_of_collected`): the edge tiers all cost the same, and each 200 more than the cloud
(`scoreValue_dead`). So every cycle wants every operator that is not there in the cloud, whatever the HEAs report.
-/

namespace HybridStream
namespace Aode

open Lib Py PlacementOptimizer

/-! ## What the collection loops write to

Telemetry is stored under the names that the collector was given, which are the hosts of the endpoints. The loops
never add a name. -/

namespace CollectionLoops

section Hosts

variable {F : Type} {hosts : List String} {c c' : CollectionLoops F} {getStub : String → Option HEAClient}
  {loop : CollectionLoop}

/-- The loops know of `hosts` only. -/
structure Knows (hosts : List String) (c : CollectionLoops F) : Prop where
  keys    : ∀ heaId ∈ c.lastTelemetry.keys, heaId ∈ hosts
  awaited : ∀ loop heaId rest n, c.loops loop = .awaiting heaId rest n → heaId ∈ hosts ∧ ∀ id ∈ rest, id ∈ hosts

theorem Knows.store (h : Knows hosts c) {heaId : String} (hhost : heaId ∈ hosts) (number : Option Nat)
    (sample : TimedTelemetry F) : Knows hosts (c.store heaId number sample) := by
  refine ⟨fun id hid => ?_, h.awaited⟩
  rcases Dict.mem_keys_set hid with rfl | hold
  · exact hhost
  · exact h.keys id hold

theorem Knows.suspend (h : Knows hosts c) {state : LoopState}
    (hstate : ∀ heaId rest n, state = .awaiting heaId rest n → heaId ∈ hosts ∧ ∀ id ∈ rest, id ∈ hosts) :
    Knows hosts (c.suspend loop state) := by
  refine ⟨h.keys, fun loop' heaId rest n hloop => ?_⟩
  have hloop : Function.update c.loops loop state loop' = .awaiting heaId rest n := hloop
  by_cases hsame : loop' = loop
  · rw [hsame, Function.update_self] at hloop
    exact hstate heaId rest n hloop
  · rw [Function.update_of_ne hsame] at hloop
    exact h.awaited loop' heaId rest n hloop

variable [PyRuntime F]

theorem Knows.proceed (h : Knows hosts c) (nowMs : String → Int) {heaIds : List String}
    (hids : ∀ id ∈ heaIds, id ∈ hosts) : Knows hosts (c.proceed getStub loop nowMs heaIds) := by
  induction heaIds generalizing c with
  | nil => exact h.suspend nofun
  | cons heaId rest ih =>
      have hhost := hids heaId List.mem_cons_self
      have hrest : ∀ id ∈ rest, id ∈ hosts := fun id hid => hids id (List.mem_cons_of_mem heaId hid)
      unfold CollectionLoops.proceed
      split
      · refine h.suspend fun heaId' rest' n heq => ?_
        cases heq
        exact ⟨hhost, hrest⟩
      · exact ih (h.store hhost _ _) hrest

theorem Knows.step (h : Knows hosts c) {a : CollectionEvent F} (hstep : step getStub c a = some c') :
    Knows hosts c' := by
  cases a with
  | wake loop nowMs =>
      dsimp only [CollectionLoops.step] at hstep
      split at hstep
      · cases hstep
        exact h.proceed nowMs h.keys
      · cases hstep
  | produce loop response =>
      dsimp only [CollectionLoops.step] at hstep
      split at hstep
      · rename_i heaId rest hloop
        obtain ⟨-, hc⟩ := Option.ite_none_right_eq_some.mp hstep
        cases hc
        -- the HEA that is awaited is one of the hosts, whatever it responds
        have hawaited := h.awaited loop heaId rest none hloop
        have hsuspend : Knows hosts (c.suspend loop (.awaiting heaId rest (some (c.produced heaId).length))) := by
          refine h.suspend fun heaId' rest' n heq => ?_
          cases heq
          exact hawaited
        exact ⟨hsuspend.keys, hsuspend.awaited⟩
      · cases hstep
  | deliver loop latency nowMs =>
      dsimp only [CollectionLoops.step] at hstep
      split at hstep
      · rename_i heaId rest n hloop
        obtain ⟨response, -, rfl⟩ := Option.map_eq_some_iff.mp hstep
        obtain ⟨hhost, hrest⟩ := h.awaited loop heaId rest (some n) hloop
        exact (h.store hhost _ _).proceed nowMs hrest
      · cases hstep
  | fail loop nowMs =>
      dsimp only [CollectionLoops.step] at hstep
      split at hstep
      · rename_i heaId rest n hloop
        cases hstep
        obtain ⟨hhost, hrest⟩ := h.awaited loop heaId rest n hloop
        exact (h.store hhost _ _).proceed nowMs hrest
      · cases hstep

theorem keys_registerHea {t : TelemetryCollector F} {heaId heaId' : String}
    (h : heaId' ∈ (t.registerHea heaId).lastTelemetry.keys) : heaId' = heaId ∨ heaId' ∈ t.lastTelemetry.keys := by
  unfold TelemetryCollector.registerHea at h
  split at h
  · exact Or.inr h
  · exact Dict.mem_keys_set h

theorem keys_new (heaEndpoints : List String) :
    ∀ heaId ∈ (TelemetryCollector.new (F := F) heaEndpoints).lastTelemetry.keys,
      heaId ∈ heaEndpoints.map Main.hostOf := by
  have hfold : ∀ (endpoints : List String) (t : TelemetryCollector F) (heaId : String),
      heaId ∈ (endpoints.foldl (fun t endpoint => t.registerHea (Main.hostOf endpoint)) t).lastTelemetry.keys →
        heaId ∈ t.lastTelemetry.keys ∨ heaId ∈ endpoints.map Main.hostOf := by
    intro endpoints
    induction endpoints with
    | nil => exact fun t heaId h => Or.inl h
    | cons endpoint endpoints ih =>
        intro t heaId h
        rcases ih _ heaId h with hold | hlater
        · rcases keys_registerHea hold with rfl | hold
          · exact Or.inr List.mem_cons_self
          · exact Or.inl hold
        · exact Or.inr (List.mem_cons_of_mem _ hlater)
  intro heaId h
  rcases hfold heaEndpoints ⟨∅⟩ heaId h with habsurd | hmem
  · cases habsurd
  · exact hmem

/-- **Telemetry is kept for the hosts of the endpoints only.** -/
theorem knows_hosts {clients : HeaClients} {heaEndpoints : List String}
    (h : (system (F := F) clients heaEndpoints).Reachable c) : Knows (heaEndpoints.map Main.hostOf) c := by
  refine h.invariant ?_ fun _ _ _ hs hstep => hs.step hstep
  rintro _ rfl
  refine ⟨fun heaId hid => keys_new (F := F) heaEndpoints heaId ?_, nofun⟩
  obtain ⟨v, hget⟩ := Dict.mem_keys_iff.mp hid
  have hget : (Dict.mapValues _ (TelemetryCollector.new (F := F) heaEndpoints).lastTelemetry).get heaId = some v :=
    hget
  rw [Dict.get_mapValues] at hget
  obtain ⟨tel, htel, -⟩ := Option.map_eq_some_iff.mp hget
  exact Dict.mem_keys_iff.mpr ⟨tel, htel⟩

end Hosts

end CollectionLoops

namespace Main

/-- What the loops that `main.run` starts have on record at some time. -/
def Collected {F : Type} [PyRuntime F] (heaEndpoints : List String) (t : TelemetryCollector F) : Prop :=
  ∃ c, (CollectionLoops.system (F := F) (heaClients heaEndpoints) heaEndpoints).Reachable c ∧
    t.lastTelemetry = c.lastTelemetry.mapValues TimedTelemetry.telemetry

/-- A tier that is no host is never reached. -/
theorem dead_of_collected {heaEndpoints : List String} {t : TelemetryCollector ℚ} (h : Collected heaEndpoints t)
    {tier : String} (hhost : tier ∉ heaEndpoints.map hostOf) : t.Dead tier := by
  obtain ⟨c, hreach, heq⟩ := h
  intro tel hget
  rw [heq, Dict.get_mapValues] at hget
  obtain ⟨sample, hsample, -⟩ := Option.map_eq_some_iff.mp hget
  exact absurd ((CollectionLoops.knows_hosts hreach).keys tier (Dict.mem_keys_iff.mpr ⟨sample, hsample⟩)) hhost

end Main

/-! ## What an unreached tier costs

A tier without telemetry is scored with stand-ins, the same for all of them: the operator's own part cancels out, and
the cloud is cheaper by the network term of a second. -/

/-- No tier is reached. -/
def TelemetryCollector.Blind (t : TelemetryCollector ℚ) : Prop := ∀ tier ∈ tiers, t.Dead tier

theorem Main.blind_of_collected {heaEndpoints : List String} {t : TelemetryCollector ℚ} (h : Collected heaEndpoints t)
    (hhosts : ∀ ep ∈ heaEndpoints, hostOf ep ∉ tiers) : t.Blind := by
  intro tier htier
  refine dead_of_collected h fun hmem => ?_
  obtain ⟨ep, hep, rfl⟩ := List.mem_map.mp hmem
  exact hhosts ep hep htier

/-- An edge tier costs as much as the cloud and a network distance of a second, the same for every preset. -/
theorem ScoringAlgorithm.scoreValue_dead {s : ScoringAlgorithm ℚ} (hpreset : s.weights ∈ weightPresets.values)
    (hblind : s.telemetry.Blind) {tier : String} (htier : tier ∈ tiers) (hedge : tier ≠ "cloud") (op : String)
    (sloMs : Option ℚ) (lambdaClass : String) :
    s.scoreValue op tier sloMs lambdaClass = s.scoreValue op "cloud" sloMs lambdaClass + 200 := by
  have hnet : ∀ w ∈ (weightPresets (F := ℚ)).values, w.wNet * 1000 = 200 := by decide +kernel
  have hcloud : s.computePhiNet "cloud" = 0 := by
    unfold computePhiNet
    rw [if_pos rfl]
    norm_num
  unfold scoreValue
  rw [utilization_of_dead (hblind tier htier), utilization_of_dead (hblind "cloud" (by decide)),
    computePhiNet_of_dead (hblind tier htier) hedge, hnet _ hpreset, hcloud]
  ring

/-- **A cheapest tier with room for all gets them all.** -/
theorem placed_on_cheapest {scores : Scores ℚ} {ops ts : List String} {caps : Dict String Nat} {own price : String → ℚ}
    {optimal : Dict String String} {t : String} (hops : ops.Nodup) (hsep : Separable scores ops ts own price)
    (ht : t ∈ ts) (hcheap : ∀ t' ∈ ts, t' ≠ t → price t < price t') (hroom : ops.length ≤ caps.getD t 0)
    (h : findOptimalPlacement scores ops ts caps = .ok optimal) {op : String} (hop : op ∈ ops) :
    optimal.get op = some t := by
  have hfit : ops.length ≤ ∑ t ∈ ts.toFinset, caps.getD t 0 :=
    hroom.trans (Finset.single_le_sum (f := fun t => caps.getD t 0) (fun _ _ => Nat.zero_le _)
      (List.mem_toFinset.mpr ht))
  have hfilled := filledFirst_of_plan hops hsep hfit h
  obtain ⟨hkeys, hknown, -⟩ := plan_spec hops hfit h
  obtain ⟨t', hget⟩ := Dict.mem_keys_iff.mp (hkeys.mem_iff.mpr hop)
  rw [hget]
  by_contra hother
  have hother : t' ≠ t := fun heq => hother (heq ▸ rfl)
  -- another tier is used, so `t` is full, and together they hold more than all
  have hvalue := Dict.mem_values_of_get hget
  have hother' := hknown t' hvalue
  have hused : 0 < optimal.load t' := List.count_pos_iff.mpr hvalue
  have hfull : caps.getD t 0 ≤ optimal.load t :=
    hfilled t (List.mem_toFinset.mpr ht) t' (List.mem_toFinset.mpr hother') (hcheap t' hother' hother) hused
  have htwo : optimal.load t + optimal.load t' ≤ ∑ t ∈ ts.toFinset, optimal.load t := by
    rw [← Finset.sum_pair (Ne.symm hother)]
    refine Finset.sum_le_sum_of_subset fun x hx => List.mem_toFinset.mpr ?_
    rcases Finset.mem_insert.mp hx with rfl | hx
    · exact ht
    · rw [Finset.mem_singleton.mp hx]
      exact hother'
  have hsize : optimal.size = ops.length := by
    rw [← hkeys.length_eq]
    exact (List.length_map _).symm
  rw [Dict.sum_load fun t ht => List.mem_toFinset.mpr (hknown t ht), hsize] at htwo
  omega

/-! ## The candidates of a blind cycle

Under such scores the plan puts everybody on the cheapest tier with room, which is the cloud; what is left of the plan
are the moves of those that are on record elsewhere. -/

namespace PlacementOptimizer

variable {o : PlacementOptimizer ℚ}

/-- The operators on record on an edge tier, each with a move to the cloud. -/
def cloudMoves (placement : Dict String String) : List (Candidate ℚ) :=
  placement.entries.filterMap
    (fun e => if e.2 ∈ tiers ∧ e.2 ≠ "cloud" then some ⟨e.1, e.2, "cloud", 200⟩ else none)

/-- A plan that has every operator in the cloud, where it costs 200 less than on an edge tier. -/
def AllToCloud (ops : List String) (scores : Scores ℚ) (optimal : Dict String String) : Prop :=
  ∀ (i : Nat) (op : String), ops[i]? = some op → optimal.get op = some "cloud" ∧
    ∀ (j : Nat) (tier : String) (k : Nat), tiers[j]? = some tier → tiers[k]? = some "cloud" → tier ≠ "cloud" →
      scores.entry i j - scores.entry i k = 200

theorem plan_of_blind (hpreset : o.scoring.weights ∈ weightPresets.values) (hblind : o.scoring.telemetry.Blind)
    (hfew : o.placement.cache.size ≤ 100) :
    ∃ scores optimal, o.plan = .ok (scores, optimal) ∧ AllToCloud o.placement.cache.keys scores optimal := by
  let ops := o.placement.cache.keys
  let value := fun op tier => o.scoring.scoreValue op tier (PlacementState.getSloMap.getD op none)
    (PlacementState.getLambdaMap.getD op "standard")
  have hscores : o.scoring.computeScores ops tiers PlacementState.getSloMap PlacementState.getLambdaMap =
      .ok (ScoringAlgorithm.matrix ops tiers value) :=
    o.scoring.computeScores_eq _ fun op _ => getSloMap_ne_zero op
  obtain ⟨optimal, hoptimal⟩ := exists_findOptimalPlacement (ScoringAlgorithm.matrix ops tiers value) ops tiers
    PlacementState.getTierCapacities (fun h => absurd h (by decide))
  have hgap : ∀ op, ∀ tier ∈ tiers, tier ≠ "cloud" → value op tier = value op "cloud" + 200 :=
    fun op tier htier hedge => ScoringAlgorithm.scoreValue_dead hpreset hblind htier hedge op _ _
  have hsep : Separable (ScoringAlgorithm.matrix ops tiers value) ops tiers (fun op => value op "cloud")
      (fun tier => if tier = "cloud" then 0 else 200) := by
    intro op i hop tier j htier
    rw [ScoringAlgorithm.entry_matrix (List.mem_zipIdx_iff_getElem?.mp hop) (List.mem_zipIdx_iff_getElem?.mp htier)]
    show value op tier = value op "cloud" + if tier = "cloud" then 0 else 200
    split
    · rename_i hcloud
      rw [hcloud, add_zero]
    · exact hgap op tier (List.fst_mem_of_mem_zipIdx htier) ‹_›
  have hroom : ops.length ≤ PlacementState.getTierCapacities.getD "cloud" 0 := by
    show (o.placement.cache.entries.map Prod.fst).length ≤ 100
    rw [List.length_map]
    exact hfew
  refine ⟨_, optimal, bind_eq_ok.mpr ⟨_, hscores, bind_eq_ok.mpr ⟨_, hoptimal, rfl⟩⟩, ?_⟩
  intro i op hop
  refine ⟨placed_on_cheapest (Dict.keys_nodup _) hsep (by decide) ?_ hroom hoptimal (List.mem_of_getElem? hop), ?_⟩
  · intro tier _ hedge
    simp [hedge]
  · intro j tier k hj hk hedge
    rw [ScoringAlgorithm.entry_matrix hop hj, ScoringAlgorithm.entry_matrix hop hk,
      hgap op tier (List.mem_of_getElem? hj) hedge, add_sub_cancel_left]

/-- What becomes of one operator under such a plan. -/
theorem candidateOf_allToCloud {deltaH : ℚ} {placement optimal : Dict String String} {scores : Scores ℚ}
    (h : AllToCloud placement.keys scores optimal) {i : Nat} {op tier : String} (hop : placement.keys[i]? = some op)
    (hget : placement.get op = some tier) : candidateOf deltaH placement optimal scores tiers op i =
      if deltaH ≤ 200 ∧ tier ∈ tiers ∧ tier ≠ "cloud" then some ⟨op, tier, "cloud", 200⟩ else none := by
  obtain ⟨hoptimal, hgap⟩ := h i op hop
  unfold candidateOf
  rw [hget, hoptimal]
  show (if tier = "" ∨ "cloud" = "" ∨ tier = "cloud" then none else _) = _
  by_cases hcloud : tier = "cloud"
  · rw [if_pos (Or.inr (Or.inr hcloud)), if_neg fun h => h.2.2 hcloud]
  · by_cases hempty : tier = ""
    · rw [if_pos (Or.inl hempty), if_neg fun h => absurd (hempty ▸ h.2.1) (by decide)]
    · rw [if_neg (by simp [hcloud, hempty])]
      cases hj : tiers.idxOf? tier with
      | none =>
          have hunknown : tier ∉ tiers := List.idxOf?_eq_none_iff.mp hj
          rw [if_neg fun h => hunknown h.2.1]
          rfl
      | some j =>
          have htier : tier ∈ tiers := List.isSome_idxOf?.mp (by rw [hj]; rfl)
          have hat : tiers[j]? = some tier := by
            rw [List.idxOf?_eq_some_iff] at hj
            obtain ⟨hlt, heq, -⟩ := hj
            exact List.getElem?_eq_some_iff.mpr ⟨hlt, heq⟩
          have hk : tiers.idxOf? "cloud" = some 4 := by decide
          rw [hk]
          show (if PyRuntime.le deltaH (scores.entry i j - scores.entry i 4) then
            some (Candidate.mk op tier "cloud" (scores.entry i j - scores.entry i 4)) else none) = _
          rw [hgap j tier 4 hat (by decide) hcloud]
          by_cases hhigh : deltaH ≤ 200
          · rw [if_pos (Exact.le_iff.mpr hhigh), if_pos ⟨hhigh, htier, hcloud⟩]
          · rw [if_neg (mt Exact.le_iff.mp hhigh), if_neg fun h => hhigh h.1]

/-- **The candidates of a blind cycle** are the operators on record on an edge tier, in the order of the record. -/
theorem candidateList_of_blind (hpreset : o.scoring.weights ∈ weightPresets.values)
    (hblind : o.scoring.telemetry.Blind) (hfew : o.placement.cache.size ≤ 100) :
    o.candidateList = if o.config.deltaH ≤ 200 then cloudMoves o.placement.cache else [] := by
  obtain ⟨scores, optimal, hplan, hall⟩ := plan_of_blind hpreset hblind hfew
  rw [candidateList_of_plan hplan]
  have hlist : o.placement.cache.keys.zipIdx.filterMap (fun x =>
      candidateOf o.config.deltaH o.placement.cache optimal scores tiers x.1 x.2) =
        if o.config.deltaH ≤ 200 then cloudMoves o.placement.cache else [] := by
    have hmove : ∀ x ∈ o.placement.cache.entries.zipIdx,
        candidateOf o.config.deltaH o.placement.cache optimal scores tiers x.1.1 x.2 =
          if o.config.deltaH ≤ 200 ∧ x.1.2 ∈ tiers ∧ x.1.2 ≠ "cloud" then some ⟨x.1.1, x.1.2, "cloud", 200⟩
          else none := by
      rintro ⟨⟨op, tier⟩, i⟩ hx
      have hi : o.placement.cache.entries[i]? = some (op, tier) := List.mem_zipIdx_iff_getElem?.mp hx
      refine candidateOf_allToCloud hall ?_ (Dict.get_eq_some_iff.mpr (List.mem_of_getElem? hi))
      show (o.placement.cache.entries.map Prod.fst)[i]? = some op
      rw [List.getElem?_map, hi]
      rfl
    unfold Dict.keys cloudMoves
    rw [List.zipIdx_map, List.filterMap_map]
    refine (List.filterMap_congr fun x hx => hmove x hx).trans ?_
    by_cases hhigh : o.config.deltaH ≤ 200
    · simp only [hhigh, true_and, if_true]
      conv_rhs => rw [← List.zipIdx_map_fst 0 o.placement.cache.entries, List.filterMap_map]
      rfl
    · simp [hhigh]
  unfold identifyMigrationCandidates
  refine (congrArg (List.insertionSort _) hlist).trans ?_
  -- all improve the score alike, so the order stays
  apply List.Pairwise.insertionSort_eq
  split
  · refine List.Pairwise.imp_of_mem (R := fun _ _ => True) ?_ (List.pairwise_of_forall fun _ _ => trivial)
    intro x y hx hy _
    have hsame : ∀ d ∈ cloudMoves o.placement.cache, d.scoreImprovement = 200 := by
      intro d hd
      obtain ⟨e, -, he⟩ := List.mem_filterMap.mp hd
      obtain ⟨-, he⟩ := Option.ite_none_right_eq_some.mp he
      cases he
      rfl
    rw [hsame x hx, hsame y hy]
    simp
  · exact List.Pairwise.nil

end PlacementOptimizer

/-! ## The controller of `main.run`

Over a whole run, with the telemetry and the weights changing under the cycles: the controller sees none of its tiers
from the start, and no step can change that. -/

namespace Cycles

variable {F : Type} {clients : HeaClients} {c c' : Cycles F}

theorem scoring_record (c : Cycles F) (k : Nat) (op tier : String) (put : Option (Except PyError Unit)) :
    (c.record k op tier put).optimizer.config = c.optimizer.config ∧
      (c.record k op tier put).optimizer.scoring = c.optimizer.scoring := by
  obtain ⟨running, holder, heq⟩ := record_eq c k op tier put
  rw [heq]
  exact ⟨rfl, rfl⟩

theorem scoring_startCandidate (c : Cycles F) (k : Nat) (d : Candidate F) (put : Option (Except PyError Unit)) :
    (c.startCandidate k d put).optimizer.config = c.optimizer.config ∧
      (c.startCandidate k d put).optimizer.scoring = c.optimizer.scoring := by
  unfold startCandidate
  split
  · exact ⟨rfl, rfl⟩
  · dsimp only
    split
    · exact scoring_record { c with optimizer := { c.optimizer with migration := _ } } ..
    · exact ⟨rfl, rfl⟩

/-- The scoring changes by new telemetry and new weights only. -/
theorem scoring_step [PyRuntime F] {a : CyclesStep F} (h : step clients c a = some c') :
    c'.optimizer.config = c.optimizer.config ∧
      (c'.optimizer.scoring = c.optimizer.scoring ∨
        (∃ telemetry, a = .collect telemetry ∧
          c'.optimizer.scoring = { c.optimizer.scoring with telemetry := telemetry }) ∨
        ∃ presetName preset, getWeightPreset presetName = .ok preset ∧
          c'.optimizer.scoring = { c.optimizer.scoring with weights := preset }) := by
  cases a with
  -- a turn starts a migration at most, and that reads the scoring without writing it
  | turn put =>
      obtain ⟨k, -, h⟩ := Option.bind_eq_some_iff.mp h
      obtain ⟨cycle, -, h⟩ := Option.bind_eq_some_iff.mp h
      split at h
      · cases h
        exact ⟨rfl, Or.inl rfl⟩
      · rename_i d rest _
        cases h
        obtain ⟨hconfig, hscoring⟩ := scoring_startCandidate
          { c with cycles := c.cycles.set k { cycle with candidates := rest } } k d put
        exact ⟨hconfig, Or.inl hscoring⟩
  | collect telemetry =>
      obtain ⟨-, hc⟩ := Option.ite_none_left_eq_some.mp h
      cases hc
      exact ⟨rfl, Or.inr (Or.inl ⟨telemetry, rfl, rfl⟩)⟩
  | setWeights presetName =>
      -- the one place where weights are written, if the name is one of a preset
      obtain ⟨-, hc⟩ := Option.ite_none_left_eq_some.mp h
      split at hc
      · rename_i scoring hset
        cases hc
        obtain ⟨preset, hpreset, hset⟩ := bind_eq_ok.mp hset
        cases hset
        exact ⟨rfl, Or.inr (Or.inr ⟨presetName, preset, hpreset, rfl⟩)⟩
      · cases hc
        exact ⟨rfl, Or.inl rfl⟩
  | migration task event =>
      obtain ⟨-, hc⟩ := Option.ite_none_left_eq_some.mp h
      obtain ⟨migration, -, hc⟩ := Option.bind_eq_some_iff.mp hc
      cases hc
      exact ⟨rfl, Or.inl rfl⟩
  | recalibrate =>
      obtain ⟨-, hc⟩ := Option.ite_none_left_eq_some.mp h
      split at hc <;> cases hc <;> exact ⟨rfl, Or.inl rfl⟩
  | acquire put =>
      obtain ⟨-, hc⟩ := Option.ite_none_left_eq_some.mp h
      split at hc
      · cases hc
      · rename_i w waiters _
        cases hc
        obtain ⟨hconfig, hscoring⟩ := scoring_record { c with waiters := waiters } w.cycle w.opType w.tier put
        exact ⟨hconfig, Or.inl hscoring⟩
  | putEnds put =>
      obtain ⟨-, hc⟩ := Option.ite_none_left_eq_some.mp h
      split at hc
      · cases hc
      · cases hc
        exact ⟨rfl, Or.inl rfl⟩

end Cycles

namespace Main

/-- The cycles of `main.run`, from a recorded placement: scored by a preset, with the telemetry that its collection
    loops have on record. -/
def controller (config : AODEConfig ℚ) (heaEndpoints : List String) (initial : Dict String String) :
    Lts (Cycles ℚ) (CyclesStep ℚ) where
  init c := Cycles.Initial initial c ∧ c.optimizer.config = config ∧
    ∃ presetName preset, getWeightPreset presetName = .ok preset ∧
      c.optimizer.scoring = ⟨config, TelemetryCollector.new heaEndpoints, preset⟩
  step c a c' := Cycles.step (heaClients heaEndpoints) c a = some c' ∧
    ∀ telemetry, a = .collect telemetry → Collected heaEndpoints telemetry

end Main

namespace Cycles

variable {config : AODEConfig ℚ} {heaEndpoints : List String} {initial : Dict String String} {c c' : Cycles ℚ}
  {a : CyclesStep ℚ}

theorem mem_weightPresets {presetName : String} {preset : WeightPreset ℚ}
    (h : getWeightPreset presetName = .ok preset) : preset ∈ (weightPresets (F := ℚ)).values := by
  unfold getWeightPreset at h
  split at h
  · rename_i preset' hget
    cases h
    exact Dict.mem_values_of_get hget
  · cases h

/-- A controller that sees none of its tiers. -/
structure SeesNothing (config : AODEConfig ℚ) (c : Cycles ℚ) : Prop where
  config    : c.optimizer.config = config
  telemetry : c.optimizer.scoring.telemetry.Blind
  weights   : c.optimizer.scoring.weights ∈ (weightPresets (F := ℚ)).values

theorem seesNothing_step (hhosts : ∀ ep ∈ heaEndpoints, Main.hostOf ep ∉ tiers) (h : SeesNothing config c)
    (hstep : (Main.controller config heaEndpoints initial).step c a c') : SeesNothing config c' := by
  obtain ⟨hstep, hcollected⟩ := hstep
  obtain ⟨hconfig, hscoring | ⟨telemetry, ha, hscoring⟩ | ⟨presetName, preset, hpreset, hscoring⟩⟩ := scoring_step hstep
  · exact ⟨hconfig.trans h.config, hscoring ▸ h.telemetry, hscoring ▸ h.weights⟩
  · refine ⟨hconfig.trans h.config, ?_, ?_⟩
    · rw [hscoring]
      exact Main.blind_of_collected (hcollected telemetry ha) hhosts
    · rw [hscoring]
      exact h.weights
  · refine ⟨hconfig.trans h.config, ?_, ?_⟩
    · rw [hscoring]
      exact h.telemetry
    · rw [hscoring]
      exact mem_weightPresets hpreset

theorem seesNothing_initial (hhosts : ∀ ep ∈ heaEndpoints, Main.hostOf ep ∉ tiers)
    (h : (Main.controller config heaEndpoints initial).init c) : SeesNothing config c := by
  obtain ⟨-, hconfig, presetName, preset, hpreset, hscoring⟩ := h
  refine ⟨hconfig, ?_, ?_⟩
  · rw [hscoring]
    intro tier htier tel hget
    have hkey := CollectionLoops.keys_new heaEndpoints tier (Dict.mem_keys_iff.mpr ⟨tel, hget⟩)
    obtain ⟨ep, hep, rfl⟩ := List.mem_map.mp hkey
    exact absurd htier (hhosts ep hep)
  · rw [hscoring]
    exact mem_weightPresets hpreset

/-- A move of an operator on record to the cloud. -/
def ToCloud (initial : Dict String String) (op _source target : String) : Prop :=
  op ∈ initial.keys ∧ target = "cloud"

theorem toCloud_of_candidates (hsees : SeesNothing config c) (hmoves : Moves (ToCloud initial) initial c)
    (hfew : initial.size ≤ 100) {cs : List (Candidate ℚ)} (hcs : c.optimizer.candidates = .ok (some cs)) :
    ∀ d ∈ cs, ToCloud initial d.operatorType d.sourceTier d.targetTier := by
  have hlist : c.optimizer.candidateList = cs := by
    unfold candidateList
    rw [hcs]
  rw [candidateList_of_blind hsees.weights hsees.telemetry (hmoves.size.trans_le hfew)] at hlist
  intro d hd
  rw [← hlist] at hd
  split at hd
  · obtain ⟨e, he, hd⟩ := List.mem_filterMap.mp hd
    obtain ⟨-, hd⟩ := Option.ite_none_right_eq_some.mp hd
    cases hd
    exact ⟨hmoves.keys ▸ List.mem_map_of_mem he, rfl⟩
  · cases hd

/-- **A controller none of whose hosts is called like a tier decides without its telemetry**, in every run: each cycle
    finds exactly the operators on record on an edge tier, all migrations go to the cloud, and an operator leaves its
    tier for the cloud only. Along the run every tier stays one that was never reached (`SeesNothing`), so it is scored
    with the defaults: the edge tiers cost the same, each 200 more than the cloud, and the candidates of a cycle can be
    read off its record. -/
theorem decides_blindly (hhosts : ∀ ep ∈ heaEndpoints, Main.hostOf ep ∉ tiers) (hfew : initial.size ≤ 100)
    (h : (Main.controller config heaEndpoints initial).Reachable c) :
    c.optimizer.candidateList = (if config.deltaH ≤ 200 then cloudMoves c.optimizer.placement.cache else []) ∧
      (∀ t ∈ c.optimizer.migration.tasks, t.migration.targetTier = "cloud") ∧
      ∀ op tier, c.optimizer.placement.cache.get op = some tier → initial.get op = some tier ∨ tier = "cloud" := by
  have hinv : SeesNothing config c ∧ Moves (ToCloud initial) initial c := by
    refine h.invariant (I := fun c => SeesNothing config c ∧ Moves (ToCloud initial) initial c)
      (fun c₀ h₀ => ⟨seesNothing_initial hhosts h₀, .of_initial h₀.1⟩) ?_
    rintro c₀ a c₁ ⟨hsees, hmoves⟩ hstep
    refine ⟨seesNothing_step hhosts hsees hstep, ?_⟩
    exact hmoves.step (fun _ _ _ hP => hP.1) (fun _ => toCloud_of_candidates hsees hmoves hfew) hstep.1
  obtain ⟨hsees, hmoves⟩ := hinv
  refine ⟨?_, fun t ht => (hmoves.started t ht).2, fun op tier hget => ?_⟩
  · rw [candidateList_of_blind hsees.weights hsees.telemetry (hmoves.size.trans_le hfew), hsees.config]
  · rcases hmoves.recorded op tier hget with hinitial | ⟨source, hP⟩
    · exact Or.inl hinitial
    · exact Or.inr hP.2

/-- A deployment with one operator at the edge and one in the cloud. -/
def deployed : Cycles ℚ where
  optimizer :=
    { config    := .default
      scoring   := ⟨.default, .new Main.defaultEndpoints, ⟨"balanced", 0.30, 0.30, 0.20, 0.20⟩⟩
      migration := .new
      placement := ⟨Dict.ofList [("RiskCheck", "edge-node-1"), ("StatAggregator", "cloud")]⟩ }
  cycles  := []
  running := none
  holder  := none
  waiters := []

/-- The first cycle has started its one migration. -/
theorem decides_blindly_deployed :
    ∃ c, (Main.controller .default Main.defaultEndpoints deployed.optimizer.placement.cache).Reachable c ∧
      c.optimizer.placement.cache.get "RiskCheck" = some "cloud" ∧ c.optimizer.candidateList = [] ∧
      ∀ t ∈ c.optimizer.migration.tasks, t.migration.targetTier = "cloud" := by
  have hrun : ((step (Main.heaClients Main.defaultEndpoints) deployed .recalibrate).bind fun c =>
      (step (Main.heaClients Main.defaultEndpoints) c (.turn none)).map fun c' =>
        c'.optimizer.placement.cache.entries) = some [("RiskCheck", "cloud"), ("StatAggregator", "cloud")] := by
    decide +kernel
  obtain ⟨c, hc, hrun⟩ := Option.bind_eq_some_iff.mp hrun
  obtain ⟨c', hc', hentries⟩ := Option.map_eq_some_iff.mp hrun
  have hinit : (Main.controller .default Main.defaultEndpoints deployed.optimizer.placement.cache).init deployed :=
    ⟨⟨rfl, rfl, rfl, rfl, rfl, rfl⟩, rfl, "balanced", _, rfl, rfl⟩
  have hreach := ((Lts.Reachable.of_init hinit).tail ⟨hc, nofun⟩).tail ⟨hc', nofun⟩
  obtain ⟨hlist, htasks, -⟩ := decides_blindly (by decide) (by decide) hreach
  refine ⟨c', hreach, ?_, ?_, htasks⟩
  · exact Dict.get_eq_some_iff.mpr (hentries ▸ List.mem_cons_self)
  · rw [hlist]
    unfold cloudMoves
    rw [hentries]
    decide +kernel

end Cycles

end Aode
end HybridStream
