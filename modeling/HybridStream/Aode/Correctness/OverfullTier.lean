import HybridStream.Aode.Correctness.Recalibration

/-!
# `Aode.Correctness.OverfullTier` — recalibration keeps the capacities exactly where it moves nothing

The plan of a cycle respects the capacities as a whole, but hysteresis carries out a part of it. In exact arithmetic
a score is the operator's own part and the price of the tier (`Separable`), so what a move gains is the difference of
two prices, whatever the operator: only moves to a tier that is `delta_h` cheaper are carried out, and an operator on
a cheapest tier is never moved away, also where the plan needs its place for another one.

So as soon as two prices are `delta_h` apart, a full cheapest tier and one operator elsewhere that the plan puts
there are enough to overfill it (`overfull_of_arrival`), and there is always a record of this kind
(`exists_overfilling`). And as long as no two prices are that far apart, nothing moves at all.
-/

namespace HybridStream
namespace Aode

open Lib Py

namespace PlacementOptimizer

variable {o o' : PlacementOptimizer ℚ} {put : Candidate ℚ → Except PyError Unit} {result : OptimizationResult ℚ}
  {scores : Scores ℚ} {optimal : Dict String String}

/-! ## What a move gains

The row of an operator is its own part and the prices of the tiers, so its own part cancels out of an improvement. -/

theorem separable_of_plan (h : o.plan = .ok (scores, optimal)) :
    ∃ own, Separable scores o.placement.cache.keys tiers own o.scoring.tierPart := by
  obtain ⟨scores', hscores, h⟩ := bind_eq_ok.mp h
  obtain ⟨optimal', -, h⟩ := bind_eq_ok.mp h
  cases h
  exact ⟨_, fun op i hop t j ht => ScoringAlgorithm.computeScores_separable hscores hop ht⟩

theorem mem_zipIdx_of_idxOf? {ts : List String} {t : String} {j : Nat} (h : ts.idxOf? t = some j) :
    (t, j) ∈ ts.zipIdx := by
  obtain ⟨hlt, heq, -⟩ := List.idxOf?_eq_some_iff.mp h
  exact List.mem_zipIdx_iff_getElem?.mpr (List.getElem?_eq_some_iff.mpr ⟨hlt, heq⟩)

/-- **What a candidate gains** is the difference of the prices of its tiers. -/
theorem price_of_candidate {d : Candidate ℚ} (h : d ∈ o.candidateList) :
    d.sourceTier ∈ tiers ∧ d.targetTier ∈ tiers ∧
      o.config.deltaH ≤ o.scoring.tierPart d.sourceTier - o.scoring.tierPart d.targetTier := by
  obtain ⟨scores, optimal, i, hplan, hi, hd⟩ := mem_candidateList.mp h
  obtain ⟨own, hsep⟩ := separable_of_plan hplan
  obtain ⟨j, k, hj, hk, hgain⟩ := candidateOf_gain hd
  have hop : (d.operatorType, i) ∈ o.placement.cache.keys.zipIdx := List.mem_zipIdx_iff_getElem?.mpr hi
  rw [hsep _ _ hop _ _ (mem_zipIdx_of_idxOf? hj), hsep _ _ hop _ _ (mem_zipIdx_of_idxOf? hk),
    add_sub_add_left_eq_sub] at hgain
  exact ⟨List.isSome_idxOf?.mp (by rw [hj]; rfl), List.isSome_idxOf?.mp (by rw [hk]; rfl), Exact.le_iff.mp hgain⟩

/-- An operator that the plan has on a tier that is `delta_h` cheaper is a candidate. -/
theorem moves_of_gain (hplan : o.plan = .ok (scores, optimal)) {op s t : String}
    (hcurrent : o.placement.cache.get op = some s) (hoptimal : optimal.get op = some t) (hs : s ∈ tiers)
    (ht : t ∈ tiers) (hne : s ≠ t) (hgain : o.config.deltaH ≤ o.scoring.tierPart s - o.scoring.tierPart t) :
    o.moves scores optimal op = true := by
  have hnamed : ∀ t ∈ tiers, t ≠ "" := by decide
  obtain ⟨own, hsep⟩ := separable_of_plan hplan
  obtain ⟨j, hj⟩ := Option.isSome_iff_exists.mp (List.isSome_idxOf?.mpr hs)
  obtain ⟨k, hk⟩ := Option.isSome_iff_exists.mp (List.isSome_idxOf?.mpr ht)
  have hop := mem_zipIdx_idxOf (Dict.mem_keys_iff.mpr ⟨s, hcurrent⟩)
  have hscores : PyRuntime.le o.config.deltaH (scores.entry (o.placement.cache.keys.idxOf op) j -
      scores.entry (o.placement.cache.keys.idxOf op) k) = true := by
    rw [hsep _ _ hop _ _ (mem_zipIdx_of_idxOf? hj), hsep _ _ hop _ _ (mem_zipIdx_of_idxOf? hk),
      add_sub_add_left_eq_sub]
    exact Exact.le_iff.mpr hgain
  unfold moves candidateOf
  rw [hcurrent, hoptimal]
  show (if s = "" ∨ t = "" ∨ s = t then none else _ : Option (Candidate ℚ)).isSome = true
  rw [if_neg (by simp [hnamed s hs, hnamed t ht, hne]), hj, hk]
  show (if PyRuntime.le o.config.deltaH _ then some _ else none : Option (Candidate ℚ)).isSome = true
  rw [if_pos hscores]
  rfl

/-- An operator on a cheapest tier is no candidate. -/
theorem stays_on_cheapest (hdelta : 0 < o.config.deltaH) (hplan : o.plan = .ok (scores, optimal)) {op t : String}
    (hcurrent : o.placement.cache.get op = some t)
    (hcheap : ∀ u ∈ tiers, o.scoring.tierPart t ≤ o.scoring.tierPart u) : o.moves scores optimal op = false := by
  rw [Bool.eq_false_iff]
  intro hmoves
  obtain ⟨d, hd, rfl⟩ := (mem_candidates_iff o scores optimal (Dict.mem_keys_iff.mpr ⟨t, hcurrent⟩)).mpr hmoves
  have hmem : d ∈ o.candidateList := by
    rw [candidateList_of_plan hplan]
    exact hd
  obtain ⟨-, htarget, hgain⟩ := price_of_candidate hmem
  obtain ⟨_, _, _, -, -, hcandidate⟩ := mem_candidateList.mp hmem
  have hsource := (candidateOf_eq_some hcandidate).2.1
  rw [hcurrent] at hsource
  rw [← Option.some.inj hsource] at hgain
  have hle := hcheap _ htarget
  linarith

/-! ## A full cheapest tier

Nobody leaves a cheapest tier, so whoever arrives there adds to its load. The plan does send somebody there: it leaves
no cheapest tier unused while a dearer one has operators. -/

/-- What some items are counted for and one more. -/
theorem countP_lt_of_mem {α : Type} {p q : α → Bool} {xs : List α} (h : ∀ x ∈ xs, p x = true → q x = true)
    {x : α} (hx : x ∈ xs) (hp : p x = false) (hq : q x = true) : xs.countP p < xs.countP q := by
  obtain ⟨pre, post, rfl⟩ := List.append_of_mem hx
  have hpre : pre.countP p ≤ pre.countP q := List.countP_mono_left fun y hy => h y (List.mem_append_left _ hy)
  have hpost : post.countP p ≤ post.countP q :=
    List.countP_mono_left fun y hy => h y (List.mem_append_right _ (List.mem_cons_of_mem _ hy))
  rw [List.countP_append, List.countP_append, List.countP_cons_of_neg (by simp [hp]),
    List.countP_cons_of_pos hq]
  omega

/-- **An arrival on a cheapest tier** adds to its load. -/
theorem overfull_of_arrival (hdelta : 0 < o.config.deltaH) (hplan : o.plan = .ok (scores, optimal))
    (hrun : o.runOptimization put = .ok (result, o')) (hall : AllStarted result) {op s t : String}
    (hcheap : ∀ u ∈ tiers, o.scoring.tierPart t ≤ o.scoring.tierPart u) (ht : t ∈ tiers)
    (hcurrent : o.placement.cache.get op = some s) (hs : s ∈ tiers) (hoptimal : optimal.get op = some t)
    (hgain : o.config.deltaH ≤ o.scoring.tierPart s - o.scoring.tierPart t) :
    o.placement.cache.load t < o'.placement.cache.load t := by
  have hne : s ≠ t := by
    rintro rfl
    rw [sub_self] at hgain
    exact absurd hgain (not_le.mpr hdelta)
  have hmoves := moves_of_gain hplan hcurrent hoptimal hs ht hne hgain
  have hop : op ∈ o.placement.cache.keys := Dict.mem_keys_iff.mpr ⟨s, hcurrent⟩
  obtain ⟨hkeys, hget⟩ := cache_after_run_of_plan hplan hrun hall
  rw [Dict.load_eq_countP, Dict.load_eq_countP, hkeys]
  refine countP_lt_of_mem (fun k hk hon => ?_) hop (by simp [hcurrent, hne]) ?_
  · have hcurrentk := of_decide_eq_true hon
    rw [hget k hk, stays_on_cheapest hdelta hplan hcurrentk hcheap]
    exact hon
  · rw [hget op hop, hmoves]
    exact decide_eq_true hoptimal

/-- **The plan uses a cheapest tier**, if it has anyone to place. -/
theorem exists_on_cheapest (hplan : o.plan = .ok (scores, optimal)) (hfit : o.placement.cache.size ≤ totalCapacity)
    (hsome : o.placement.cache.keys ≠ []) :
    ∃ op t, optimal.get op = some t ∧ t ∈ tiers ∧ ∀ u ∈ tiers, o.scoring.tierPart t ≤ o.scoring.tierPart u := by
  obtain ⟨own, hsep⟩ := separable_of_plan hplan
  have hlen : o.placement.cache.keys.length = o.placement.cache.size := List.length_map ..
  have hroom : o.placement.cache.keys.length ≤
      ∑ t ∈ tiers.toFinset, PlacementState.getTierCapacities.getD t 0 := by
    rw [hlen]
    exact hfit.trans (by decide)
  have hfilled := filledFirst_of_plan (Dict.keys_nodup o.placement.cache) hsep hroom (plan_eq_ok hplan)
  obtain ⟨hkeys, hknown, -⟩ := plan_spec (Dict.keys_nodup o.placement.cache) hroom (plan_eq_ok hplan)
  obtain ⟨t, ht, hcheap⟩ := Finset.exists_min_image tiers.toFinset o.scoring.tierPart ⟨"cloud", by decide⟩
  simp only [List.mem_toFinset] at ht hcheap
  by_cases hused : 0 < optimal.load t
  · obtain ⟨e, he, hvalue⟩ := List.mem_map.mp (List.count_pos_iff.mp hused)
    exact ⟨e.1, t, by rw [← hvalue]; exact Dict.get_eq_some_iff.mpr he, ht, hcheap⟩
  · -- an unused tier has room, so whoever is placed pays no more than its price
    obtain ⟨op, hop⟩ := List.exists_mem_of_ne_nil _ hsome
    obtain ⟨u, hget⟩ := Dict.mem_keys_iff.mp (hkeys.mem_iff.mpr hop)
    have hu := hknown u (Dict.mem_values_of_get hget)
    refine ⟨op, u, hget, hu, fun v hv => le_trans ?_ (hcheap v hv)⟩
    by_contra hdearer
    have hfull : PlacementState.getTierCapacities.getD t 0 ≤ optimal.load t :=
      hfilled t (List.mem_toFinset.mpr ht) u (List.mem_toFinset.mpr hu) (not_le.mp hdearer)
        (List.count_pos_iff.mpr (Dict.mem_values_of_get hget))
    have hcapacity : ∀ t ∈ tiers, 0 < PlacementState.getTierCapacities.getD t 0 := by decide
    have hpos := hcapacity t ht
    omega

/-! ## A record that is overfilled

101 operators, one of them on a tier of its own and the others filling a cheapest tier first and then the cloud. Which
of them is the one the plan puts on a cheapest tier depends on their names, and on nothing the record says, so the
record can be made up after the plan is known. -/

/-- A hundred places: those of a tier, and as many on the cloud as are left. -/
def placesFrom (t : String) : List String :=
  List.replicate (PlacementState.getTierCapacities.getD t 0) t ++
    List.replicate (100 - PlacementState.getTierCapacities.getD t 0) "cloud"

theorem length_placesFrom {t : String} (ht : t ∈ tiers) : (placesFrom t).length = 100 := by
  have hall : ∀ t ∈ tiers, (placesFrom t).length = 100 := by decide
  exact hall t ht

/-- With one more operator elsewhere, the tier is full and no tier is overfull. -/
theorem count_placesFrom {s t u : String} (hs : s ∈ tiers) (ht : t ∈ tiers) (hne : s ≠ t) {capacity : Nat}
    (hu : PlacementState.getTierCapacities.get u = some capacity) :
    (s :: placesFrom t).count u ≤ capacity ∧ (u = t → (s :: placesFrom t).count u = capacity) := by
  have hall : ∀ s ∈ tiers, ∀ t ∈ tiers, s ≠ t → ∀ e ∈ PlacementState.getTierCapacities.entries,
      (s :: placesFrom t).count e.1 ≤ e.2 ∧ (e.1 = t → (s :: placesFrom t).count e.1 = e.2) := by
    decide +kernel
  exact hall s hs t ht hne (u, capacity) (Dict.get_eq_some_iff.mp hu)

/-- A hundred and one names. -/
def names : List String := (List.range 101).map (fun i => String.ofList (List.replicate i 'a'))

theorem nodup_names : names.Nodup := by
  refine List.Nodup.map (fun i j h => ?_) List.nodup_range
  have hlength := congrArg (fun s : String => s.toList.length) h
  simpa using hlength

/-- The operator `op` is on `s`, the others have the places from `t` on. -/
def placeOf (op s t name : String) : String := (placesFrom t).getD ((names.erase op).idxOf name) s

/-- The record of these operators. -/
@[irreducible] def crowdedRecord (op s t : String) : Dict String String :=
  Dict.ofList (names.map (fun name => (name, placeOf op s t name)))

theorem entries_crowdedRecord (op s t : String) :
    (crowdedRecord op s t).entries = names.map (fun name => (name, placeOf op s t name)) := by
  unfold crowdedRecord
  apply Dict.entries_ofList
  rw [List.map_map, Function.comp_def, List.map_id']
  exact nodup_names

theorem keys_crowdedRecord (op s t : String) : (crowdedRecord op s t).keys = names := by
  unfold Dict.keys
  rw [entries_crowdedRecord, List.map_map, Function.comp_def, List.map_id']

theorem size_crowdedRecord (op s t : String) : (crowdedRecord op s t).size ≤ totalCapacity := by
  have hlength : (crowdedRecord op s t).keys.length = 101 := by
    rw [keys_crowdedRecord]
    rfl
  unfold Dict.keys at hlength
  rw [List.length_map] at hlength
  show (crowdedRecord op s t).entries.length ≤ totalCapacity
  rw [hlength]
  decide

/-- The one operator has no place among the others. -/
theorem placeOf_self {op : String} (hop : op ∈ names) (s : String) {t : String} (ht : t ∈ tiers) :
    placeOf op s t op = s := by
  have hothers : (names.erase op).length = 100 := by
    rw [List.length_erase_of_mem hop]
    rfl
  unfold placeOf
  rw [List.idxOf_of_notMem nodup_names.not_mem_erase, hothers, List.getD_eq_getElem?_getD,
    List.getElem?_eq_none (length_placesFrom ht).le, Option.getD_none]

theorem get_crowdedRecord {op s t : String} (hop : op ∈ names) (ht : t ∈ tiers) :
    (crowdedRecord op s t).get op = some s := by
  unfold crowdedRecord
  rw [Dict.get_ofList_map, if_pos hop, placeOf_self hop s ht]

/-- Its tiers, up to their order. -/
theorem values_crowdedRecord {op s t : String} (hop : op ∈ names) (ht : t ∈ tiers) :
    (crowdedRecord op s t).values.Perm (s :: placesFrom t) := by
  have hothers : (names.erase op).length = 100 := by
    rw [List.length_erase_of_mem hop]
    rfl
  have hrest : (names.erase op).map (placeOf op s t) = placesFrom t := by
    apply List.ext_getElem
    · rw [List.length_map, hothers, length_placesFrom ht]
    · intro i hi hi'
      rw [List.length_map] at hi
      rw [List.getElem_map]
      unfold placeOf
      rw [(nodup_names.erase op).idxOf_getElem i hi, List.getD_eq_getElem?_getD, List.getElem?_eq_getElem hi']
      rfl
  unfold Dict.values
  rw [entries_crowdedRecord, List.map_map]
  calc names.map (placeOf op s t)
      _ |>.Perm ((op :: names.erase op).map (placeOf op s t)) := (List.perm_cons_erase hop).map _
      _ = s :: placesFrom t := by rw [List.map_cons, placeOf_self hop s ht, hrest]

/-! ## A cycle without migrations in progress

Candidates are about different operators, so where no migration is active they are all started. -/

theorem startCandidates_idle {cs : List (Candidate ℚ)} {o : PlacementOptimizer ℚ}
    (hnodup : (cs.map Candidate.operatorType).Nodup)
    (hidle : ∀ c ∈ cs, o.migration.activeMigrations.contains c.operatorType = false) :
    (startCandidates put cs o).2.length = cs.length := by
  induction cs generalizing o with
  | nil => rfl
  | cons c cs ih =>
      rw [List.map_cons, List.nodup_cons] at hnodup
      rw [startCandidates_cons, List.length_append, List.length_cons]
      rcases o.startCandidate_cases c (put c) with ⟨hactive, -⟩ | ⟨-, _, migration, started, hmigrate, heq⟩
      · rw [hidle c List.mem_cons_self] at hactive
        cases hactive
      · rw [heq]
        have hrest : (startCandidates put cs { o with
            migration := migration
            placement := ⟨o.placement.cache.set c.operatorType c.targetTier⟩ }).2.length = cs.length := by
          refine ih hnodup.2 fun c' hc' => ?_
          have hother : c'.operatorType ≠ c.operatorType := fun heq =>
            hnodup.1 (List.mem_map.mpr ⟨c', hc', heq⟩)
          have hstill := hidle c' (List.mem_cons_of_mem _ hc')
          show migration.activeMigrations.contains c'.operatorType = false
          rw [(PCTROrchestrator.migrateOperator_eq_ok hmigrate).2.1]
          unfold Dict.contains at hstill ⊢
          rw [Dict.get_set_ne _ hother]
          exact hstill
        dsimp only [Option.toList_some, List.length_singleton] at hrest ⊢
        omega

/-- **A cycle of an idle orchestrator** returns, with all its candidates started. -/
theorem exists_run (o : PlacementOptimizer ℚ) (hidle : o.migration = .new) (put : Candidate ℚ → Except PyError Unit) :
    ∃ result o', o.runOptimization put = .ok (result, o') ∧ AllStarted result := by
  obtain ⟨scores, optimal, hplan⟩ := exists_plan o
  by_cases hnone : o.placement.getCurrentPlacement.keys = [] ∨ PlacementState.getAvailableTiers.length < 2
  · refine ⟨.noOperators, o, ?_, trivial⟩
    unfold runOptimization candidates
    dsimp only
    rw [if_pos hnone]
    rfl
  · refine ⟨.completed o.candidateList.length (startCandidates put o.candidateList o).2,
      (startCandidates put o.candidateList o).1, ?_, ?_⟩
    · rw [candidateList_of_plan hplan]
      unfold runOptimization candidates
      dsimp only
      rw [if_neg hnone, hplan]
      rfl
    · apply startCandidates_idle o.candidateList_nodup
      intro c _
      rw [hidle]
      rfl

/-! ## The result -/

/-- A cycle that starts all its candidates takes no placement within the capacities beyond them. -/
def KeepsCapacity (scoring : ScoringAlgorithm ℚ) (deltaH : ℚ) : Prop :=
  ∀ (o o' : PlacementOptimizer ℚ) (put : Candidate ℚ → Except PyError Unit) (result : OptimizationResult ℚ),
    o.scoring = scoring → o.config.deltaH = deltaH → o.placement.cache.size ≤ totalCapacity →
    WithinCapacity o.placement → o.runOptimization put = .ok (result, o') → AllStarted result →
    WithinCapacity o'.placement

/-- No two tiers have prices that are `deltaH` apart. -/
def PricesWithin (scoring : ScoringAlgorithm ℚ) (deltaH : ℚ) : Prop :=
  ∀ s ∈ tiers, ∀ t ∈ tiers, scoring.tierPart s - scoring.tierPart t < deltaH

/-- **Where nothing is gained, nothing moves**: no operator is on record on a tier that is `delta_h` dearer than
    another one. -/
theorem nothing_moves (h : ∀ op s, o.placement.cache.get op = some s → s ∈ tiers → ∀ t ∈ tiers,
      o.scoring.tierPart s - o.scoring.tierPart t < o.config.deltaH)
    (hrun : o.runOptimization put = .ok (result, o')) : o'.placement = o.placement := by
  have hnone : o.candidateList = [] := by
    rw [List.eq_nil_iff_forall_not_mem]
    intro d hd
    obtain ⟨hsource, htarget, hgain⟩ := price_of_candidate hd
    obtain ⟨_, _, _, -, -, hcandidate⟩ := mem_candidateList.mp hd
    have hlt := h _ _ (candidateOf_eq_some hcandidate).2.1 hsource _ htarget
    exact absurd hgain (not_le.mpr hlt)
  rcases runOptimization_eq_ok hrun with ⟨-, rfl, -⟩ | ⟨cs, hcs, rfl, -⟩
  · rfl
  · have hcandidates : cs = o.candidateList := by
      unfold candidateList
      rw [hcs]
    rw [hcandidates, hnone]
    rfl

/-- An optimizer before its first cycle, with a record. -/
def recording (scoring : ScoringAlgorithm ℚ) (deltaH : ℚ) (cache : Dict String String) : PlacementOptimizer ℚ where
  config    := { AODEConfig.default with deltaH := deltaH }
  scoring   := scoring
  migration := .new
  placement := ⟨cache⟩

/-- **Two prices that are `delta_h` apart overfill a tier**: of the made-up record, a cheapest tier. -/
theorem exists_overfilling {scoring : ScoringAlgorithm ℚ} {deltaH : ℚ} (hdelta : 0 < deltaH) {s t : String}
    (hs : s ∈ tiers) (ht : t ∈ tiers) (hgain : deltaH ≤ scoring.tierPart s - scoring.tierPart t) :
    ¬ KeepsCapacity scoring deltaH := by
  intro hkeeps
  -- the plan for the names is the same whatever the record says of them
  obtain ⟨scores, optimal, hplan⟩ := exists_plan (recording scoring deltaH (crowdedRecord "" s t))
  have hnames : (crowdedRecord "" s t).keys ≠ [] := by
    rw [keys_crowdedRecord]
    exact List.ne_nil_of_length_pos (by decide)
  obtain ⟨op, u, hoptimal, hu, hcheap⟩ := exists_on_cheapest hplan (size_crowdedRecord "" s t) hnames
  have hop : op ∈ names := by
    rw [← keys_crowdedRecord "" s t]
    exact (plan_load_le (size_crowdedRecord "" s t) hplan).1.mem_iff.mp (Dict.mem_keys_iff.mpr ⟨u, hoptimal⟩)
  have hgain' : deltaH ≤ scoring.tierPart s - scoring.tierPart u := by
    have hle : scoring.tierPart u ≤ scoring.tierPart t := hcheap t ht
    linarith
  have hne : s ≠ u := by
    rintro rfl
    rw [sub_self] at hgain'
    exact absurd hgain' (not_le.mpr hdelta)
  -- the operator it puts on a cheapest tier is recorded on the dear one, and the others fill the cheap one
  have hsame : (recording scoring deltaH (crowdedRecord op s u)).plan =
      (recording scoring deltaH (crowdedRecord "" s t)).plan := by
    refine plan_congr ?_ ?_
    · rfl
    · show (crowdedRecord op s u).keys = (crowdedRecord "" s t).keys
      rw [keys_crowdedRecord, keys_crowdedRecord]
  have hplan' := hsame.trans hplan
  have hload : ∀ v capacity, PlacementState.getTierCapacities.get v = some capacity →
      (crowdedRecord op s u).load v ≤ capacity ∧ (v = u → (crowdedRecord op s u).load v = capacity) := by
    intro v capacity hv
    unfold Dict.load
    rw [(values_crowdedRecord hop hu).count_eq]
    exact count_placesFrom hs hu hne hv
  obtain ⟨result, o', hrun, hall⟩ := exists_run (recording scoring deltaH (crowdedRecord op s u)) rfl (fun _ => .ok ())
  have harrives : (crowdedRecord op s u).load u < o'.placement.cache.load u :=
    overfull_of_arrival hdelta hplan' hrun hall hcheap hu (get_crowdedRecord hop hu) hs hoptimal hgain'
  have hkept := hkeeps _ o' _ result rfl rfl (size_crowdedRecord op s u)
    (fun v capacity hv => (hload v capacity hv).1) hrun hall
  obtain ⟨capacity, hcapacity⟩ := Dict.mem_keys_iff.mp hu
  have hle := hkept u capacity hcapacity
  rw [(hload u capacity hcapacity).2 rfl] at harrives
  exact absurd hle (not_le.mpr harrives)

end PlacementOptimizer

end Aode
end HybridStream
