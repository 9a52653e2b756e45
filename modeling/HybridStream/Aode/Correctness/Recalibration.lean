import HybridStream.Aode.Controller
import HybridStream.Aode.Correctness.PlacementOptimal
import HybridStream.Aode.Correctness.ScoreTerms

/-!
# `Aode.Correctness.Recalibration` — recalibration settles under fixed telemetry

A plan depends on the operators on record and on the scores (`plan_congr`), so as long as telemetry and
weights stay, every cycle plans the same. A migration that was started has its operator on record where the
plan has it, so the operator is no candidate again; one that was not leaves the record, and so the candidate,
as they were.

`turns` lists what a run's loops come to, among whatever the background migrations do in between.
-/

namespace HybridStream
namespace Aode

open Lib Py

namespace PlacementOptimizer

variable {F : Type} [PyRuntime F]

/-- The candidates of a cycle; a cycle that finds nothing to optimize, or that raises, has none. -/
def candidateList (o : PlacementOptimizer F) : List (Candidate F) :=
  match o.candidates with
  | .ok (some cs) => cs
  | _             => []

/-- The plan depends on the operators, in their order, and on the scoring alone. -/
theorem plan_congr {o o' : PlacementOptimizer F} (hscoring : o'.scoring = o.scoring)
    (hkeys : o'.placement.cache.keys = o.placement.cache.keys) : o'.plan = o.plan := by
  unfold plan PlacementState.getCurrentPlacement
  rw [hscoring, hkeys]

theorem candidateList_of_plan {o : PlacementOptimizer F} {scores : Scores F} {optimal : Dict String String}
    (h : o.plan = .ok (scores, optimal)) :
    o.candidateList = identifyMigrationCandidates o.config.deltaH o.placement.cache optimal scores
      o.placement.cache.keys tiers := by
  unfold candidateList candidates
  dsimp only
  by_cases hnone : o.placement.getCurrentPlacement.keys = [] ∨ PlacementState.getAvailableTiers.length < 2
  · have hkeys : o.placement.cache.keys = [] := hnone.resolve_right (by decide)
    rw [if_pos hnone, hkeys]
    rfl
  · rw [if_neg hnone, h]
    rfl

theorem candidateList_of_error {o : PlacementOptimizer F} {e : PyError} (h : o.plan = .error e) :
    o.candidateList = [] := by
  unfold candidateList candidates
  dsimp only
  split <;> rename_i hres
  · split at hres
    · cases hres
    · rw [h] at hres
      cases hres
  · rfl

/-- A candidate is an operator on record that the plan has on another tier, at least `delta_h` cheaper. -/
theorem mem_candidateList {o : PlacementOptimizer F} {d : Candidate F} :
    d ∈ o.candidateList ↔ ∃ scores optimal i, o.plan = .ok (scores, optimal) ∧
      o.placement.cache.keys[i]? = some d.operatorType ∧
      candidateOf o.config.deltaH o.placement.cache optimal scores tiers d.operatorType i = some d := by
  cases hplan : o.plan with
  | error e =>
      rw [candidateList_of_error hplan]
      simp
  | ok plan =>
      obtain ⟨scores, optimal⟩ := plan
      rw [candidateList_of_plan hplan, mem_identifyMigrationCandidates]
      constructor
      · rintro ⟨i, hi, hd⟩
        exact ⟨scores, optimal, i, rfl, hi, hd⟩
      · rintro ⟨_, _, i, heq, hi, hd⟩
        cases heq
        exact ⟨i, hi, hd⟩

/-- What a candidate gains. -/
theorem candidateOf_gain {deltaH : F} {current optimal : Dict String String} {scores : Scores F}
    {ts : List String} {op : String} {i : Nat} {d : Candidate F}
    (h : candidateOf deltaH current optimal scores ts op i = some d) :
    ∃ j k, ts.idxOf? d.sourceTier = some j ∧ ts.idxOf? d.targetTier = some k ∧
      PyRuntime.le deltaH (scores.entry i j - scores.entry i k) = true := by
  unfold candidateOf at h
  obtain ⟨source, -, h⟩ := Option.bind_eq_some_iff.mp h
  obtain ⟨target, -, h⟩ := Option.bind_eq_some_iff.mp h
  split at h
  · cases h
  · obtain ⟨j, hj, h⟩ := Option.bind_eq_some_iff.mp h
    obtain ⟨k, hk, h⟩ := Option.bind_eq_some_iff.mp h
    dsimp only at h
    split at h
    · rename_i hle
      cases h
      exact ⟨j, k, hj, hk, hle⟩
    · cases h

theorem candidateOf_congr {deltaH : F} {current current' optimal : Dict String String} {scores : Scores F}
    {ts : List String} {op : String} {i : Nat} (h : current'.get op = current.get op) :
    candidateOf deltaH current' optimal scores ts op i = candidateOf deltaH current optimal scores ts op i := by
  unfold candidateOf
  rw [h]

theorem map_filterMap_sublist {α β γ : Type} {f : α → Option β} {g : β → γ} {h : α → γ}
    (hf : ∀ x y, f x = some y → g y = h x) (xs : List α) : ((xs.filterMap f).map g).Sublist (xs.map h) := by
  induction xs with
  | nil => exact List.Sublist.slnil
  | cons x xs ih =>
      cases hx : f x with
      | none => rw [List.filterMap_cons_none hx]; exact ih.cons _
      | some y =>
          rw [List.filterMap_cons_some hx, List.map_cons, List.map_cons, hf x y hx]
          exact ih.cons_cons _

/-- An operator has one row, so at most one candidate is about it. -/
theorem candidateList_nodup (o : PlacementOptimizer F) :
    (o.candidateList.map Candidate.operatorType).Nodup := by
  cases hplan : o.plan with
  | error e => rw [candidateList_of_error hplan]; exact List.nodup_nil
  | ok plan =>
      obtain ⟨scores, optimal⟩ := plan
      rw [candidateList_of_plan hplan]
      unfold identifyMigrationCandidates
      rw [((List.perm_insertionSort _ _).map _).nodup_iff]
      have hsub := map_filterMap_sublist (g := Candidate.operatorType) (h := Prod.fst)
        (f := fun x : String × Nat => candidateOf o.config.deltaH o.placement.cache optimal scores tiers x.1 x.2)
        (fun _ _ hd => (candidateOf_eq_some hd).1) o.placement.cache.keys.zipIdx
      rw [List.zipIdx_map_fst] at hsub
      exact hsub.nodup (Dict.keys_nodup _)

/-- The total current score, over the operators whose recorded tier is a known one. -/
def currentScore (scores : Scores ℚ) (p : PlacementState) : ℚ :=
  p.cache.cost fun op t =>
    match tiers.idxOf? t with
    | some j => scores.entry (p.cache.keys.idxOf op) j
    | none   => 0

theorem getSloMap_ne_zero (op : String) :
    ScoringAlgorithm.sloOf ((PlacementState.getSloMap (F := ℚ)).getD op none) ≠ 0 := by
  have hslos : ∀ ms ∈ (PlacementState.getSloMap (F := ℚ)).values, ms ≠ some 0 := by decide +kernel
  unfold ScoringAlgorithm.sloOf Dict.getD
  cases hget : (PlacementState.getSloMap (F := ℚ)).get op with
  | none => norm_num
  | some ms =>
      have hms := hslos ms (List.mem_map_of_mem (Dict.get_eq_some_iff.mp hget))
      cases ms with
      | none => norm_num
      | some x => exact fun hx => hms (congrArg some hx)

/-- In exact arithmetic a cycle always has a plan: no SLO is zero, and no tier is counted as fully used. -/
theorem exists_plan (o : PlacementOptimizer ℚ) : ∃ scores optimal, o.plan = .ok (scores, optimal) := by
  obtain ⟨scores, hscores⟩ : ∃ scores, o.scoring.computeScores o.placement.cache.keys tiers
      PlacementState.getSloMap PlacementState.getLambdaMap = .ok scores :=
    ⟨_, o.scoring.computeScores_eq _ fun op _ => getSloMap_ne_zero op⟩
  obtain ⟨optimal, hoptimal⟩ := exists_findOptimalPlacement scores o.placement.cache.keys tiers
    PlacementState.getTierCapacities (fun h => absurd h (by decide))
  exact ⟨scores, optimal, bind_eq_ok.mpr ⟨scores, hscores, bind_eq_ok.mpr ⟨optimal, hoptimal, rfl⟩⟩⟩

end PlacementOptimizer

namespace Controller

variable {F : Type} [PyRuntime F] {clients : HeaClients} {c c' c₁ : Controller F} {e : ControllerStep F}
  {es : List (ControllerStep F)}

/-! ## The turns of a run

A run of the controller seen as turns: which candidate the loop came to, and whether its migration was started.
Resumptions of migrations are between the turns, and telemetry is what the result fixes. -/

/-- A turn of the loop over the candidates: the candidate it comes to, and what is entered into
    `migrations_started`; `none` where `migrate_operator` raises. -/
abbrev Turn (F : Type) := Candidate F × Option (StartedMigration F)

/-- The turn a step takes. -/
def turnOf (c : Controller F) : ControllerStep F → List (Turn F)
  | .next put =>
      match c.cycle with
      | some (d :: _) => [(d, (c.optimizer.startCandidate d put).2)]
      | _             => []
  | _ => []

/-- The turns of a run, in order. -/
def turns (clients : HeaClients) (c : Controller F) : List (ControllerStep F) → List (Turn F)
  | []      => []
  | e :: es =>
      match step clients c e with
      | some c' => c.turnOf e ++ turns clients c' es
      | none    => []

/-- The moves of the turns that started a migration. -/
def startedMoves (ts : List (Turn F)) : List (String × String) :=
  (ts.filter (fun t => t.2.isSome)).map (fun t => (t.1.operatorType, t.1.targetTier))

theorem turns_cons (h : step clients c e = some c') :
    turns clients c (e :: es) = c.turnOf e ++ turns clients c' es := by
  rw [turns, h]

omit [PyRuntime F] in
theorem startedMoves_append (ts us : List (Turn F)) : startedMoves (ts ++ us) = startedMoves ts ++ startedMoves us := by
  unfold startedMoves
  rw [List.filter_append, List.map_append]

/-- Whether a step may change the telemetry or the weights. -/
def observes : ControllerStep F → Bool
  | .collect _    => true
  | .setWeights _ => true
  | _             => false

/-- What a step does to the cycle, the record and the scoring. -/
theorem turn_cases (h : step clients c e = some c') :
    (∃ put d rest, e = .next put ∧ c.cycle = some (d :: rest) ∧ c'.cycle = some rest ∧
      c'.optimizer = (c.optimizer.startCandidate d put).1 ∧
      c.turnOf e = [(d, (c.optimizer.startCandidate d put).2)]) ∨
    (e = .recalibrate ∧ c.cycle = none ∧ c'.optimizer = c.optimizer ∧
      c'.cycle.getD [] = c.optimizer.candidateList ∧ c.turnOf e = []) ∨
    (e ≠ .recalibrate ∧ c'.optimizer.placement = c.optimizer.placement ∧
      c'.optimizer.config = c.optimizer.config ∧ (observes e = false → c'.optimizer.scoring = c.optimizer.scoring) ∧
      c'.cycle.getD [] = c.cycle.getD [] ∧ (c.cycle = none → c'.cycle = none) ∧ c.turnOf e = []) := by
  rcases step_eq_some h with ⟨hobserves, scoring, rfl⟩ | ⟨rfl, hidle, hcycle⟩ | ⟨put, rfl, hcycle, rfl⟩ |
    ⟨put, d, rest, rfl, hcycle, rfl⟩ | ⟨task, event, migration, rfl, -, rfl⟩
  · rcases hobserves with ⟨telemetry, rfl⟩ | ⟨presetName, rfl⟩
    · exact Or.inr (Or.inr ⟨by simp, rfl, rfl, (fun h => by cases h), rfl, id, rfl⟩)
    · exact Or.inr (Or.inr ⟨by simp, rfl, rfl, (fun h => by cases h), rfl, id, rfl⟩)
  · -- a cycle begins; where planning raised it has no candidates
    refine Or.inr (Or.inl ⟨rfl, hidle, ?_⟩)
    unfold PlacementOptimizer.candidateList
    rcases hcycle with ⟨cycle, hcandidates, rfl⟩ | ⟨err, hcandidates, rfl⟩
    · refine ⟨rfl, ?_, rfl⟩
      rw [hcandidates]
      cases cycle with
      | none   => rfl
      | some _ => rfl
    · refine ⟨rfl, ?_, rfl⟩
      rw [hcandidates, hidle]
      rfl
  · -- the loop has come to its end
    refine Or.inr (Or.inr ⟨by simp, rfl, rfl, fun _ => rfl, by rw [hcycle]; rfl, fun _ => rfl, ?_⟩)
    simp only [turnOf, hcycle]
  · refine Or.inl ⟨put, d, rest, rfl, hcycle, rfl, rfl, ?_⟩
    simp only [turnOf, hcycle]
  · exact Or.inr (Or.inr ⟨by simp, rfl, rfl, fun _ => rfl, rfl, id, rfl⟩)

/-- What a turn does to the record and the scoring. -/
theorem startCandidate_effect (o : PlacementOptimizer F) (d : Candidate F) (put : Except PyError Unit) :
    (o.startCandidate d put).1.config = o.config ∧ (o.startCandidate d put).1.scoring = o.scoring ∧
    (o.startCandidate d put).1.placement.cache =
      o.placement.cache.update (startedMoves [(d, (o.startCandidate d put).2)]) := by
  rcases o.startCandidate_cases d put with ⟨-, heq⟩ | ⟨-, _, _, _, -, heq⟩
  · rw [heq]
    exact ⟨rfl, rfl, rfl⟩
  · rw [heq]
    exact ⟨rfl, rfl, rfl⟩

/-! ## One cycle

The candidates of a cycle concern different operators, so the record after it is the record before it with the moves
that were started, and each of these lowers the total score by its gain. -/

/-- The loop comes to the candidates in order, all of them by the time it has ended. -/
theorem loop_turns (hrun : Lts.exec (step clients) es c = some c₁) (honce : .recalibrate ∉ es) :
    (turns clients c es).map Prod.fst ++ c₁.cycle.getD [] = c.cycle.getD [] := by
  induction es generalizing c with
  | nil =>
      cases hrun
      rfl
  | cons e es ih =>
      obtain ⟨c', hstep, hrest⟩ := Option.bind_eq_some_iff.mp hrun
      rw [List.mem_cons, not_or] at honce
      have hih := ih hrest honce.2
      rw [turns_cons hstep, List.map_append, List.append_assoc, hih]
      rcases turn_cases hstep with ⟨put, d, rest, -, hcycle, hcycle', -, hturn⟩ | ⟨rfl, -⟩ |
        ⟨-, -, -, -, hcycle, -, hturn⟩
      · -- the turn takes the head of what the loop still has
        rw [hturn, hcycle, hcycle']
        rfl
      · exact absurd rfl honce.1
      · rw [hturn, hcycle]
        rfl

/-- The record after a run is the record before it with the moves it has started. -/
theorem cache_after_run (hrun : Lts.exec (step clients) es c = some c₁) :
    c₁.optimizer.placement.cache =
        c.optimizer.placement.cache.update (startedMoves (turns clients c es)) ∧
      c₁.optimizer.config = c.optimizer.config := by
  induction es generalizing c with
  | nil =>
      cases hrun
      exact ⟨rfl, rfl⟩
  | cons e es ih =>
      obtain ⟨c', hstep, hrest⟩ := Option.bind_eq_some_iff.mp hrun
      obtain ⟨hcache, hconfig⟩ := ih hrest
      rw [turns_cons hstep, startedMoves_append, Dict.update_append]
      rcases turn_cases hstep with ⟨put, d, rest, -, -, -, hopt, hturn⟩ | ⟨-, -, hopt, -, hturn⟩ |
        ⟨-, hplacement, hconf, -, -, -, hturn⟩
      · obtain ⟨hconf, -, heffect⟩ := startCandidate_effect c.optimizer d put
        rw [hturn, ← heffect, ← hopt]
        exact ⟨hcache, hconfig.trans (by rw [hopt, hconf])⟩
      · rw [hturn, ← hopt]
        exact ⟨hcache, hconfig.trans (by rw [hopt])⟩
      · rw [hturn, ← hplacement]
        exact ⟨hcache, hconfig.trans hconf⟩

/-- A cycle's turns are its candidates. -/
theorem cycle_turns {c c₁ : Controller F} {es : List (ControllerStep F)}
    (hrun : Lts.exec (step clients) (.recalibrate :: es) c = some c₁) (honce : .recalibrate ∉ es)
    (hend : c₁.cycle = none) :
    (turns clients c (.recalibrate :: es)).map Prod.fst = c.optimizer.candidateList := by
  obtain ⟨c', hstep, hrest⟩ := Option.bind_eq_some_iff.mp hrun
  have hloop := loop_turns hrest honce
  rw [hend, Option.getD_none, List.append_nil] at hloop
  rcases turn_cases hstep with ⟨_, _, _, heq, -⟩ | ⟨-, -, -, hcycle, hturn⟩ | ⟨hne, -⟩
  · cases heq
  · rw [turns_cons hstep, hturn, List.nil_append, hloop, hcycle]
  · exact absurd rfl hne

omit [PyRuntime F] in
theorem mem_startedMoves {ts : List (Turn F)} {move : String × String} :
    move ∈ startedMoves ts ↔ ∃ t ∈ ts, t.2.isSome = true ∧ (t.1.operatorType, t.1.targetTier) = move := by
  unfold startedMoves
  rw [List.mem_map]
  constructor
  · rintro ⟨t, ht, rfl⟩
    exact ⟨t, (List.mem_filter.mp ht).1, (List.mem_filter.mp ht).2, rfl⟩
  · rintro ⟨t, ht, hsome, rfl⟩
    exact ⟨t, List.mem_filter.mpr ⟨ht, hsome⟩, rfl⟩

/-- The moves of a cycle concern different operators, all of them on record. -/
theorem startedMoves_spec {ts : List (Turn F)} (o : PlacementOptimizer F)
    (hts : ts.map Prod.fst = o.candidateList) :
    ((startedMoves ts).map Prod.fst).Nodup ∧
    ∀ m ∈ startedMoves ts, ∃ d ∈ o.candidateList, (d.operatorType, d.targetTier) = m := by
  constructor
  · -- the started moves are some of the candidates, in their order
    have hsub : ((startedMoves ts).map Prod.fst).Sublist (o.candidateList.map Candidate.operatorType) := by
      rw [← hts]
      unfold startedMoves
      rw [List.map_map, List.map_map]
      exact List.filter_sublist.map _
    exact hsub.nodup o.candidateList_nodup
  · intro m hm
    obtain ⟨t, ht, -, rfl⟩ := mem_startedMoves.mp hm
    exact ⟨t.1, hts ▸ List.mem_map_of_mem ht, rfl⟩

/-- A cycle keeps the operators on record, in their order. -/
theorem keys_after_moves {ts : List (Turn F)} (o : PlacementOptimizer F)
    (hts : ts.map Prod.fst = o.candidateList) :
    (o.placement.cache.update (startedMoves ts)).keys = o.placement.cache.keys := by
  refine Dict.keys_update_of_mem fun m hm => ?_
  obtain ⟨d, hd, rfl⟩ := (startedMoves_spec o hts).2 m hm
  obtain ⟨_, _, i, -, hi, -⟩ := PlacementOptimizer.mem_candidateList.mp hd
  exact List.mem_of_getElem? hi

/-- **Started migrations lower the total score** by `delta_h` each. -/
theorem score_after_moves {o : PlacementOptimizer ℚ} {scores : Scores ℚ} {optimal : Dict String String}
    (hplan : o.plan = .ok (scores, optimal)) {ts : List (Turn ℚ)} (hts : ts.map Prod.fst = o.candidateList) :
    PlacementOptimizer.currentScore scores ⟨o.placement.cache.update (startedMoves ts)⟩ +
        (startedMoves ts).length • o.config.deltaH ≤ PlacementOptimizer.currentScore scores o.placement := by
  obtain ⟨hdistinct, hmoves⟩ := startedMoves_spec o hts
  unfold PlacementOptimizer.currentScore
  rw [keys_after_moves o hts]
  refine Dict.cost_update_le hdistinct fun m hm => ?_
  obtain ⟨d, hd, rfl⟩ := hmoves m hm
  obtain ⟨scores', optimal', i, hplan', hi, hcand⟩ := PlacementOptimizer.mem_candidateList.mp hd
  rw [hplan] at hplan'
  cases hplan'
  obtain ⟨j, k, hj, hk, hgain⟩ := PlacementOptimizer.candidateOf_gain hcand
  -- the candidate's row of the score matrix is its place in the record
  have hrow : o.placement.cache.keys.idxOf d.operatorType = i := by
    obtain ⟨hlt, hget⟩ := List.getElem?_eq_some_iff.mp hi
    rw [← hget]
    exact (Dict.keys_nodup o.placement.cache).idxOf_getElem i hlt
  refine ⟨d.sourceTier, (candidateOf_eq_some hcand).2.1, ?_⟩
  rw [hrow, hj, hk]
  have hle := Exact.le_iff.mp hgain
  show scores.entry i k + o.config.deltaH ≤ scores.entry i j
  linarith

/-- Where the record ends up: a started operator is where the plan has it, another where it was. -/
theorem get_after_moves {ts : List (Turn F)} (o : PlacementOptimizer F)
    (hts : ts.map Prod.fst = o.candidateList) :
    (∀ t ∈ ts, t.2.isSome = true →
      (o.placement.cache.update (startedMoves ts)).get t.1.operatorType = some t.1.targetTier) ∧
    ∀ op, (∀ t ∈ ts, t.2.isSome = true → t.1.operatorType ≠ op) →
      (o.placement.cache.update (startedMoves ts)).get op = o.placement.cache.get op := by
  constructor
  · intro t ht hsome
    exact Dict.get_update_of_mem (startedMoves_spec o hts).1 (mem_startedMoves.mpr ⟨t, ht, hsome, rfl⟩)
  · intro op hop
    refine Dict.get_update_of_not_mem fun hmem => ?_
    obtain ⟨m, hm, rfl⟩ := List.mem_map.mp hmem
    obtain ⟨t, ht, hsome, rfl⟩ := mem_startedMoves.mp hm
    exact hop t ht hsome rfl

/-- **The next cycle has the candidates this one could not start**, if telemetry and weights are the same. -/
theorem candidates_after_moves {o o' : PlacementOptimizer F} {ts : List (Turn F)}
    (hts : ts.map Prod.fst = o.candidateList) (hconfig : o'.config = o.config) (hscoring : o'.scoring = o.scoring)
    (hcache : o'.placement.cache = o.placement.cache.update (startedMoves ts)) (d : Candidate F) :
    d ∈ o'.candidateList ↔ (d, none) ∈ ts := by
  have hkeys : o'.placement.cache.keys = o.placement.cache.keys := by
    rw [hcache]
    exact keys_after_moves o hts
  have hplan := PlacementOptimizer.plan_congr hscoring hkeys
  obtain ⟨hstarted, hother⟩ := get_after_moves o hts
  rw [← hcache] at hstarted hother
  have hfirst : ∀ t ∈ ts, t.1 ∈ o.candidateList := fun t ht => hts ▸ List.mem_map_of_mem ht
  -- an operator that was not started keeps its record, so whether it is a candidate
  have hkept : ∀ d : Candidate F, (∀ t ∈ ts, t.2.isSome = true → t.1.operatorType ≠ d.operatorType) →
      (d ∈ o'.candidateList ↔ d ∈ o.candidateList) := by
    intro d hd
    rw [PlacementOptimizer.mem_candidateList, PlacementOptimizer.mem_candidateList, hplan, hkeys, hconfig]
    simp only [PlacementOptimizer.candidateOf_congr (hother d.operatorType hd)]
  constructor
  · intro hd
    have hnot : ∀ t ∈ ts, t.2.isSome = true → t.1.operatorType ≠ d.operatorType := by
      intro t ht hsome heq
      obtain ⟨scores, optimal, i, hplan', -, hcand⟩ := PlacementOptimizer.mem_candidateList.mp hd
      obtain ⟨_, _, _, hplan'', -, hcand'⟩ := PlacementOptimizer.mem_candidateList.mp (hfirst t ht)
      rw [hplan, hplan''] at hplan'
      cases hplan'
      obtain ⟨-, hsource, htarget, hne⟩ := candidateOf_eq_some hcand
      have hrecord := hstarted t ht hsome
      have hplanned := (candidateOf_eq_some hcand').2.2.1
      rw [heq] at hrecord hplanned
      -- the record of `d`'s operator is its planned tier, yet `d` moves it
      exact hne (Option.some.inj (hsource.symm.trans (hrecord.trans (hplanned.symm.trans htarget))))
    have hmem := (hkept d hnot).mp hd
    rw [← hts] at hmem
    obtain ⟨⟨d', out⟩, ht, rfl⟩ := List.mem_map.mp hmem
    cases out with
    | none => exact ht
    | some started => exact absurd rfl (hnot _ ht rfl)
  · intro ht
    refine (hkept d fun t ht' hsome heq => ?_).mpr (hfirst _ ht)
    -- each operator is a candidate once
    have hsame : t = (d, none) := by
      have hnodup := o.candidateList_nodup
      rw [← hts, List.map_map] at hnodup
      exact List.inj_on_of_nodup_map hnodup ht' ht heq
    rw [hsame] at hsome
    cases hsome

/-! ## Any number of cycles

What was started once is where the plan has it, and the plan is the same as long as the telemetry is; so later cycles
have fewer candidates, and nothing comes back. -/

/-- The operators whose migration the turns have started. -/
def startedOps (ts : List (Turn F)) : List String := (startedMoves ts).map Prod.fst

omit [PyRuntime F] in
theorem startedOps_append (ts us : List (Turn F)) : startedOps (ts ++ us) = startedOps ts ++ startedOps us := by
  unfold startedOps
  rw [startedMoves_append, List.map_append]

/-- What a run without new telemetry keeps, where the operators of `done` have been started: each of them is
    where the plan of the first optimizer has it, and what the loop has still to come to is not among them. -/
structure Settling (o : PlacementOptimizer F) (done : List String) (c : Controller F) : Prop where
  scoring : c.optimizer.scoring = o.scoring
  keys    : c.optimizer.placement.cache.keys = o.placement.cache.keys
  once    : done.Nodup
  settled : ∀ scores optimal, o.plan = .ok (scores, optimal) → ∀ op ∈ done,
              c.optimizer.placement.cache.get op = optimal.get op
  pending : ((c.cycle.getD []).map Candidate.operatorType).Nodup
  planned : ∀ d ∈ c.cycle.getD [], d.operatorType ∉ done ∧ d.operatorType ∈ o.placement.cache.keys ∧
              ∀ scores optimal, o.plan = .ok (scores, optimal) → optimal.get d.operatorType = some d.targetTier

/-- Nothing is started, and nothing is added to what the loop has still to come to. -/
theorem Settling.of_sublist {o : PlacementOptimizer F} {done : List String} (h : Settling o done c)
    (hscoring : c'.optimizer.scoring = c.optimizer.scoring)
    (hplacement : c'.optimizer.placement = c.optimizer.placement)
    (hcycle : (c'.cycle.getD []).Sublist (c.cycle.getD [])) : Settling o done c' where
  scoring := hscoring.trans h.scoring
  keys    := by rw [hplacement]; exact h.keys
  once    := h.once
  settled := by rw [hplacement]; exact h.settled
  pending := h.pending.sublist (hcycle.map _)
  planned := fun d hd => h.planned d (hcycle.subset hd)

/-- The operator of the next candidate is started and entered at its target, where the plan has it. -/
theorem Settling.start {o : PlacementOptimizer F} {done : List String} (h : Settling o done c) {d : Candidate F}
    {rest : List (Candidate F)} (hcycle : c.cycle = some (d :: rest)) (hcycle' : c'.cycle = some rest)
    (hscoring : c'.optimizer.scoring = c.optimizer.scoring)
    (hcache : c'.optimizer.placement.cache = c.optimizer.placement.cache.set d.operatorType d.targetTier) :
    Settling o (done ++ [d.operatorType]) c' := by
  have hpending := h.pending
  have hplanned := h.planned
  rw [hcycle, Option.getD_some] at hpending hplanned
  rw [List.map_cons, List.nodup_cons] at hpending
  obtain ⟨hfresh, hrecorded, htarget⟩ := hplanned d List.mem_cons_self
  constructor
  case scoring => exact hscoring.trans h.scoring
  case keys =>
    rw [hcache, Dict.keys_set_of_mem (by rw [h.keys]; exact hrecorded)]
    exact h.keys
  case once =>
    exact List.nodup_append.mpr ⟨h.once, List.nodup_singleton _, fun op hop op' hop' heq' =>
      hfresh (List.mem_singleton.mp hop' ▸ heq' ▸ hop)⟩
  case settled =>
    intro scores optimal hplan op hop
    rw [hcache, Dict.get_set]
    -- either it is the operator just started, or it was settled before
    by_cases hsame : op = d.operatorType
    · rw [if_pos hsame, hsame, htarget scores optimal hplan]
    · rw [if_neg hsame]
      refine h.settled scores optimal hplan op ((List.mem_append.mp hop).resolve_right fun hin => ?_)
      exact hsame (List.mem_singleton.mp hin)
  case pending => rw [hcycle']; exact hpending.2
  case planned =>
    intro d' hd'
    rw [hcycle', Option.getD_some] at hd'
    obtain ⟨hfresh', hrest⟩ := hplanned d' (List.mem_cons_of_mem _ hd')
    refine ⟨fun hin => ?_, hrest⟩
    rcases List.mem_append.mp hin with hin | hin
    · exact hfresh' hin
    · exact hpending.1 (List.mem_singleton.mp hin ▸ List.mem_map_of_mem hd')

/-- A new cycle plans what the first one planned. -/
theorem Settling.replan {o : PlacementOptimizer F} {done : List String} (h : Settling o done c)
    (hopt : c'.optimizer = c.optimizer) (hcycle : c'.cycle.getD [] = c.optimizer.candidateList) :
    Settling o done c' := by
  have hplan : c.optimizer.plan = o.plan := PlacementOptimizer.plan_congr h.scoring h.keys
  constructor
  case scoring => rw [hopt]; exact h.scoring
  case keys => rw [hopt]; exact h.keys
  case once => exact h.once
  case settled => rw [hopt]; exact h.settled
  case pending => rw [hcycle]; exact c.optimizer.candidateList_nodup
  case planned =>
    intro d hd
    rw [hcycle] at hd
    obtain ⟨scores, optimal, i, hplanned, hi, hcand⟩ := PlacementOptimizer.mem_candidateList.mp hd
    rw [hplan] at hplanned
    obtain ⟨-, hsource, htarget, hne⟩ := candidateOf_eq_some hcand
    refine ⟨fun hdone => ?_, by rw [← h.keys]; exact List.mem_of_getElem? hi, fun scores' optimal' h' => ?_⟩
    · -- a settled operator stands at its planned tier and is no candidate
      have hsettled := h.settled scores optimal hplanned _ hdone
      exact hne (Option.some.inj (hsource.symm.trans (hsettled.trans htarget)))
    · rw [hplanned] at h'
      cases h'
      exact htarget

theorem Settling.step {o : PlacementOptimizer F} {done : List String} (h : Settling o done c)
    (hstep : Controller.step clients c e = some c') (hquiet : observes e = false) :
    Settling o (done ++ startedOps (c.turnOf e)) c' := by
  have hnone : done ++ startedOps ([] : List (Turn F)) = done := List.append_nil done
  rcases turn_cases hstep with ⟨put, d, rest, -, hcycle, hcycle', hopt, hturn⟩ |
    ⟨-, -, hopt, hcycle, hturn⟩ | ⟨-, hplacement, -, hscoring, hcycle, -, hturn⟩
  · rw [hturn]
    rcases c.optimizer.startCandidate_cases d put with ⟨-, heq⟩ | ⟨-, _, migration, started, -, heq⟩
    · -- the operator is already being migrated
      rw [heq] at hopt ⊢
      rw [show startedOps [(d, (c.optimizer, (none : Option (StartedMigration F))).2)] = [] from rfl, List.append_nil]
      refine h.of_sublist (by rw [hopt]) (by rw [hopt]) ?_
      rw [hcycle, hcycle']
      exact List.sublist_cons_self d rest
    · rw [heq] at hopt ⊢
      exact h.start hcycle hcycle' (by rw [hopt]) (by rw [hopt])
  · rw [hturn, hnone]
    exact h.replan hopt hcycle
  · rw [hturn, hnone]
    exact h.of_sublist (hscoring hquiet) hplacement (hcycle ▸ List.Sublist.refl _)

theorem Settling.run {o : PlacementOptimizer F} {done : List String} (h : Settling o done c)
    (hrun : Lts.exec (Controller.step clients) es c = some c₁) (hquiet : ∀ e ∈ es, observes e = false) :
    Settling o (done ++ startedOps (turns clients c es)) c₁ := by
  induction es generalizing c done with
  | nil =>
      cases hrun
      show Settling o (done ++ []) c₁
      rw [List.append_nil]
      exact h
  | cons e es ih =>
      obtain ⟨c', hstep, hrest⟩ := Option.bind_eq_some_iff.mp hrun
      rw [turns_cons hstep, startedOps_append, ← List.append_assoc]
      exact ih (h.step hstep (hquiet e List.mem_cons_self)) hrest (fun e' he' => hquiet e' (List.mem_cons_of_mem _ he'))

theorem settling_of_idle (hidle : c.cycle = none) (hrun : Lts.exec (step clients) es c = some c₁)
    (hquiet : ∀ e ∈ es, observes e = false) : Settling c.optimizer (startedOps (turns clients c es)) c₁ := by
  have hstart : Settling c.optimizer [] c := by
    constructor
    case scoring => rfl
    case keys => rfl
    case once => exact List.nodup_nil
    case settled => exact fun _ _ _ _ hop => absurd hop List.not_mem_nil
    case pending => rw [hidle]; exact List.nodup_nil
    case planned => rw [hidle]; exact fun _ hd => absurd hd List.not_mem_nil
  have hend := hstart.run hrun hquiet
  rwa [List.nil_append] at hend

/-- **Recalibration settles under fixed telemetry.** The first conjunct is a cycle's score, the second what the next
    cycle finds, the third what any number of cycles do. A started move lowers its operator's score by `delta_h` at
    least, on scores that stay; and by `Settling` an operator that was started is where every later plan has it, so it
    is no candidate again. -/
theorem recalibration_settles {c c₁ : Controller ℚ} {es : List (ControllerStep ℚ)} (hidle : c.cycle = none)
    (hrun : Lts.exec (step clients) (.recalibrate :: es) c = some c₁) (honce : .recalibrate ∉ es)
    (hend : c₁.cycle = none) :
    (∃ scores optimal, c.optimizer.plan = .ok (scores, optimal) ∧
      PlacementOptimizer.currentScore scores c₁.optimizer.placement +
          (startedOps (turns clients c (.recalibrate :: es))).length * c.optimizer.config.deltaH ≤
        PlacementOptimizer.currentScore scores c.optimizer.placement) ∧
    (c₁.optimizer.scoring = c.optimizer.scoring →
      (∀ d, d ∈ c₁.optimizer.candidateList ↔ (d, none) ∈ turns clients c (.recalibrate :: es)) ∧
      ((∀ t ∈ turns clients c (.recalibrate :: es), t.2.isSome = true) → c₁.optimizer.candidateList = [])) ∧
    ∀ c₂ es₂, Lts.exec (step clients) es₂ c = some c₂ → (∀ e ∈ es₂, observes e = false) →
      (startedOps (turns clients c es₂)).Nodup := by
  have hts := cycle_turns hrun honce hend
  obtain ⟨hcache, hconfig⟩ := cache_after_run hrun
  refine ⟨?_, fun hscoring => ?_, fun c₂ es₂ hrun₂ hquiet => (settling_of_idle hidle hrun₂ hquiet).once⟩
  · obtain ⟨scores, optimal, hplan⟩ := c.optimizer.exists_plan
    have hscore := score_after_moves hplan hts
    rw [← hcache, nsmul_eq_mul] at hscore
    unfold startedOps
    rw [List.length_map]
    exact ⟨scores, optimal, hplan, hscore⟩
  · have hmem := candidates_after_moves hts hconfig hscoring hcache
    refine ⟨hmem, fun hall => List.eq_nil_iff_forall_not_mem.mpr fun d hd => ?_⟩
    have hnone := hall _ ((hmem d).mp hd)
    cases hnone

/-- Six operators, one of which moves; then there is nothing left to move. -/
theorem recalibration_settles_crowded : ∃ c₁,
    Lts.exec (step ∅) [.recalibrate, .next (.ok ()), .next (.ok ())] ⟨PlacementOptimizer.crowded, none⟩ =
      some c₁ ∧
    (startedOps (turns ∅ ⟨PlacementOptimizer.crowded, none⟩ [.recalibrate, .next (.ok ()), .next (.ok ())])) =
      ["op-6"] ∧
    c₁.optimizer.candidateList = [] := by
  have hrun : (Lts.exec (step ∅) [.recalibrate, .next (.ok ()), .next (.ok ())]
      ⟨PlacementOptimizer.crowded, none⟩).any (fun c₁ => c₁.cycle.isNone) = true := by decide +kernel
  obtain ⟨c₁, hexec, hnone⟩ := (Option.any_eq_true _ _).mp hrun
  have hquiet : ∀ e ∈ [ControllerStep.recalibrate, .next (.ok ()), .next (.ok ())],
      observes (F := ℚ) e = false := by decide
  have hscoring := (settling_of_idle rfl hexec hquiet).scoring
  have hsettled := (recalibration_settles rfl hexec (by simp) (Option.isNone_iff_eq_none.mp hnone)).2.1 hscoring
  exact ⟨c₁, hexec, by decide +kernel, hsettled.2 (by decide +kernel)⟩

end Controller

end Aode
end HybridStream
