import HybridStream.Aode.Placement
import HybridStream.Lib.Assignment
import HybridStream.Py.Exact

/-!
# `Aode.Correctness.Capacity` — the plan respects the capacities, and a cycle carries out a part of it

`find_optimal_placement` never plans more operators on a tier than it has room for (`plan_load_le`): while there are
fewer operators than places, an assignment finds a tier with room (`PlanInv.assign_eq`), and what each assignment keeps
holds of the whole plan (`plan_induct`). A cycle carries out only the moves that improve a score by `delta_h`; where all
of them are started, the operators that move are where the plan has them and the others where they were
(`cache_after_run_of_plan`). What that means for the capacities is in `Aode.Correctness.OverfullTier`.
-/

namespace HybridStream
namespace Aode

open Lib Py

variable {F : Type} [PyRuntime F]

/-! ## The plan respects the capacities

The loop assigns one operator after the other, each to a tier with room as long as there is one. While fewer operators
are assigned than there are places, one has room, so the fallback is never taken. -/

section Plan

variable {scores : Scores F} {tiers : List String} {caps : Dict String Nat} {plan : Plan}

/-- What the assignment loop keeps: the operators assigned so far, in order, on tiers of the list, and the
    usage counts are the loads and within the capacities. -/
structure PlanInv (tiers : List String) (caps : Dict String Nat) (plan : Plan) (done : List String) : Prop where
  keys  : plan.placement.keys = done
  known : ∀ t ∈ plan.placement.values, t ∈ tiers
  usage : ∀ t, plan.tierUsage.getD t 0 = plan.placement.load t
  room  : ∀ t ∈ tiers, plan.placement.load t ≤ caps.getD t 0

theorem mem_tierScores (scores : Scores F) (i : Nat) {t : String} :
    (∃ x ∈ tierScores scores tiers i, x.1 = t) ↔ t ∈ tiers := by
  have hperm : (tierScores scores tiers i).Perm _ := List.perm_insertionSort _ _
  have hfst : ((tierScores scores tiers i).map Prod.fst).Perm tiers := by
    refine (hperm.map Prod.fst).trans ?_
    rw [List.map_map]
    exact List.Perm.of_eq (List.zipIdx_map_fst 0 tiers)
  rw [← hfst.mem_iff, List.mem_map]

/-- **One assignment** takes the first tier in the order of scores that has room, or `cloud` if there is none. -/
theorem Plan.assign_cases (scores : Scores F) (tiers : List String) (caps : Dict String Nat) (plan : Plan) (op : String)
    (i : Nat) :
    (∃ x, (tierScores scores tiers i).find? (fun x => decide (plan.tierUsage.getD x.1 0 < caps.getD x.1 0)) = some x ∧
      x.1 ∈ tiers ∧ plan.tierUsage.getD x.1 0 < caps.getD x.1 0 ∧
      plan.assign scores tiers caps (op, i) =
        ⟨plan.placement.set op x.1, plan.tierUsage.set x.1 (plan.tierUsage.getD x.1 0 + 1)⟩) ∨
    ((∀ t ∈ tiers, ¬ plan.tierUsage.getD t 0 < caps.getD t 0) ∧
      plan.assign scores tiers caps (op, i) = { plan with placement := plan.placement.set op "cloud" }) := by
  unfold Plan.assign
  dsimp only
  cases hfind : (tierScores scores tiers i).find?
      (fun x => decide (plan.tierUsage.getD x.1 0 < caps.getD x.1 0)) with
  | some x =>
      have ht : x.1 ∈ tiers := (mem_tierScores scores i).mp ⟨x, List.mem_of_find?_eq_some hfind, rfl⟩
      have hroom := List.find?_some hfind
      exact Or.inl ⟨x, rfl, ht, of_decide_eq_true hroom, rfl⟩
  | none =>
      refine Or.inr ⟨fun t ht hroom => ?_, rfl⟩
      obtain ⟨x, hx, rfl⟩ := (mem_tierScores scores i).mpr ht
      exact List.find?_eq_none.mp hfind x hx (decide_eq_true hroom)

/-- While there are fewer operators than places, an assignment finds a tier that has room. -/
theorem PlanInv.assign_eq {done : List String} (h : PlanInv tiers caps plan done) (scores : Scores F)
    (op : String) (i : Nat) (hlt : done.length < ∑ t ∈ tiers.toFinset, caps.getD t 0) :
    ∃ x, (tierScores scores tiers i).find? (fun x => decide (plan.placement.load x.1 < caps.getD x.1 0)) = some x ∧
      x.1 ∈ tiers ∧ plan.placement.load x.1 < caps.getD x.1 0 ∧
      plan.assign scores tiers caps (op, i) =
        ⟨plan.placement.set op x.1, plan.tierUsage.set x.1 (plan.tierUsage.getD x.1 0 + 1)⟩ := by
  have hsize : plan.placement.size = done.length := by
    rw [← h.keys]
    exact (List.length_map ..).symm
  obtain ⟨t, ht, hroom⟩ := Dict.exists_room (fun t => caps.getD t 0)
    (fun t ht => List.mem_toFinset.mpr (h.known t ht)) (by rw [hsize]; exact hlt)
  have hcases := Plan.assign_cases scores tiers caps plan op i
  simp only [h.usage] at hcases ⊢
  rcases hcases with hfound | ⟨hfull, -⟩
  · exact hfound
  · exact absurd hroom (hfull t (List.mem_toFinset.mp ht))

/-- One assignment, while there are fewer operators than places. -/
theorem PlanInv.assign {done : List String} {op : String} (h : PlanInv tiers caps plan done)
    (scores : Scores F) (i : Nat) (hop : op ∉ done) (hlt : done.length < ∑ t ∈ tiers.toFinset, caps.getD t 0) :
    PlanInv tiers caps (plan.assign scores tiers caps (op, i)) (done ++ [op]) := by
  have hnew : op ∉ plan.placement.keys := by rw [h.keys]; exact hop
  obtain ⟨x, -, hx, hroom, hassign⟩ := h.assign_eq scores op i hlt
  rw [hassign]
  constructor
  · rw [Dict.keys_set_of_not_mem hnew, h.keys]
  · intro t ht
    rw [Dict.values_set_of_not_mem hnew] at ht
    rcases List.mem_append.mp ht with ht | ht
    · exact h.known t ht
    · rw [List.mem_singleton.mp ht]; exact hx
  · intro t
    rw [Dict.load_set_of_not_mem hnew, Dict.getD_set]
    by_cases ht : t = x.1
    · rw [if_pos ht, if_pos ht.symm, h.usage, ht]
    · rw [if_neg ht, if_neg (Ne.symm ht), Nat.add_zero]
      exact h.usage t
  · intro t ht
    rw [Dict.load_set_of_not_mem hnew]
    by_cases hxt : x.1 = t
    · rw [if_pos hxt, ← hxt]; exact hroom
    · rw [if_neg hxt, Nat.add_zero]; exact h.room t ht

omit [PyRuntime F] in
/-- At its turn an operator is not among those assigned, and is one of them after it. -/
theorem nodup_turn {done : List String} {op : String} {i : Nat} {order : List (String × Nat)}
    (h : (done ++ ((op, i) :: order).map Prod.fst).Nodup) :
    op ∉ done ∧ done ++ ((op, i) :: order).map Prod.fst = (done ++ [op]) ++ order.map Prod.fst := by
  refine ⟨fun hmem => ?_, by simp⟩
  rw [List.map_cons, List.nodup_append] at h
  exact h.2.2 op hmem op List.mem_cons_self rfl

/-- What each assignment keeps holds when all operators are assigned. -/
theorem PlanInv.foldl {done : List String} {Q : Plan → Prop} (h : PlanInv tiers caps plan done) (hQ : Q plan)
    (scores : Scores F) (order : List (String × Nat))
    (hstep : ∀ plan done x, PlanInv tiers caps plan done → x ∈ order → x.1 ∉ done →
      done.length < ∑ t ∈ tiers.toFinset, caps.getD t 0 → Q plan → Q (plan.assign scores tiers caps x))
    (hnodup : (done ++ order.map Prod.fst).Nodup)
    (hlen : done.length + order.length ≤ ∑ t ∈ tiers.toFinset, caps.getD t 0) :
    PlanInv tiers caps (order.foldl (Plan.assign scores tiers caps) plan) (done ++ order.map Prod.fst) ∧
      Q (order.foldl (Plan.assign scores tiers caps) plan) := by
  induction order generalizing plan done with
  | nil => exact ⟨by simpa using h, hQ⟩
  | cons x order ih =>
      obtain ⟨op, i⟩ := x
      rw [List.length_cons] at hlen
      obtain ⟨hop, hsplit⟩ := nodup_turn hnodup
      have hassign := h.assign scores i hop (by omega)
      have hQ' := hstep plan done (op, i) h List.mem_cons_self hop (by omega) hQ
      rw [hsplit] at hnodup ⊢
      refine ih hassign hQ' (fun plan done x h hx => hstep plan done x h (List.mem_cons_of_mem _ hx)) hnodup ?_
      rw [List.length_append, List.length_singleton]
      omega

/-- A monadic map that succeeds carries the arguments along. -/
theorem mapM_fst {α β : Type} {f : α → Except PyError β} {xs : List α} {ys : List (α × β)}
    (h : xs.mapM (fun x => do pure (x, ← f x)) = .ok ys) : ys.map Prod.fst = xs := by
  have hfst : ys.map Prod.fst = xs.map id := by
    apply map_of_mapM h
    intro x y hy
    obtain ⟨b, -, hy⟩ := bind_eq_ok.mp hy
    cases hy
    rfl
  rw [hfst, List.map_id]

theorem assignmentOrder_perm {ops : List String} {order : List (String × Nat)}
    (h : assignmentOrder scores ops tiers = .ok order) : order.Perm ops.zipIdx := by
  unfold assignmentOrder at h
  cases hm : ops.zipIdx.mapM (fun x => do
      pure (x, ← npMin (tiers.zipIdx.map (fun y : String × Nat => scores.entry x.2 y.2)))) with
  | error e => rw [show List.mapM _ ops.zipIdx = _ from hm] at h; cases h
  | ok opMinScores =>
      rw [show List.mapM _ ops.zipIdx = _ from hm] at h
      cases h
      refine ((List.perm_insertionSort _ _).map Prod.fst).trans ?_
      rw [mapM_fst hm]

/-- `find_optimal_placement` fails only on a matrix with rows and no columns. -/
theorem exists_findOptimalPlacement (scores : Scores F) (ops tiers : List String) (caps : Dict String Nat)
    (h : tiers = [] → ops = []) : ∃ placement, findOptimalPlacement scores ops tiers caps = .ok placement := by
  have hmin : ∀ x ∈ ops.zipIdx, ∃ y, (do
      let minScore ← npMin (tiers.zipIdx.map (fun y : String × Nat => scores.entry x.2 y.2))
      pure (x, minScore)) = Except.ok y := by
    intro x hx
    cases htiers : tiers with
    | nil =>
        rw [h htiers] at hx
        exact absurd hx List.not_mem_nil
    | cons t ts => exact ⟨_, rfl⟩
  obtain ⟨rows, hrows⟩ := exists_mapM_ok hmin
  have horder : ∃ order, assignmentOrder scores ops tiers = .ok order :=
    ⟨_, bind_eq_ok.mpr ⟨rows, hrows, rfl⟩⟩
  obtain ⟨order, horder⟩ := horder
  exact ⟨_, bind_eq_ok.mpr ⟨order, horder, rfl⟩⟩

/-- What each assignment keeps holds of the placement `find_optimal_placement` returns, where the operators
    fit into all tiers together. -/
theorem plan_induct {Q : Plan → Prop} {ops : List String} {optimal : Dict String String} (hops : ops.Nodup)
    (hfit : ops.length ≤ ∑ t ∈ tiers.toFinset, caps.getD t 0)
    (h : findOptimalPlacement scores ops tiers caps = .ok optimal)
    (hstart : ∀ usage, Q ⟨∅, usage⟩)
    (hstep : ∀ plan done x, PlanInv tiers caps plan done → x ∈ ops.zipIdx → x.1 ∉ done →
      done.length < ∑ t ∈ tiers.toFinset, caps.getD t 0 → Q plan → Q (plan.assign scores tiers caps x)) :
    ∃ plan done, done.Perm ops ∧ PlanInv tiers caps plan done ∧ Q plan ∧ plan.placement = optimal := by
  unfold findOptimalPlacement at h
  cases horder : assignmentOrder scores ops tiers with
  | error e => rw [horder] at h; cases h
  | ok order =>
      rw [horder] at h
      cases h
      have hperm := assignmentOrder_perm horder
      have hfst : (order.map Prod.fst).Perm ops := by
        refine (hperm.map Prod.fst).trans ?_
        exact List.Perm.of_eq (List.zipIdx_map_fst 0 ops)
      have hinit : PlanInv tiers caps ⟨∅, Dict.ofList (tiers.map (fun tier => (tier, 0)))⟩ [] := by
        constructor
        · rfl
        · exact fun t ht => absurd ht List.not_mem_nil
        · intro t
          rw [Dict.getD_ofList_map_const]
          rfl
        · exact fun t _ => Nat.zero_le _
      have hend := hinit.foldl (hstart _) scores order
        (fun plan done x hinv hx => hstep plan done x hinv (hperm.mem_iff.mp hx))
        (by rw [List.nil_append]; exact hfst.nodup_iff.mpr hops)
        (by rw [List.length_nil, Nat.zero_add, ← List.length_map (f := Prod.fst), hfst.length_eq]; exact hfit)
      exact ⟨_, _, hfst, hend.1, hend.2, rfl⟩

/-- **The optimal placement respects the capacities** where the operators fit into all tiers together. -/
theorem plan_spec {ops : List String} {optimal : Dict String String} (hops : ops.Nodup)
    (hfit : ops.length ≤ ∑ t ∈ tiers.toFinset, caps.getD t 0)
    (h : findOptimalPlacement scores ops tiers caps = .ok optimal) :
    optimal.keys.Perm ops ∧ (∀ t ∈ optimal.values, t ∈ tiers) ∧
      ∀ t ∈ tiers, optimal.load t ≤ caps.getD t 0 := by
  obtain ⟨plan, done, hdone, hinv, -, rfl⟩ := plan_induct (Q := fun _ => True) hops hfit h
    (fun _ => trivial) (fun _ _ _ _ _ _ _ _ => trivial)
  exact ⟨by rw [hinv.keys]; exact hdone, hinv.known, hinv.room⟩

end Plan

/-! ## The cycle carries out a part of the plan

Of the plan a cycle carries out the moves that gain enough and leaves the rest: operators that do not move stay where
they are on record, also where the plan has given their place to another one. -/

namespace PlacementOptimizer

variable {o o' : PlacementOptimizer F} {put : Candidate F → Except PyError Unit}

theorem length_startCandidates_le (put : Candidate F → Except PyError Unit) (cs : List (Candidate F))
    (o : PlacementOptimizer F) :
    (startCandidates put cs o).2.length ≤ cs.length := by
  induction cs generalizing o with
  | nil => exact Nat.le_refl 0
  | cons c cs ih =>
      have hrest := ih (o.startCandidate c (put c)).1
      have hhead : (o.startCandidate c (put c)).2.toList.length ≤ 1 := by
        cases (o.startCandidate c (put c)).2 <;> simp
      rw [startCandidates_cons, List.length_append, List.length_cons]
      omega

/-- Where all candidates are started, each one's target is recorded. -/
theorem cache_startCandidates {cs : List (Candidate F)} {o : PlacementOptimizer F}
    (h : (startCandidates put cs o).2.length = cs.length) :
    (startCandidates put cs o).1.placement.cache =
      o.placement.cache.update (cs.map (fun c => (c.operatorType, c.targetTier))) := by
  induction cs generalizing o with
  | nil => rfl
  | cons c cs ih =>
      have hle := length_startCandidates_le put cs (o.startCandidate c (put c)).1
      rw [startCandidates_cons] at h ⊢
      rw [List.length_append, List.length_cons] at h
      rcases o.startCandidate_cases c (put c) with ⟨-, heq⟩ | ⟨-, _, migration, started, -, heq⟩
      · rw [heq] at h hle
        dsimp only [Option.toList_none, List.length_nil] at h hle
        omega
      · rw [heq] at h ⊢
        dsimp only [Option.toList_some, List.length_singleton] at h ⊢
        rw [ih (by omega)]
        rfl

/-- The tiers of the system. -/
abbrev tiers : List String := PlacementState.getTierCapacities.keys

/-- Whether the planned move of an operator improves its score enough to be started. -/
def moves (o : PlacementOptimizer F) (scores : Scores F) (optimal : Dict String String) (op : String) : Bool :=
  (candidateOf o.config.deltaH o.placement.cache optimal scores tiers op
    (o.placement.cache.keys.idxOf op)).isSome

/-- Every tier hosts at most as many operators as it has room for. -/
def WithinCapacity (p : PlacementState) : Prop :=
  ∀ t capacity, PlacementState.getTierCapacities.get t = some capacity → p.cache.load t ≤ capacity

/-- Every candidate was started. -/
def AllStarted : OptimizationResult F → Prop
  | .noOperators                            => True
  | .completed candidatesEvaluated started => started.length = candidatesEvaluated

/-- The operators that move are the candidates. -/
theorem mem_candidates_iff (o : PlacementOptimizer F) (scores : Scores F) (optimal : Dict String String)
    {op : String} (hop : op ∈ o.placement.cache.keys) :
    (∃ c ∈ identifyMigrationCandidates o.config.deltaH o.placement.cache optimal scores
        o.placement.cache.keys tiers, c.operatorType = op) ↔ o.moves scores optimal op = true := by
  have hidx : o.placement.cache.keys[o.placement.cache.keys.idxOf op]? = some op := by
    rw [List.getElem?_eq_getElem (List.idxOf_lt_length_iff.mpr hop), List.getElem_idxOf]
  unfold moves
  rw [Option.isSome_iff_exists]
  constructor
  · rintro ⟨c, hc, rfl⟩
    obtain ⟨i, hi, hcand⟩ := mem_identifyMigrationCandidates.mp hc
    obtain ⟨hlt, hget⟩ := List.getElem?_eq_some_iff.mp hi
    refine ⟨c, ?_⟩
    rw [← hget, (Dict.keys_nodup o.placement.cache).idxOf_getElem i hlt, hget]
    exact hcand
  · rintro ⟨c, hc⟩
    have hname := (candidateOf_eq_some hc).1
    exact ⟨c, mem_identifyMigrationCandidates.mpr ⟨_, hname ▸ hidx, hname ▸ hc⟩, hname⟩

/-- After a cycle that started all its candidates, the operators that move are where the plan has them and
    the others where they were. -/
theorem cache_after {scores : Scores F} {optimal : Dict String String}
    (h : (startCandidates put (identifyMigrationCandidates o.config.deltaH o.placement.cache optimal scores
        o.placement.cache.keys tiers) o).1 = o')
    (hall : (startCandidates put (identifyMigrationCandidates o.config.deltaH o.placement.cache optimal scores
        o.placement.cache.keys tiers) o).2.length =
      (identifyMigrationCandidates o.config.deltaH o.placement.cache optimal scores
        o.placement.cache.keys tiers).length) :
    o'.placement.cache.keys = o.placement.cache.keys ∧
    ∀ op ∈ o.placement.cache.keys, o'.placement.cache.get op =
      if o.moves scores optimal op then optimal.get op else o.placement.cache.get op := by
  have hcache := cache_startCandidates hall
  rw [h] at hcache
  have hspec : ∀ c ∈ identifyMigrationCandidates o.config.deltaH o.placement.cache optimal scores
      o.placement.cache.keys tiers, c.operatorType ∈ o.placement.cache.keys ∧
        optimal.get c.operatorType = some c.targetTier := by
    intro c hc
    obtain ⟨i, hi, hcand⟩ := mem_identifyMigrationCandidates.mp hc
    exact ⟨List.mem_of_getElem? hi, (candidateOf_eq_some hcand).2.2.1⟩
  have hmem := fun op (hop : op ∈ o.placement.cache.keys) => mem_candidates_iff o scores optimal hop
  generalize identifyMigrationCandidates o.config.deltaH o.placement.cache optimal scores
    o.placement.cache.keys tiers = cs at hcache hspec hmem
  -- a candidate's target is a function of its operator
  have hpairs : cs.map (fun c => (c.operatorType, c.targetTier)) =
      (cs.map Candidate.operatorType).map (fun op => (op, optimal.getD op "")) := by
    rw [List.map_map]
    refine List.map_congr_left fun c hc => ?_
    show (c.operatorType, c.targetTier) = (c.operatorType, optimal.getD c.operatorType "")
    unfold Dict.getD
    rw [(hspec c hc).2, Option.getD_some]
  refine ⟨?_, ?_⟩
  · rw [hcache]
    refine Dict.keys_update_of_mem fun e he => ?_
    obtain ⟨c, hc, rfl⟩ := List.mem_map.mp he
    exact (hspec c hc).1
  · intro op hop
    rw [hcache, hpairs]
    by_cases hin : op ∈ cs.map Candidate.operatorType
    · obtain ⟨c, hc, rfl⟩ := List.mem_map.mp hin
      rw [Dict.get_update_map_of_mem _ _ hin, if_pos ((hmem _ hop).mp ⟨c, hc, rfl⟩), (hspec c hc).2]
      unfold Dict.getD
      rw [(hspec c hc).2, Option.getD_some]
    · have hstays : ¬ o.moves scores optimal op = true := by
        intro hmoves
        obtain ⟨c, hc, hcop⟩ := (hmem op hop).mpr hmoves
        exact hin (List.mem_map.mpr ⟨c, hc, hcop⟩)
      rw [Dict.get_update_map_of_not_mem _ _ hin, if_neg hstays]

/-- So it is after a cycle, however it comes about that nothing was started. -/
theorem cache_after_run_of_plan {scores : Scores F} {optimal : Dict String String} {result : OptimizationResult F}
    (hplan : o.plan = .ok (scores, optimal)) (hrun : o.runOptimization put = .ok (result, o'))
    (hall : AllStarted result) :
    o'.placement.cache.keys = o.placement.cache.keys ∧
    ∀ op ∈ o.placement.cache.keys, o'.placement.cache.get op =
      if o.moves scores optimal op then optimal.get op else o.placement.cache.get op := by
  rcases runOptimization_eq_ok hrun with ⟨-, rfl, hnone⟩ | ⟨cs, hcs, hcache, rfl⟩
  · rcases candidates_eq_ok hnone with ⟨-, hkeys⟩ | ⟨_, _, -, habsurd⟩
    · refine ⟨rfl, fun op hop => ?_⟩
      rw [hkeys] at hop
      exact absurd hop List.not_mem_nil
    · exact absurd habsurd (by simp)
  · rcases candidates_eq_ok hcs with ⟨habsurd, -⟩ | ⟨scores', optimal', hplan', hsome⟩
    · exact absurd habsurd (by simp)
    · cases hsome
      rw [hplan] at hplan'
      cases hplan'
      exact cache_after hcache.symm hall

/-- The room on all tiers together. -/
def totalCapacity : Nat := PlacementState.getTierCapacities.values.sum

theorem plan_load_le {scores : Scores F} {optimal : Dict String String}
    (hfit : o.placement.cache.size ≤ totalCapacity) (hplan : o.plan = .ok (scores, optimal)) :
    optimal.keys.Perm o.placement.cache.keys ∧
      ∀ t capacity, PlacementState.getTierCapacities.get t = some capacity → optimal.load t ≤ capacity := by
  have hlen : o.placement.cache.keys.length = o.placement.cache.size := List.length_map ..
  obtain ⟨hkeys, -, hroom⟩ := plan_spec (Dict.keys_nodup o.placement.cache)
    (by rw [hlen]; exact hfit.trans (by decide)) (plan_eq_ok hplan)
  refine ⟨hkeys, fun t capacity ht => ?_⟩
  have hle := hroom t (Dict.mem_keys_iff.mpr ⟨capacity, ht⟩)
  unfold Dict.getD at hle
  rw [ht, Option.getD_some] at hle
  exact hle

/-! ### A crowded tier

A record within the capacities that a cycle takes beyond them: the one arrival finds a tier that is full, and the
operator that the plan wants to make room for it gains too little by leaving. -/

instance (p : PlacementState) : Decidable (WithinCapacity p) :=
  decidable_of_iff (∀ e ∈ PlacementState.getTierCapacities.entries, p.cache.load e.1 ≤ e.2)
    ⟨fun h t capacity ht => h (t, capacity) (Dict.get_eq_some_iff.mp ht),
      fun h e he => h e.1 e.2 (Dict.get_eq_some_iff.mpr he)⟩

instance (result : OptimizationResult F) : Decidable (AllStarted result) := by
  cases result <;> unfold AllStarted <;> infer_instance

/-- Five idle operators fill `edge-node-1`, and `edge-node-2` is almost as cheap. A sixth operator with a
    long latency sits on a tier nobody reaches. -/
def crowded : PlacementOptimizer ℚ where
  config := .default
  scoring :=
    { config := .default
      telemetry := ⟨Dict.ofList
        [ ("edge-node-1", ⟨0, 0, 1, Dict.ofList [("op-6", 100)], true⟩),
          ("edge-node-2", ⟨0, 0, 3 / 2, ∅, true⟩) ]⟩
      weights := ⟨"balanced", 3 / 10, 3 / 10, 2 / 10, 2 / 10⟩ }
  migration := .new
  placement := ⟨Dict.ofList
    [ ("op-1", "edge-node-1"), ("op-2", "edge-node-1"), ("op-3", "edge-node-1"), ("op-4", "edge-node-1"),
      ("op-5", "edge-node-1"), ("op-6", "edge-node-3") ]⟩

/-- The sixth operator is planned on `edge-node-1` and moves there; the fifth is planned on `edge-node-2`
    and stays. -/
theorem crowded_run : ∃ result o', crowded.runOptimization (fun _ => .ok ()) = .ok (result, o') ∧
    AllStarted result ∧ ¬ WithinCapacity o'.placement := by
  have hrun : (match crowded.runOptimization (fun _ => .ok ()) with
      | .ok (result, o') => decide (AllStarted result ∧ ¬ WithinCapacity o'.placement)
      | .error _         => false) = true := by decide +kernel
  cases h : crowded.runOptimization (fun _ => .ok ()) with
  | error e => rw [h] at hrun; exact absurd hrun (by simp)
  | ok p =>
      obtain ⟨result, o'⟩ := p
      rw [h] at hrun
      exact ⟨result, o', rfl, of_decide_eq_true hrun⟩

end PlacementOptimizer

end Aode
end HybridStream
