import HybridStream.Aode.Correctness.Preference

/-!
# `Aode.Correctness.OrderIndependence` — the placement does not depend on the order of the operators

What an assignment does with an operator depends on its name and its row (`assign_row`), so the loop runs over
named rows. Those are sorted by row minimum; where the minima differ, a list of them has only one such order.

What is compared are two runs of the whole loop, over two lists of the same operators. They meet in one sorted list of
named rows, and from there on they are the same run; ties are where the stable sort would keep the order of the list.
-/

namespace HybridStream
namespace Aode

open Lib Py

/-! ## Named rows

An operator with its row of scores instead of the number of the row: an assignment only looks at the row. -/

section Rows

variable {F : Type} [PyRuntime F]

/-- An operator with its row. -/
def namedRow (scores : Scores F) (x : String × Nat) : String × List F := (x.1, scores.getD x.2 [])

/-- One operator is assigned, by its row alone. -/
def Plan.assignRow (tiers : List String) (caps : Dict String Nat) (plan : Plan) (row : String × List F) : Plan :=
  plan.assign [row.2] tiers caps (row.1, 0)

variable {scores scores' : Scores F} {ops ops' tiers : List String} {caps : Dict String Nat}

theorem entry_row (scores : Scores F) (i : Nat) : Scores.entry [scores.getD i []] 0 = scores.entry i := rfl

theorem assign_row (plan : Plan) (x : String × Nat) :
    plan.assign scores tiers caps x = plan.assignRow tiers caps (namedRow scores x) := by
  unfold Plan.assignRow namedRow Plan.assign tierScores
  rw [entry_row]

theorem foldl_assign (order : List (String × Nat)) (plan : Plan) :
    order.foldl (Plan.assign scores tiers caps) plan =
      (order.map (namedRow scores)).foldl (Plan.assignRow tiers caps) plan := by
  rw [List.foldl_map]
  exact List.foldl_ext _ _ _ fun plan x _ => assign_row plan x

omit [PyRuntime F] in
theorem map_namedRow_zipIdx (hlen : scores.length = ops.length) :
    ops.zipIdx.map (namedRow scores) = ops.zip scores := by
  apply List.ext_getElem
  · rw [List.length_map, List.length_zipIdx, List.length_zip, hlen, Nat.min_self]
  · intro i h h'
    rw [List.length_map, List.length_zipIdx] at h
    have hi : i < scores.length := hlen ▸ h
    rw [List.getElem_map, List.getElem_zipIdx, List.getElem_zip]
    unfold namedRow
    rw [Nat.zero_add, List.getD_eq_getElem?_getD, List.getElem?_eq_getElem hi, Option.getD_some]

end Rows

/-! ## One order

The operators are assigned by falling minimum. Where the minima differ that is one order, however the rows are listed;
where they do not, the sort keeps the order in which they come. -/

variable {F : Type} [LinearOrder F] [PyRuntime F] [OrderedRuntime F]
variable {scores scores' : Scores F} {ops ops' tiers : List String} {caps : Dict String Nat}

/-- No two operators have the same least score. -/
def DistinctMinima (scores : Scores F) (ops tiers : List String) : Prop :=
  ∀ i < ops.length, ∀ j < ops.length, rowMin scores tiers i = rowMin scores tiers j → i = j

/-- The rows come in falling order of their minima. -/
theorem namedRows_pairwise {order : List (String × Nat)} (h : assignmentOrder scores ops tiers = .ok order) :
    (order.map (namedRow scores)).Pairwise (fun x y => rowMin [y.2] tiers 0 ≤ rowMin [x.2] tiers 0) := by
  rw [List.pairwise_map]
  exact assignmentOrder_pairwise h

omit [LinearOrder F] [OrderedRuntime F] in
theorem namedRows_perm {order : List (String × Nat)} (hlen : scores.length = ops.length)
    (h : assignmentOrder scores ops tiers = .ok order) : (order.map (namedRow scores)).Perm (ops.zip scores) := by
  rw [← map_namedRow_zipIdx hlen]
  exact (assignmentOrder_perm h).map _

omit [OrderedRuntime F] in
/-- Where the minima differ, they tell the rows apart. -/
theorem DistinctMinima.inj (hmin : DistinctMinima scores ops tiers) (hlen : scores.length = ops.length)
    {x y : String × List F} (hx : x ∈ ops.zip scores) (hy : y ∈ ops.zip scores)
    (heq : rowMin [x.2] tiers 0 = rowMin [y.2] tiers 0) : x = y := by
  rw [← map_namedRow_zipIdx hlen, List.mem_map] at hx hy
  obtain ⟨⟨op, i⟩, hi, rfl⟩ := hx
  obtain ⟨⟨op', j⟩, hj, rfl⟩ := hy
  have hi := List.mem_zipIdx_iff_getElem?.mp hi
  have hj := List.mem_zipIdx_iff_getElem?.mp hj
  have hsame : i = j :=
    hmin i (List.getElem?_eq_some_iff.mp hi).1 j (List.getElem?_eq_some_iff.mp hj).1 heq
  subst hsame
  rw [show ops[i]? = some op from hi] at hj
  cases hj
  rfl

/-- **The operators are assigned in the same order**, with the same rows. -/
theorem namedRows_eq {order order' : List (String × Nat)} (hlen : scores.length = ops.length)
    (hlen' : scores'.length = ops'.length) (hperm : (ops'.zip scores').Perm (ops.zip scores))
    (hmin : DistinctMinima scores ops tiers) (h : assignmentOrder scores ops tiers = .ok order)
    (h' : assignmentOrder scores' ops' tiers = .ok order') :
    order'.map (namedRow scores') = order.map (namedRow scores) := by
  have hrows := namedRows_perm hlen h
  have hrows' := (namedRows_perm hlen' h').trans hperm
  apply List.Perm.eq_of_pairwise (fun x y hx hy hyx hxy => ?_) (namedRows_pairwise h') (namedRows_pairwise h)
    (hrows'.trans hrows.symm)
  exact hmin.inj hlen (hrows'.mem_iff.mp hx) (hrows.mem_iff.mp hy) (le_antisymm hxy hyx)

omit [LinearOrder F] [OrderedRuntime F] in
/-- Without a column the first row already has no minimum. -/
theorem findOptimalPlacement_no_tiers (scores : Scores F) (hops : ops ≠ []) (caps : Dict String Nat) :
    findOptimalPlacement scores ops [] caps =
      .error ⟨.valueError, "zero-size array to reduction operation minimum which has no identity"⟩ := by
  cases ops with
  | nil => exact absurd rfl hops
  | cons op ops => rfl

theorem findOptimalPlacement_perm (hlen : scores.length = ops.length) (hlen' : scores'.length = ops'.length)
    (hperm : (ops'.zip scores').Perm (ops.zip scores)) (hmin : DistinctMinima scores ops tiers)
    (caps : Dict String Nat) :
    findOptimalPlacement scores' ops' tiers caps = findOptimalPlacement scores ops tiers caps := by
  have hlength : ops'.length = ops.length := by
    have h := hperm.length_eq
    rw [List.length_zip, List.length_zip, hlen, hlen', Nat.min_self, Nat.min_self] at h
    exact h
  by_cases hnone : tiers = [] → ops = []
  · have hnone' : tiers = [] → ops' = [] := by
      intro h
      rw [← List.length_eq_zero_iff, hlength, hnone h, List.length_nil]
    obtain ⟨placement, h⟩ := exists_findOptimalPlacement scores ops tiers caps hnone
    obtain ⟨placement', h'⟩ := exists_findOptimalPlacement scores' ops' tiers caps hnone'
    obtain ⟨order, horder, hfold⟩ := bind_eq_ok.mp h
    obtain ⟨order', horder', hfold'⟩ := bind_eq_ok.mp h'
    rw [h, h', ← hfold, ← hfold']
    dsimp only
    rw [foldl_assign, foldl_assign, namedRows_eq hlen hlen' hperm hmin horder horder']
  · obtain ⟨rfl, hops⟩ := Classical.not_imp.mp hnone
    have hops' : ops' ≠ [] := by
      intro h
      rw [h] at hlength
      exact hops (List.length_eq_zero_iff.mp hlength.symm)
    rw [findOptimalPlacement_no_tiers scores hops, findOptimalPlacement_no_tiers scores' hops']

/-- The optimizer plans the same placement from a cache with the same entries in another order. -/
theorem plan_perm {o : PlacementOptimizer F} {reloaded : PlacementState} {optimal : Dict String String}
    (hperm : reloaded.cache.entries.Perm o.placement.cache.entries) (hplan : o.plan = .ok (scores, optimal))
    (hmin : DistinctMinima scores o.placement.cache.keys PlacementState.getTierCapacities.keys) :
    ∃ scores', { o with placement := reloaded }.plan = .ok (scores', optimal) := by
  obtain ⟨scores₀, hscores, h⟩ := bind_eq_ok.mp hplan
  obtain ⟨optimal₀, hoptimal, h⟩ := bind_eq_ok.mp h
  cases h
  have hkeys : reloaded.cache.keys.Perm o.placement.cache.keys := hperm.map Prod.fst
  obtain ⟨scores', hscores', hzip⟩ := mapM_perm hkeys hscores
  have hlen := (mapM_eq_ok hscores).length_eq.symm
  have hlen' := (mapM_eq_ok hscores').length_eq.symm
  refine ⟨scores', bind_eq_ok.mpr ⟨scores', hscores', bind_eq_ok.mpr ⟨optimal, ?_, rfl⟩⟩⟩
  exact (findOptimalPlacement_perm hlen hlen' hzip hmin _).trans hoptimal

/-- **Placement does not depend on the order of the operators**, where no two have the same least score: the rows listed
    in another order give the same placement, and so does a reloaded cache. Both lists are sorted by the least scores,
    which have one order if they are different, and from there on the two runs are the same. -/
theorem placement_order_independent :
    (∀ (scores scores' : Scores F) (ops ops' tiers : List String) (caps : Dict String Nat),
      scores.length = ops.length → scores'.length = ops'.length → (ops'.zip scores').Perm (ops.zip scores) →
      DistinctMinima scores ops tiers →
      findOptimalPlacement scores' ops' tiers caps = findOptimalPlacement scores ops tiers caps) ∧
    (∀ (o : PlacementOptimizer F) (reloaded : PlacementState) (scores : Scores F) (optimal : Dict String String),
      reloaded.cache.entries.Perm o.placement.cache.entries → o.plan = .ok (scores, optimal) →
      DistinctMinima scores o.placement.cache.keys PlacementState.getTierCapacities.keys →
      ∃ scores', { o with placement := reloaded }.plan = .ok (scores', optimal)) :=
  ⟨fun _ _ _ _ _ caps hlen hlen' hperm hmin => findOptimalPlacement_perm hlen hlen' hperm hmin caps,
    fun _ _ _ _ hperm hplan hmin => plan_perm hperm hplan hmin⟩

instance (scores : Scores F) (ops tiers : List String) : Decidable (DistinctMinima scores ops tiers) :=
  inferInstanceAs (Decidable (∀ i < _, ∀ j < _, _ → _))

/-- Three operators for two places on the cheap tier, listed the other way round. -/
theorem placement_order_independent_three :
    findOptimalPlacement ([[4, 7], [1, 2], [3, 9]] : Scores ℚ) ["op-3", "op-2", "op-1"] ["edge-node-1", "cloud"]
        (Dict.ofList [("edge-node-1", 2), ("cloud", 1)]) =
      findOptimalPlacement ([[3, 9], [1, 2], [4, 7]] : Scores ℚ) ["op-1", "op-2", "op-3"] ["edge-node-1", "cloud"]
        (Dict.ofList [("edge-node-1", 2), ("cloud", 1)]) :=
  placement_order_independent.1 _ _ _ _ _ _ rfl rfl
    (List.reverse_perm (["op-1", "op-2", "op-3"].zip ([[3, 9], [1, 2], [4, 7]] : Scores ℚ))) (by decide +kernel)

end Aode
end HybridStream
