import HybridStream.Aode.Correctness.Capacity

/-!
# `Aode.Correctness.Overflow` — the assignment is total and exact in its capacities

`Capacity` follows `find_optimal_placement` while the operators fit into all tiers together. Here they need
not: an operator no tier has room for goes to `cloud` without being counted, whether or not `cloud` is a tier.
The invariant carries how many went there so far.

The count of those that went there is what the capacities are short of, operator by operator: at any turn, either
there is room or all places are taken. So the overflow is the number of operators beyond the total capacity, for any
scores.
-/

namespace HybridStream
namespace Aode

open Lib Py

variable {F : Type} [PyRuntime F] {scores : Scores F} {tiers : List String} {caps : Dict String Nat} {plan : Plan}

/-- The places a tier has: its capacity, and none if it is not one of the tiers. -/
def placesOn (tiers : List String) (caps : Dict String Nat) (t : String) : Nat :=
  if t ∈ tiers then caps.getD t 0 else 0

theorem placesOn_of_mem {t : String} (ht : t ∈ tiers) : placesOn tiers caps t = caps.getD t 0 := if_pos ht

/-- What the assignment loop keeps, `beyond` being the operators sent to `cloud` because no tier had room:
    the usage counts leave them out, and there are none until every tier is full. -/
structure OverflowInv (tiers : List String) (caps : Dict String Nat) (plan : Plan) (done : List String)
    (beyond : Nat) : Prop where
  keys  : plan.placement.keys = done
  known : ∀ t ∈ plan.placement.values, t ∈ tiers ∨ t = "cloud"
  load  : ∀ t, plan.placement.load t = plan.tierUsage.getD t 0 + if t = "cloud" then beyond else 0
  room  : ∀ t, plan.tierUsage.getD t 0 ≤ placesOn tiers caps t
  total : ∑ t ∈ tiers.toFinset, plan.tierUsage.getD t 0 + beyond = done.length
  full  : 0 < beyond → ∀ t ∈ tiers, plan.tierUsage.getD t 0 = placesOn tiers caps t

namespace OverflowInv

variable {done : List String} {beyond : Nat}

/-- The dictionaries the loop starts from. -/
theorem start (tiers : List String) (caps : Dict String Nat) :
    OverflowInv tiers caps ⟨∅, Dict.ofList (tiers.map (fun tier => (tier, 0)))⟩ [] 0 := by
  have hzero : ∀ t, (Dict.ofList (tiers.map (fun tier => (tier, 0)))).getD t 0 = 0 :=
    Dict.getD_ofList_map_const tiers 0
  constructor
  · rfl
  · exact fun t ht => absurd ht List.not_mem_nil
  · intro t
    rw [hzero, Dict.load_empty, ite_self]
  · intro t
    rw [hzero]
    exact Nat.zero_le _
  · rw [Finset.sum_eq_zero fun t _ => hzero t]
    rfl
  · exact fun h => absurd h (Nat.lt_irrefl 0)

/-- An operator goes to a tier with room: then none went beyond the capacities before. -/
theorem place (h : OverflowInv tiers caps plan done beyond) {op t : String} (hop : op ∉ done) (ht : t ∈ tiers)
    (hroom : plan.tierUsage.getD t 0 < caps.getD t 0) :
    OverflowInv tiers caps ⟨plan.placement.set op t, plan.tierUsage.set t (plan.tierUsage.getD t 0 + 1)⟩
      (done ++ [op]) beyond := by
  have hnew : op ∉ plan.placement.keys := by rw [h.keys]; exact hop
  have hplaces : placesOn tiers caps t = caps.getD t 0 := placesOn_of_mem ht
  -- there is room, so nothing has gone beyond the places yet
  have hzero : beyond = 0 := by
    by_contra hne
    have hfull := h.full (Nat.pos_of_ne_zero hne) t ht
    omega
  constructor
  · rw [Dict.keys_set_of_not_mem hnew, h.keys]
  · intro t' ht'
    rw [Dict.values_set_of_not_mem hnew] at ht'
    rcases List.mem_append.mp ht' with ht' | ht'
    · exact h.known t' ht'
    · rw [List.mem_singleton.mp ht']; exact Or.inl ht
  · intro t'
    rw [Dict.load_set_of_not_mem hnew, Dict.getD_set, h.load]
    by_cases heq : t' = t
    · rw [if_pos heq, if_pos heq.symm, heq]; omega
    · rw [if_neg heq, if_neg (Ne.symm heq), Nat.add_zero]
  · intro t'
    rw [Dict.getD_set]
    by_cases heq : t' = t
    · rw [if_pos heq, heq, hplaces]; exact hroom
    · rw [if_neg heq]; exact h.room t'
  -- one operator more on this tier, and one more done
  · rw [← Finset.add_sum_erase _ _ (List.mem_toFinset.mpr ht), Dict.getD_set, if_pos rfl]
    have hrest : ∀ t' ∈ tiers.toFinset.erase t,
        (plan.tierUsage.set t (plan.tierUsage.getD t 0 + 1)).getD t' 0 = plan.tierUsage.getD t' 0 := by
      intro t' ht'
      rw [Dict.getD_set, if_neg (Finset.ne_of_mem_erase ht')]
    have htotal := h.total
    rw [← Finset.add_sum_erase _ _ (List.mem_toFinset.mpr ht)] at htotal
    rw [Finset.sum_congr rfl hrest, List.length_append, List.length_singleton]
    omega
  · exact fun hpos => absurd hpos (by omega)

/-- No tier has room: the operator goes to `cloud`, uncounted. -/
theorem overflow (h : OverflowInv tiers caps plan done beyond) {op : String} (hop : op ∉ done)
    (hfull : ∀ t ∈ tiers, ¬ plan.tierUsage.getD t 0 < caps.getD t 0) :
    OverflowInv tiers caps { plan with placement := plan.placement.set op "cloud" } (done ++ [op])
      (beyond + 1) := by
  have hnew : op ∉ plan.placement.keys := by rw [h.keys]; exact hop
  constructor
  · rw [Dict.keys_set_of_not_mem hnew, h.keys]
  · intro t ht
    rw [Dict.values_set_of_not_mem hnew] at ht
    rcases List.mem_append.mp ht with ht | ht
    · exact h.known t ht
    · exact Or.inr (List.mem_singleton.mp ht)
  · intro t
    rw [Dict.load_set_of_not_mem hnew, h.load]
    by_cases hcloud : t = "cloud"
    · rw [if_pos hcloud, if_pos hcloud.symm, if_pos hcloud, Nat.add_assoc]
    · rw [if_neg hcloud, if_neg (Ne.symm hcloud), if_neg hcloud]
  · exact h.room
  · rw [List.length_append, List.length_singleton, ← h.total, Nat.add_assoc]
  · intro _ t ht
    refine le_antisymm (h.room t) ?_
    rw [placesOn_of_mem ht]
    exact Nat.le_of_not_lt (hfull t ht)

/-- One assignment. -/
theorem assign (h : OverflowInv tiers caps plan done beyond) (scores : Scores F) {op : String} (i : Nat)
    (hop : op ∉ done) : ∃ beyond', OverflowInv tiers caps (plan.assign scores tiers caps (op, i))
      (done ++ [op]) beyond' := by
  rcases Plan.assign_cases scores tiers caps plan op i with ⟨x, -, ht, hroom, hassign⟩ | ⟨hfull, hassign⟩
  · rw [hassign]
    exact ⟨beyond, h.place hop ht hroom⟩
  · rw [hassign]
    exact ⟨beyond + 1, h.overflow hop hfull⟩

/-- All assignments. -/
theorem foldl (h : OverflowInv tiers caps plan done beyond) (scores : Scores F) (order : List (String × Nat))
    (hnodup : (done ++ order.map Prod.fst).Nodup) :
    ∃ beyond', OverflowInv tiers caps (order.foldl (Plan.assign scores tiers caps) plan)
      (done ++ order.map Prod.fst) beyond' := by
  induction order generalizing plan done beyond with
  | nil => exact ⟨beyond, by simpa using h⟩
  | cons x order ih =>
      obtain ⟨op, i⟩ := x
      obtain ⟨hop, hsplit⟩ := nodup_turn hnodup
      obtain ⟨beyond', hassign⟩ := h.assign scores i hop
      rw [hsplit] at hnodup ⊢
      exact ih hassign hnodup

/-- Exactly the operators there is no place for went beyond the capacities. -/
theorem beyond_eq (h : OverflowInv tiers caps plan done beyond) :
    beyond = done.length - ∑ t ∈ tiers.toFinset, placesOn tiers caps t := by
  have htotal := h.total
  have hle : ∑ t ∈ tiers.toFinset, plan.tierUsage.getD t 0 ≤ ∑ t ∈ tiers.toFinset, placesOn tiers caps t :=
    Finset.sum_le_sum fun t _ => h.room t
  by_cases hpos : 0 < beyond
  · have hfull : ∑ t ∈ tiers.toFinset, plan.tierUsage.getD t 0 = ∑ t ∈ tiers.toFinset, placesOn tiers caps t :=
      Finset.sum_congr rfl fun t ht => h.full hpos t (List.mem_toFinset.mp ht)
    omega
  · omega

/-- A tier holds no more than it has places for, `cloud` apart. -/
theorem load_le (h : OverflowInv tiers caps plan done beyond) {t : String} (ht : t ≠ "cloud") :
    plan.placement.load t ≤ placesOn tiers caps t := by
  have hload := h.load t
  rw [if_neg ht, Nat.add_zero] at hload
  rw [hload]
  exact h.room t

/-- The excess on `cloud`. -/
theorem excess (h : OverflowInv tiers caps plan done beyond) :
    plan.placement.load "cloud" - placesOn tiers caps "cloud" = beyond := by
  have hload := h.load "cloud"
  have hroom := h.room "cloud"
  rw [if_pos rfl] at hload
  by_cases hpos : 0 < beyond
  · have hfull : plan.tierUsage.getD "cloud" 0 = placesOn tiers caps "cloud" := by
      by_cases hcloud : "cloud" ∈ tiers
      · exact h.full hpos "cloud" hcloud
      · have hnone : placesOn tiers caps "cloud" = 0 := if_neg hcloud
        omega
    omega
  · omega

/-- While some tier has room, no tier is over its capacity. -/
theorem le_load_of_exceeded (h : OverflowInv tiers caps plan done beyond) {t : String}
    (hover : placesOn tiers caps t < plan.placement.load t) {t' : String} (ht' : t' ∈ tiers) :
    placesOn tiers caps t' ≤ plan.placement.load t' := by
  have hload := h.load t
  have hroom := h.room t
  have hpos : 0 < beyond := by
    by_contra hzero
    have : beyond = 0 := by omega
    rw [this, ite_self] at hload
    omega
  rw [h.load t', h.full hpos t' ht']
  exact Nat.le_add_right _ _

end OverflowInv

/-- **The assignment is total and exact in its capacities.** `OverflowInv` counts along the turns of the loop: as long
    as a tier has room nothing overflows, and from then on every operator does. -/
theorem assignment_exact (scores : Scores F) (ops tiers : List String) (caps : Dict String Nat)
    (hops : ops.Nodup) (htiers : tiers.Nodup) (hne : tiers ≠ [])
    (hcaps : ∀ t ∈ tiers, caps.contains t = true) :
    ∃ placement, findOptimalPlacement scores ops tiers caps = .ok placement ∧
      placement.keys.Perm ops ∧
      (∀ op ∈ ops, ∃ t, placement.get op = some t ∧ (t ∈ tiers ∨ t = "cloud")) ∧
      (∀ t ∈ tiers, t ≠ "cloud" → ∃ capacity, caps.get t = some capacity ∧ placement.load t ≤ capacity) ∧
      placement.load "cloud" - placesOn tiers caps "cloud" =
        ops.length - (tiers.map (fun t => caps.getD t 0)).sum ∧
      ((∃ t, placesOn tiers caps t < placement.load t) →
        ∀ t ∈ tiers, ∃ capacity, caps.get t = some capacity ∧ capacity ≤ placement.load t) := by
  obtain ⟨placement, hplacement⟩ := exists_findOptimalPlacement scores ops tiers caps (fun h => absurd h hne)
  obtain ⟨order, horder, hfold⟩ := bind_eq_ok.mp hplacement
  cases hfold
  -- the loop goes through all operators, in the order of their least scores
  have hfst : (order.map Prod.fst).Perm ops := by
    refine ((assignmentOrder_perm horder).map Prod.fst).trans ?_
    exact List.Perm.of_eq (List.zipIdx_map_fst 0 ops)
  obtain ⟨beyond, hend⟩ := (OverflowInv.start tiers caps).foldl scores order
    (by rw [List.nil_append]; exact hfst.nodup_iff.mpr hops)
  rw [List.nil_append] at hend
  -- a tier that is listed has as many places as its capacity says
  have hplaces : ∀ t ∈ tiers, ∀ capacity, caps.get t = some capacity → placesOn tiers caps t = capacity := by
    intro t ht capacity hget
    rw [placesOn_of_mem ht]
    unfold Dict.getD
    rw [hget]
    rfl
  refine ⟨_, hplacement, by rw [hend.keys]; exact hfst, ?_, ?_, ?_, ?_⟩
  -- the parts of the statement are read off the invariant at the end of the loop
  · intro op hop
    have hkey := hfst.mem_iff.mpr hop
    rw [← hend.keys] at hkey
    obtain ⟨t, ht⟩ := Dict.mem_keys_iff.mp hkey
    exact ⟨t, ht, hend.known t (Dict.mem_values_of_get ht)⟩
  · intro t ht hcloud
    obtain ⟨capacity, hget⟩ := Option.isSome_iff_exists.mp (hcaps t ht)
    refine ⟨capacity, hget, ?_⟩
    rw [← hplaces t ht capacity hget]
    exact hend.load_le hcloud
  · rw [hend.excess, hend.beyond_eq, hfst.length_eq, List.sum_toFinset _ htiers]
    rw [List.map_congr_left fun t ht => placesOn_of_mem ht]
  · rintro ⟨t, hover⟩ t' ht'
    obtain ⟨capacity, hget⟩ := Option.isSome_iff_exists.mp (hcaps t' ht')
    refine ⟨capacity, hget, ?_⟩
    rw [← hplaces t' ht' capacity hget]
    exact hend.le_load_of_exceeded hover ht'

/-- Four operators for three places: one of them is on `cloud` beyond its capacity. -/
theorem assignment_exact_four : ∃ placement,
    findOptimalPlacement ([[1, 3], [2, 2], [5, 4], [0, 7]] : Scores ℚ) ["op-1", "op-2", "op-3", "op-4"]
      ["edge-node-1", "cloud"] (Dict.ofList [("edge-node-1", 1), ("cloud", 2)]) = .ok placement ∧
    placement.load "edge-node-1" ≤ 1 ∧ placement.load "cloud" - 2 = 1 := by
  obtain ⟨placement, hplacement, -, -, hfits, hexcess, -⟩ := assignment_exact
    ([[1, 3], [2, 2], [5, 4], [0, 7]] : Scores ℚ) ["op-1", "op-2", "op-3", "op-4"] ["edge-node-1", "cloud"]
    (Dict.ofList [("edge-node-1", 1), ("cloud", 2)]) (by decide) (by decide) (by decide) (by decide)
  obtain ⟨capacity, hget, hle⟩ := hfits "edge-node-1" (by decide) (by decide)
  cases hget
  exact ⟨placement, hplacement, hle, hexcess⟩

end Aode
end HybridStream
