import HybridStream.Aode.Correctness.Capacity

/-!
# `Aode.Correctness.Preference` — which tier an operator is given, and when it is its turn

Where scores compare as a linear order, both sorts of `find_optimal_placement` do what they are meant to:
`tier_scores` lists an operator's tiers from the cheapest on, ties by position, and the operators are assigned
by falling row minimum. `OrderedRuntime` is the only thing known about the scores.

So the two orders can be used as orders: what comes first among the tiers with room has the least score, and who comes
first among the operators has the greatest minimum. The results about envy, capacity and independence of the order
start from here.
-/

namespace HybridStream
namespace Aode

open Lib Py

variable {F : Type} [LinearOrder F] [PyRuntime F] [OrderedRuntime F]
variable {scores : Scores F} {ops tiers : List String}

/-! ## The tiers of an operator

`tier_scores` sorts pairs of score and position, so ties go to the tier that is listed first and the first tier with
room is the best one with room. -/

/-- The order of `tier_scores`: it is total and transitive, as the scores are. -/
abbrev tierScoreLe {F : Type} [PyRuntime F] (x y : String × (F × Nat)) : Prop := ¬ tierScoreLt y.2 x.2 = true

theorem tierScoreLe_iff {x y : String × (F × Nat)} :
    tierScoreLe x y ↔ x.2.1 < y.2.1 ∨ x.2.1 = y.2.1 ∧ x.2.2 ≤ y.2.2 := by
  unfold tierScoreLe tierScoreLt
  by_cases heq : y.2.1 = x.2.1
  · rw [if_pos (OrderedRuntime.eq_iff.mpr heq), decide_eq_true_eq, not_lt]
    constructor
    · exact fun h => Or.inr ⟨heq.symm, h⟩
    · rintro (hlt | ⟨-, hle⟩)
      · exact absurd heq.symm hlt.ne
      · exact hle
  · rw [if_neg (mt OrderedRuntime.eq_iff.mp heq), OrderedRuntime.lt_iff, not_lt]
    constructor
    · exact fun hle => Or.inl (lt_of_le_of_ne hle (Ne.symm heq))
    · rintro (hlt | ⟨heq', -⟩)
      · exact hlt.le
      · exact absurd heq'.symm heq

instance : Std.Total (tierScoreLe (F := F)) where
  total x y := by
    rw [tierScoreLe_iff, tierScoreLe_iff]
    rcases lt_trichotomy x.2.1 y.2.1 with hlt | heq | hgt
    · exact Or.inl (Or.inl hlt)
    · exact (Nat.le_total x.2.2 y.2.2).imp (fun h => Or.inr ⟨heq, h⟩) (fun h => Or.inr ⟨heq.symm, h⟩)
    · exact Or.inr (Or.inl hgt)

instance : IsTrans (String × (F × Nat)) tierScoreLe where
  trans x y z hxy hyz := by
    rw [tierScoreLe_iff] at hxy hyz ⊢
    rcases hxy with hxy | ⟨hxy, hj⟩ <;> rcases hyz with hyz | ⟨hyz, hk⟩
    · exact Or.inl (hxy.trans hyz)
    · exact Or.inl (hyz ▸ hxy)
    · exact Or.inl (hxy ▸ hyz)
    · exact Or.inr ⟨hxy.trans hyz, hj.trans hk⟩

omit [LinearOrder F] [OrderedRuntime F] in
/-- `tier_scores` has each tier with its score. -/
theorem mem_tierScores_iff {x : String × (F × Nat)} {i : Nat} :
    x ∈ tierScores scores tiers i ↔ (x.1, x.2.2) ∈ tiers.zipIdx ∧ x.2.1 = scores.entry i x.2.2 := by
  unfold tierScores
  rw [(List.perm_insertionSort _ _).mem_iff, List.mem_map]
  constructor
  · rintro ⟨⟨t, j⟩, hmem, rfl⟩
    exact ⟨hmem, rfl⟩
  · rintro ⟨hmem, hscore⟩
    exact ⟨(x.1, x.2.2), hmem, congrArg (fun score => (x.1, score, x.2.2)) hscore.symm⟩

/-- The first tier with room in the order of scores comes before all other tiers with room. -/
theorem tierScoreLe_of_find? {p : String × (F × Nat) → Bool} {x y : String × (F × Nat)} {i : Nat}
    (hfind : (tierScores scores tiers i).find? p = some x) (hy : y ∈ tierScores scores tiers i) (hp : p y = true) :
    tierScoreLe x y := by
  obtain ⟨-, before, after, hsplit, hbefore⟩ := List.find?_eq_some_iff_append.mp hfind
  have hsorted : (tierScores scores tiers i).Pairwise tierScoreLe := List.pairwise_insertionSort _ _
  rw [hsplit] at hy hsorted
  have hrest := (List.pairwise_cons.mp (List.pairwise_append.mp hsorted).2.1).1
  rcases List.mem_append.mp hy with hin | hin
  · exact absurd hp (by simpa using hbefore y hin)
  · rcases List.mem_cons.mp hin with rfl | hin
    · exact tierScoreLe_iff.mpr (Or.inr ⟨rfl, Nat.le_refl _⟩)
    · exact hrest y hin

/-- Hence it has the least score of all tiers with room. -/
theorem score_le_of_find? {p : String × (F × Nat) → Bool} {x y : String × (F × Nat)} {i : Nat}
    (hfind : (tierScores scores tiers i).find? p = some x) (hy : y ∈ tierScores scores tiers i) (hp : p y = true) :
    x.2.1 ≤ y.2.1 := by
  rcases tierScoreLe_iff.mp (tierScoreLe_of_find? hfind hy hp) with hlt | ⟨heq, -⟩
  · exact hlt.le
  · exact heq.le

/-! ## The order of the operators

The loop takes the operators by falling row minimum: those whose best tier is worst come first. -/

/-- The row of an operator. -/
def scoreRow (scores : Scores F) (tiers : List String) (i : Nat) : List F :=
  tiers.zipIdx.map (fun (_, j) => scores.entry i j)

/-- The least score of an operator; there is none without tiers. -/
def rowMin (scores : Scores F) (tiers : List String) (i : Nat) : WithTop F := (scoreRow scores tiers i).minimum

theorem npMinimum_eq_min (x y : F) : npMinimum x y = min x y := by
  unfold npMinimum
  have hself : PyRuntime.eq x x = true := OrderedRuntime.eq_iff.mpr rfl
  by_cases hlt : x < y
  · rw [if_pos (by rw [OrderedRuntime.lt_iff.mpr hlt]; rfl), min_eq_left hlt.le]
  · have hfalse : PyRuntime.lt x y = false := Bool.eq_false_iff.mpr (mt OrderedRuntime.lt_iff.mp hlt)
    rw [hself, hfalse, min_eq_right (not_lt.mp hlt)]
    rfl

/-- `np.min` is the minimum. -/
theorem minimum_eq_of_npMin {xs : List F} {m : F} (h : npMin xs = .ok m) : xs.minimum = m := by
  cases xs with
  | nil => cases h
  | cons x xs =>
      cases h
      induction xs generalizing x with
      | nil => rfl
      | cons y ys ih =>
          rw [List.foldl_cons, ← ih, npMinimum_eq_min, List.minimum_cons, List.minimum_cons, List.minimum_cons,
            WithTop.coe_min, min_assoc]

/-- **Operators are assigned by falling row minimum.** -/
theorem assignmentOrder_pairwise {order : List (String × Nat)}
    (h : assignmentOrder scores ops tiers = .ok order) :
    order.Pairwise (fun x y => rowMin scores tiers y.2 ≤ rowMin scores tiers x.2) := by
  obtain ⟨opMinScores, hmin, h⟩ := bind_eq_ok.mp h
  cases h
  have hrow : ∀ x ∈ opMinScores, rowMin scores tiers x.1.2 = x.2 := by
    intro x hx
    obtain ⟨y, -, hy⟩ := mem_of_mapM hmin hx
    obtain ⟨m, hm, hy⟩ := bind_eq_ok.mp hy
    cases hy
    exact minimum_eq_of_npMin hm
  have htotal : Std.Total (fun x y : (String × Nat) × F => ¬ PyRuntime.lt x.2 y.2 = true) := by
    refine ⟨fun x y => ?_⟩
    rw [OrderedRuntime.lt_iff, OrderedRuntime.lt_iff, not_lt, not_lt]
    exact le_total y.2 x.2
  have htrans : IsTrans ((String × Nat) × F) (fun x y => ¬ PyRuntime.lt x.2 y.2 = true) := by
    refine ⟨fun x y z hxy hyz => ?_⟩
    rw [OrderedRuntime.lt_iff, not_lt] at hxy hyz ⊢
    exact hyz.trans hxy
  have hsorted := List.pairwise_insertionSort (fun x y : (String × Nat) × F => ¬ PyRuntime.lt x.2 y.2 = true)
    opMinScores
  rw [List.pairwise_map]
  refine hsorted.imp_of_mem fun {x y} hx hy hle => ?_
  rw [OrderedRuntime.lt_iff, not_lt] at hle
  rw [hrow x ((List.mem_insertionSort _).mp hx), hrow y ((List.mem_insertionSort _).mp hy)]
  exact WithTop.coe_le_coe.mpr hle

end Aode
end HybridStream
