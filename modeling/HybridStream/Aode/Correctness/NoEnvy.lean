import HybridStream.Aode.Correctness.Overflow
import HybridStream.Aode.Correctness.Preference

/-!
# `Aode.Correctness.NoEnvy` — no operator has a claim to a better tier

An operator that would rather be on another tier finds it filled by operators whose row minimum is at least
its own: they were assigned before it, and what was assigned stays (`get_foldl_assign`). So the usage counts
at its turn are a lower bound for what the final placement holds (`capacity_le_count`).

Both versions are about the final placement. The first names the rivals, by their row minimum and for ties by their
place in the order; the second counts: a tier that fewer operators want than it has places for gives one to each of
them.
-/

namespace HybridStream
namespace Aode

open Lib Py

/-! ## The turn of an operator

Where an operator ends up is decided at its turn, by the tiers that have room then; the loop never changes an earlier
assignment. -/

section Turn

variable {F : Type} [PyRuntime F]

/-- The plan when the operators `before` have been assigned. -/
def planAfter (scores : Scores F) (tiers : List String) (caps : Dict String Nat) (before : List (String × Nat)) :
    Plan :=
  before.foldl (Plan.assign scores tiers caps) ⟨∅, Dict.ofList (tiers.map (fun tier => (tier, 0)))⟩

/-- When the operator's turn came no tier had room, so it was sent to `cloud`. -/
def SentBeyond (scores : Scores F) (ops tiers : List String) (caps : Dict String Nat) (op : String) (i : Nat) :
    Prop :=
  ∃ before after, assignmentOrder scores ops tiers = .ok (before ++ (op, i) :: after) ∧
    ∀ t ∈ tiers, caps.getD t 0 ≤ (planAfter scores tiers caps before).tierUsage.getD t 0

variable {scores : Scores F} {ops tiers : List String} {caps : Dict String Nat} {plan : Plan}

/-- An assignment touches the operator's own entry only. -/
theorem get_assign_of_ne (x : String × Nat) {op : String} (h : op ≠ x.1) :
    (plan.assign scores tiers caps x).placement.get op = plan.placement.get op := by
  unfold Plan.assign
  dsimp only
  split
  · exact Dict.get_set_ne _ h _
  · exact Dict.get_set_ne _ h _

theorem get_foldl_assign {order : List (String × Nat)} {op : String} (h : op ∉ order.map Prod.fst) :
    (order.foldl (Plan.assign scores tiers caps) plan).placement.get op = plan.placement.get op := by
  induction order generalizing plan with
  | nil => rfl
  | cons x order ih =>
      rw [List.map_cons, List.mem_cons, not_or] at h
      rw [List.foldl_cons, ih h.2, get_assign_of_ne x h.1]

/-- Where an operator ends up is decided at its turn. -/
theorem get_planAfter {before after : List (String × Nat)} {op : String} {i : Nat}
    (hnodup : ((before ++ (op, i) :: after).map Prod.fst).Nodup) :
    (planAfter scores tiers caps (before ++ (op, i) :: after)).placement.get op =
      ((planAfter scores tiers caps before).assign scores tiers caps (op, i)).placement.get op := by
  rw [List.map_append, List.map_cons, List.nodup_append] at hnodup
  unfold planAfter
  rw [List.foldl_append, List.foldl_cons]
  exact get_foldl_assign (List.nodup_cons.mp hnodup.2.1).1

/-- The operators already assigned fill the usage counts. -/
theorem usage_le_countP {before : List (String × Nat)} (hnodup : (before.map Prod.fst).Nodup) (t : String) :
    (planAfter scores tiers caps before).tierUsage.getD t 0 ≤
      before.countP (fun x => (planAfter scores tiers caps before).placement.get x.1 = some t) := by
  obtain ⟨beyond, hinv⟩ := (OverflowInv.start tiers caps).foldl scores before (by rw [List.nil_append]; exact hnodup)
  have hkeys : (planAfter scores tiers caps before).placement.keys = before.map Prod.fst := by
    rw [← List.nil_append (before.map Prod.fst)]
    exact hinv.keys
  have hload := Dict.load_eq_countP (planAfter scores tiers caps before).placement t
  rw [hkeys, List.countP_map] at hload
  calc (planAfter scores tiers caps before).tierUsage.getD t 0
      ≤ (planAfter scores tiers caps before).placement.load t := by
        rw [show (planAfter scores tiers caps before).placement.load t = _ from hinv.load t]
        exact Nat.le_add_right _ _
    _ = before.countP (fun x => (planAfter scores tiers caps before).placement.get x.1 = some t) := hload

/-- The turn of an operator in the run of the loop. -/
theorem exists_turn {order : List (String × Nat)} (horder : assignmentOrder scores ops tiers = .ok order)
    {op : String} {i : Nat} (hop : ops[i]? = some op) :
    ∃ before after, order = before ++ (op, i) :: after := by
  have hmem : (op, i) ∈ order :=
    (assignmentOrder_perm horder).mem_iff.mpr (List.mem_zipIdx_iff_getElem?.mpr hop)
  exact List.append_of_mem hmem

/-- There is a tier where there is an operator: a row without columns has no minimum. -/
theorem tiers_ne_nil {order : List (String × Nat)} (horder : assignmentOrder scores ops tiers = .ok order)
    {op : String} {i : Nat} (hop : ops[i]? = some op) : tiers ≠ [] := by
  rintro rfl
  obtain ⟨opMinScores, hmin, -⟩ := bind_eq_ok.mp horder
  have hzip : ops.zipIdx[i]? = some (op, i) := by rw [List.getElem?_zipIdx, hop, Option.map_some, Nat.zero_add]
  obtain ⟨y, -, hy⟩ := mapM_getElem? hmin hzip
  cases hy

theorem names_nodup {order : List (String × Nat)} (horder : assignmentOrder scores ops tiers = .ok order)
    (hops : ops.Nodup) : (order.map Prod.fst).Nodup :=
  (((assignmentOrder_perm horder).map Prod.fst).trans
    (List.Perm.of_eq (List.zipIdx_map_fst 0 ops))).nodup_iff.mpr hops

end Turn

/-! ## What an assignment chooses

The first tier with room in the order of the operator's scores, ties by the position of the tier. The order is total,
so the choice is determined. -/

variable {F : Type} [LinearOrder F] [PyRuntime F] [OrderedRuntime F]
variable {scores : Scores F} {ops tiers : List String} {caps : Dict String Nat} {plan : Plan}

/-- On row `i`, position `k` comes before position `j`: a smaller score, or the same and a smaller position. -/
def Cheaper (scores : Scores F) (i k j : Nat) : Prop :=
  scores.entry i k < scores.entry i j ∨ scores.entry i k = scores.entry i j ∧ k < j

/-- No position comes before `k` on row `i`. -/
def BestTier (scores : Scores F) (tiers : List String) (i k : Nat) : Prop :=
  ∀ j < tiers.length, ¬ Cheaper scores i j k

instance (i k j : Nat) : Decidable (Cheaper scores i k j) := inferInstanceAs (Decidable (_ ∨ _))

instance (i k : Nat) : Decidable (BestTier scores tiers i k) := inferInstanceAs (Decidable (∀ j < _, _))

theorem not_cheaper_iff_tierScoreLe {x y : String × (F × Nat)} {i : Nat}
    (hx : x.2.1 = scores.entry i x.2.2) (hy : y.2.1 = scores.entry i y.2.2) :
    ¬ Cheaper scores i y.2.2 x.2.2 ↔ tierScoreLe x y := by
  unfold Cheaper
  rw [tierScoreLe_iff, hx, hy]
  constructor
  · intro h
    rw [not_or, not_lt, not_and, not_lt] at h
    exact h.1.lt_or_eq.imp_right (fun heq => ⟨heq, h.2 heq.symm⟩)
  · rintro (hlt | ⟨heq, hle⟩) (hlt' | ⟨heq', hlt'⟩)
    · exact absurd hlt' hlt.asymm
    · exact hlt.ne heq'.symm
    · exact hlt'.ne heq.symm
    · omega

/-- **The choice of an assignment**: of the tiers with room the first in the operator's order, and `cloud` if
    there is none. -/
theorem assign_spec (scores : Scores F) (tiers : List String) (caps : Dict String Nat) (plan : Plan) (op : String)
    (i : Nat) :
    (∃ k t, tiers[k]? = some t ∧ plan.tierUsage.getD t 0 < caps.getD t 0 ∧
      (plan.assign scores tiers caps (op, i)).placement.get op = some t ∧
      ∀ j t', tiers[j]? = some t' → plan.tierUsage.getD t' 0 < caps.getD t' 0 → ¬ Cheaper scores i j k) ∨
    ((∀ t ∈ tiers, caps.getD t 0 ≤ plan.tierUsage.getD t 0) ∧
      (plan.assign scores tiers caps (op, i)).placement.get op = some "cloud") := by
  rcases Plan.assign_cases scores tiers caps plan op i with ⟨x, hfind, -, hroom, hassign⟩ | ⟨hfull, hassign⟩
  · obtain ⟨hmem, hscore⟩ := mem_tierScores_iff.mp (List.mem_of_find?_eq_some hfind)
    rw [hassign]
    refine Or.inl ⟨x.2.2, x.1, List.mem_zipIdx_iff_getElem?.mp hmem, hroom, Dict.get_set_self _ _ _, ?_⟩
    intro j t' ht' hroom'
    let y : String × (F × Nat) := (t', (scores.entry i j, j))
    have hy : y ∈ tierScores scores tiers i :=
      mem_tierScores_iff.mpr ⟨List.mem_zipIdx_iff_getElem?.mpr ht', rfl⟩
    exact (not_cheaper_iff_tierScoreLe (y := y) hscore rfl).mpr
      (tierScoreLe_of_find? hfind hy (decide_eq_true hroom'))
  · rw [hassign]
    exact Or.inr ⟨fun t ht => not_lt.mp (hfull t ht), Dict.get_set_self _ _ _⟩

omit [OrderedRuntime F] in
/-- The order of the positions is total. -/
theorem eq_of_not_cheaper {i k k' : Nat} (h : ¬ Cheaper scores i k k') (h' : ¬ Cheaper scores i k' k) : k = k' := by
  unfold Cheaper at h h'
  rw [not_or, not_lt, not_and, not_lt] at h h'
  have heq : scores.entry i k = scores.entry i k' := le_antisymm h'.1 h.1
  have hle := h.2 heq
  have hge := h'.2 heq.symm
  omega

theorem exists_bestTier (scores : Scores F) (htiers : tiers ≠ []) (i : Nat) :
    ∃ k t, tiers[k]? = some t ∧ BestTier scores tiers i k := by
  cases hlist : tierScores scores tiers i with
  | nil =>
      obtain ⟨t, ht⟩ := List.exists_mem_of_ne_nil tiers htiers
      obtain ⟨x, hx, -⟩ := (mem_tierScores scores i).mpr ht
      rw [hlist] at hx
      exact absurd hx List.not_mem_nil
  | cons x rest =>
      have hsorted : (tierScores scores tiers i).Pairwise tierScoreLe := List.pairwise_insertionSort _ _
      have hmem : x ∈ tierScores scores tiers i := by rw [hlist]; exact List.mem_cons_self
      obtain ⟨hx, hscore⟩ := mem_tierScores_iff.mp hmem
      refine ⟨x.2.2, x.1, List.mem_zipIdx_iff_getElem?.mp hx, fun j hj => ?_⟩
      let y : String × (F × Nat) := (tiers[j], (scores.entry i j, j))
      have hy : y ∈ tierScores scores tiers i :=
        mem_tierScores_iff.mpr ⟨List.mem_zipIdx_iff_getElem?.mpr (List.getElem?_eq_getElem hj), rfl⟩
      refine (not_cheaper_iff_tierScoreLe (y := y) hscore rfl).mpr ?_
      rw [hlist] at hy hsorted
      rcases List.mem_cons.mp hy with heq | hin
      · rw [heq]
        exact tierScoreLe_iff.mpr (Or.inr ⟨rfl, Nat.le_refl _⟩)
      · exact (List.pairwise_cons.mp hsorted).1 y hin

/-! ## No justified envy

A tier that an operator would rather be on was full at its turn, and those on it had their turn before, with a row
minimum at least as high. Two ways to see it: by the rivals on the tier, and by the number of operators that want
it. -/

/-- The operator, on row `i`, would rather be on the tier at position `j`: there its score is smaller, or the
    same and `j` comes first, or it was sent to `cloud` for want of room. -/
def Prefers (scores : Scores F) (ops tiers : List String) (caps : Dict String Nat)
    (placement : Dict String String) (op : String) (i j : Nat) : Prop :=
  SentBeyond scores ops tiers caps op i ∨
    ∃ k t, tiers[k]? = some t ∧ placement.get op = some t ∧ Cheaper scores i j k

/-- The operators other than `i` on tier `t` whose row minimum is at least that of `i`. -/
def rivals (scores : Scores F) (ops tiers : List String) (placement : Dict String String) (i : Nat) (t : String) :
    Nat :=
  ops.zipIdx.countP (fun x => x.2 ≠ i ∧ placement.get x.1 = some t ∧
    rowMin scores tiers i ≤ rowMin scores tiers x.2)

/-- What the assignment order says of the turn of operator `i`: those before it have no smaller minimum. -/
theorem usage_le_rivals {before after : List (String × Nat)} {op : String} {i : Nat} (hops : ops.Nodup)
    (horder : assignmentOrder scores ops tiers = .ok (before ++ (op, i) :: after)) (t : String) :
    (planAfter scores tiers caps before).tierUsage.getD t 0 ≤
      rivals scores ops tiers (planAfter scores tiers caps (before ++ (op, i) :: after)).placement i t := by
  have hperm := assignmentOrder_perm horder
  -- the operators before this one in the order: their rows are different, and their minima not greater
  have hfst : (before ++ (op, i) :: after).map Prod.fst = before.map Prod.fst ++ op :: after.map Prod.fst := by
    rw [List.map_append, List.map_cons]
  have hnames := names_nodup horder hops
  have hrows : ((before ++ (op, i) :: after).map Prod.snd).Nodup := by
    refine (hperm.map Prod.snd).nodup_iff.mpr ?_
    rw [List.zipIdx_map_snd]
    exact List.nodup_range'
  have hsorted := (List.pairwise_append.mp (assignmentOrder_pairwise horder)).2.2
  -- what was placed stays where it is for the rest of the loop
  have hbefore : ∀ x ∈ before, (planAfter scores tiers caps before).placement.get x.1 = some t →
      (x.2 ≠ i ∧ (planAfter scores tiers caps (before ++ (op, i) :: after)).placement.get x.1 = some t ∧
        rowMin scores tiers i ≤ rowMin scores tiers x.2) := by
    intro x hx hget
    refine ⟨?_, ?_, hsorted x hx (op, i) List.mem_cons_self⟩
    · rw [List.map_append, List.map_cons, List.nodup_append] at hrows
      exact hrows.2.2 x.2 (List.mem_map_of_mem hx) i List.mem_cons_self
    · rw [← hget]
      unfold planAfter
      rw [List.foldl_append]
      apply get_foldl_assign
      rw [hfst, List.nodup_append] at hnames
      exact fun hin => hnames.2.2 x.1 (List.mem_map_of_mem hx) x.1 hin rfl
  have hbefore_nodup : (before.map Prod.fst).Nodup := by
    rw [hfst, List.nodup_append] at hnames
    exact hnames.1
  unfold rivals
  rw [← hperm.countP_eq, List.countP_append]
  calc (planAfter scores tiers caps before).tierUsage.getD t 0
      ≤ before.countP (fun x => (planAfter scores tiers caps before).placement.get x.1 = some t) :=
        usage_le_countP hbefore_nodup t
    _ ≤ before.countP (fun x => x.2 ≠ i ∧
          (planAfter scores tiers caps (before ++ (op, i) :: after)).placement.get x.1 = some t ∧
          rowMin scores tiers i ≤ rowMin scores tiers x.2) := by
        refine List.countP_mono_left fun x hx hget => ?_
        exact decide_eq_true (hbefore x hx (of_decide_eq_true hget))
    _ ≤ _ := Nat.le_add_right _ _

/-- The operators whose best tier is at position `k`. -/
def wanting (scores : Scores F) (ops tiers : List String) (k : Nat) : Nat :=
  ops.zipIdx.countP (fun x => BestTier scores tiers x.2 k)

omit [OrderedRuntime F] in
/-- The operators assigned before that are on a tier want it; so while there is one more that does, it has room. -/
theorem usage_lt_of_room {before after : List (String × Nat)} {op t : String} {i k : Nat}
    (hnames : (before.map Prod.fst).Nodup) (htiers : tiers.Nodup)
    (horder : assignmentOrder scores ops tiers = .ok (before ++ (op, i) :: after)) (hk : tiers[k]? = some t)
    (hbest : BestTier scores tiers i k) (hroom : wanting scores ops tiers k ≤ caps.getD t 0)
    (hbefore : ∀ x ∈ before, ∃ k t, tiers[k]? = some t ∧ BestTier scores tiers x.2 k ∧
      (planAfter scores tiers caps before).placement.get x.1 = some t) :
    (planAfter scores tiers caps before).tierUsage.getD t 0 < caps.getD t 0 := by
  have hwanted : before.countP (fun x => (planAfter scores tiers caps before).placement.get x.1 = some t) ≤
      before.countP (fun x => BestTier scores tiers x.2 k) := by
    refine List.countP_mono_left fun x hx hget => ?_
    obtain ⟨k', t', hk', hbest', hget'⟩ := hbefore x hx
    rw [of_decide_eq_true hget] at hget'
    cases hget'
    have hsame : k' = k := by
      have hlt := (List.getElem?_eq_some_iff.mp hk').1
      exact (List.getElem?_inj hlt htiers).mp (hk'.trans hk.symm)
    exact decide_eq_true (hsame ▸ hbest')
  have hcount : wanting scores ops tiers k =
      before.countP (fun x => BestTier scores tiers x.2 k) +
        ((op, i) :: after).countP (fun x => BestTier scores tiers x.2 k) := by
    unfold wanting
    rw [← (assignmentOrder_perm horder).countP_eq, List.countP_append]
  rw [List.countP_cons, if_pos (decide_eq_true hbest)] at hcount
  have husage : (planAfter scores tiers caps before).tierUsage.getD t 0 ≤ _ := usage_le_countP hnames t
  omega

/-- **Where no tier is wanted by more operators than it has room for, each gets its best tier.** The operators
    assigned before have theirs, so the places they take on a tier are places of operators that want it. -/
theorem bestTier_of_room {before after : List (String × Nat)} (hops : ops.Nodup) (htiers : tiers.Nodup)
    (horder : assignmentOrder scores ops tiers = .ok (before ++ after))
    (hroom : ∀ k t, tiers[k]? = some t → wanting scores ops tiers k ≤ caps.getD t 0) :
    ∀ x ∈ before, ∃ k t, tiers[k]? = some t ∧ BestTier scores tiers x.2 k ∧
      (planAfter scores tiers caps before).placement.get x.1 = some t := by
  -- by induction on the turns; the last one finds room on its best tier, since few enough have wanted it
  induction before using List.reverseRecOn generalizing after with
  | nil => exact fun x hx => absurd hx List.not_mem_nil
  | append_singleton before x ih =>
      obtain ⟨op, i⟩ := x
      rw [List.append_assoc, List.singleton_append] at horder
      have ih := ih horder
      have hnames := names_nodup horder hops
      rw [List.map_append, List.map_cons, List.nodup_append] at hnames
      have hplan : planAfter scores tiers caps (before ++ [(op, i)]) =
          (planAfter scores tiers caps before).assign scores tiers caps (op, i) := List.foldl_append
      have hmem : (op, i) ∈ ops.zipIdx :=
        (assignmentOrder_perm horder).mem_iff.mp (List.mem_append_right _ List.mem_cons_self)
      have hop : ops[i]? = some op := List.mem_zipIdx_iff_getElem?.mp hmem
      obtain ⟨k, t, hk, hbest⟩ := exists_bestTier scores (tiers_ne_nil horder hop) i
      have hfree : (planAfter scores tiers caps before).tierUsage.getD t 0 < caps.getD t 0 :=
        usage_lt_of_room hnames.1 htiers horder hk hbest (hroom k t hk) ih
      rw [hplan]
      intro x hx
      rcases List.mem_append.mp hx with hin | hin
      · obtain ⟨k', t', hk', hbest', hget'⟩ := ih x hin
        refine ⟨k', t', hk', hbest', ?_⟩
        rw [get_assign_of_ne, hget']
        exact hnames.2.2 x.1 (List.mem_map_of_mem hin) op List.mem_cons_self
      · cases List.mem_singleton.mp hin
        refine ⟨k, t, hk, hbest, ?_⟩
        rcases assign_spec scores tiers caps (planAfter scores tiers caps before) op i with
          ⟨k', t', hk', hroom', hget, hfirst⟩ | ⟨hfull, -⟩
        · -- the chosen tier comes before `t`, which has room, and nothing comes before `t`
          have hsame : k' = k :=
            eq_of_not_cheaper (hbest k' (List.getElem?_eq_some_iff.mp hk').1) (hfirst k t hk hfree)
          rw [hget, ← hk', hsame, hk]
        · exact absurd hfree (not_lt.mpr (hfull t (List.mem_of_getElem? hk)))

omit [OrderedRuntime F] in
/-- The rivals are among the operators on the tier. -/
theorem rivals_le_load {order : List (String × Nat)} (horder : assignmentOrder scores ops tiers = .ok order)
    (hops : ops.Nodup) (i : Nat) (t : String) :
    rivals scores ops tiers (planAfter scores tiers caps order).placement i t ≤
      (planAfter scores tiers caps order).placement.load t := by
  obtain ⟨beyond, hinv⟩ := (OverflowInv.start tiers caps).foldl scores order
    (by rw [List.nil_append]; exact names_nodup horder hops)
  have hkeys : (planAfter scores tiers caps order).placement.keys = order.map Prod.fst := by
    rw [← List.nil_append (order.map Prod.fst)]
    exact hinv.keys
  rw [Dict.load_eq_countP, hkeys, List.countP_map, (assignmentOrder_perm horder).countP_eq]
  refine List.countP_mono_left fun x _ hx => ?_
  exact decide_eq_true (of_decide_eq_true hx).2.1

/-- A tier the operator would rather be on was full at its turn. -/
theorem full_of_prefers {order : List (String × Nat)} (horder : assignmentOrder scores ops tiers = .ok order)
    (hops : ops.Nodup) (htiers : tiers.Nodup) {op t : String} {i j : Nat} (hop : ops[i]? = some op)
    (ht : tiers[j]? = some t)
    (hprefers : Prefers scores ops tiers caps (planAfter scores tiers caps order).placement op i j) :
    ∃ before after, order = before ++ (op, i) :: after ∧
      caps.getD t 0 ≤ (planAfter scores tiers caps before).tierUsage.getD t 0 := by
  rcases hprefers with ⟨before, after, hturn, hfull⟩ | ⟨k, t', hk, hgot, hcheaper⟩
  · exact ⟨before, after, Except.ok.inj (horder.symm.trans hturn), hfull t (List.mem_of_getElem? ht)⟩
  · obtain ⟨before, after, rfl⟩ := exists_turn horder hop
    refine ⟨before, after, rfl, ?_⟩
    rw [get_planAfter (names_nodup horder hops)] at hgot
    rcases assign_spec scores tiers caps (planAfter scores tiers caps before) op i with
      ⟨k', t'', hk', -, hchosen, hfirst⟩ | ⟨hfull, -⟩
    · rw [hchosen] at hgot
      cases hgot
      have hsame : k' = k :=
        (List.getElem?_inj (List.getElem?_eq_some_iff.mp hk').1 htiers).mp (hk'.trans hk.symm)
      by_contra hroom
      exact hfirst j t ht (not_le.mp hroom) (hsame ▸ hcheaper)
    · exact hfull t (List.mem_of_getElem? ht)

/-- **No justified envy.** Every tier an operator would rather be on is filled by operators whose row minimum is at
    least its own. So none of these tiers has room, and where no tier is wanted by more operators than it has room for
    the operator is on its best one. A tier that an operator would rather be on was full at its turn
    (`full_of_prefers`), and those that had filled it came before it in the order. -/
theorem no_justified_envy (scores : Scores F) (ops tiers : List String) (caps : Dict String Nat) (hops : ops.Nodup)
    (htiers : tiers.Nodup) (hcaps : ∀ t ∈ tiers, (caps.get t).isSome = true) {placement : Dict String String}
    (h : findOptimalPlacement scores ops tiers caps = .ok placement) {op : String} {i : Nat}
    (hop : ops[i]? = some op) :
    (∀ j t, tiers[j]? = some t → Prefers scores ops tiers caps placement op i j →
      ∃ capacity, caps.get t = some capacity ∧ capacity ≤ rivals scores ops tiers placement i t ∧
        capacity ≤ placement.load t) ∧
    ((∀ k t, tiers[k]? = some t → ∃ capacity, caps.get t = some capacity ∧
        wanting scores ops tiers k ≤ capacity) →
      ∃ k t, tiers[k]? = some t ∧ BestTier scores tiers i k ∧ placement.get op = some t) := by
  obtain ⟨order, horder, hfold⟩ := bind_eq_ok.mp h
  have hplacement : placement = (planAfter scores tiers caps order).placement := (Except.ok.inj hfold).symm
  subst hplacement
  constructor
  -- the tier was full at the operator's turn, so its places went to those before it
  · intro j t ht hprefers
    obtain ⟨capacity, hcapacity⟩ := Option.isSome_iff_exists.mp (hcaps t (List.mem_of_getElem? ht))
    have hgetD : caps.getD t 0 = capacity := by unfold Dict.getD; rw [hcapacity, Option.getD_some]
    obtain ⟨before, after, rfl, hfull⟩ := full_of_prefers horder hops htiers hop ht hprefers
    have hrivals := hfull.trans (usage_le_rivals hops horder t)
    rw [hgetD] at hrivals
    exact ⟨capacity, hcapacity, hrivals, hrivals.trans (rivals_le_load horder hops i t)⟩
  · intro hwanting
    -- if every tier has room for all who want it, each operator is on its best one
    have hroom : ∀ k t, tiers[k]? = some t → wanting scores ops tiers k ≤ caps.getD t 0 := by
      intro k t hk
      obtain ⟨capacity, hcapacity, hle⟩ := hwanting k t hk
      unfold Dict.getD
      rw [hcapacity, Option.getD_some]
      exact hle
    rw [← List.append_nil order] at horder
    have hall := bestTier_of_room hops htiers horder hroom
    rw [List.append_nil] at horder
    obtain ⟨before, after, rfl⟩ := exists_turn horder hop
    exact hall (op, i) (List.mem_append_right _ List.mem_cons_self)

/-- Four operators for three places. The first would rather be on `edge-node-1`, which the second has taken:
    both its scores are the same, and `edge-node-1` comes first. -/
theorem no_justified_envy_four : ∃ placement,
    findOptimalPlacement ([[1, 3], [2, 2], [5, 4], [0, 7]] : Scores ℚ) ["op-1", "op-2", "op-3", "op-4"]
      ["edge-node-1", "cloud"] (Dict.ofList [("edge-node-1", 1), ("cloud", 2)]) = .ok placement ∧
    placement.get "op-1" = some "cloud" ∧
    1 ≤ rivals ([[1, 3], [2, 2], [5, 4], [0, 7]] : Scores ℚ) ["op-1", "op-2", "op-3", "op-4"]
      ["edge-node-1", "cloud"] placement 0 "edge-node-1" := by
  have hrun : (findOptimalPlacement ([[1, 3], [2, 2], [5, 4], [0, 7]] : Scores ℚ)
      ["op-1", "op-2", "op-3", "op-4"] ["edge-node-1", "cloud"]
      (Dict.ofList [("edge-node-1", 1), ("cloud", 2)])).toOption.any
        (fun placement => placement.get "op-1" = some "cloud") = true := by decide +kernel
  cases h : findOptimalPlacement ([[1, 3], [2, 2], [5, 4], [0, 7]] : Scores ℚ)
      ["op-1", "op-2", "op-3", "op-4"] ["edge-node-1", "cloud"]
      (Dict.ofList [("edge-node-1", 1), ("cloud", 2)]) with
  | error e => rw [h] at hrun; exact absurd hrun (by simp [Except.toOption])
  | ok placement =>
      rw [h] at hrun
      have hget : placement.get "op-1" = some "cloud" := of_decide_eq_true hrun
      have hop : ["op-1", "op-2", "op-3", "op-4"][0]? = some "op-1" := rfl
      obtain ⟨capacity, hcapacity, hrivals, -⟩ := (no_justified_envy
        ([[1, 3], [2, 2], [5, 4], [0, 7]] : Scores ℚ) ["op-1", "op-2", "op-3", "op-4"] ["edge-node-1", "cloud"]
        (Dict.ofList [("edge-node-1", 1), ("cloud", 2)]) (by decide) (by decide) (by decide) h
        hop).1 0 "edge-node-1" rfl (Or.inr ⟨1, "cloud", rfl, hget, Or.inl (by decide +kernel)⟩)
      cases hcapacity
      exact ⟨placement, rfl, hget, hrivals⟩

end Aode
end HybridStream
