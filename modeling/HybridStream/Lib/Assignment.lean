import HybridStream.Lib.Dict
import Mathlib.Algebra.BigOperators.Group.Finset.Basic
import Mathlib.Algebra.Order.BigOperators.Group.Finset
import Mathlib.Algebra.Order.Group.Multiset
import Mathlib.Algebra.BigOperators.Ring.Finset
import Mathlib.Algebra.Order.Ring.Defs
import Mathlib.Data.Nat.Cast.Order.Ring
import Mathlib.Data.Finset.Max
import Mathlib.Tactic.Abel

/-!
# `Lib.Assignment` — items assigned to bins of limited capacity

A dictionary from items to bins is an assignment; `load d b` is the number of items it puts into bin `b`.

* `exists_room` — a bin has room as long as the items do not fill all bins;
* `cost_le_of_filledFirst` — where every bin has a price per item, an assignment that uses no bin while a
  cheaper one has room is as cheap as any within the capacities;
* `cost_update_le` — what reassigning items one by one does to the total cost, where each of the moves gains.

Nothing here names a particular system.
-/

namespace HybridStream
namespace Lib
namespace Dict

universe u v w

variable {κ : Type u} {β : Type v} [BEq κ] [LawfulBEq κ] [DecidableEq β]

/-- The number of items assigned to a bin. -/
def load (d : Dict κ β) (b : β) : Nat := d.values.count b

omit [LawfulBEq κ] in
@[simp] theorem load_empty (b : β) : load (∅ : Dict κ β) b = 0 := rfl

theorem load_eq_countP (d : Dict κ β) (b : β) :
    d.load b = d.keys.countP (fun k => decide (d.get k = some b)) := by
  unfold load values keys
  rw [List.count_eq_countP, List.countP_map, List.countP_map]
  refine List.countP_congr fun e he => ?_
  have hget : d.get e.1 = some e.2 := get_eq_some_iff.mpr he
  simp [hget]

omit [DecidableEq β] in
theorem entries_set_of_not_mem {d : Dict κ β} {k : κ} (h : k ∉ d.keys) (b : β) :
    (d.set k b).entries = d.entries ++ [(k, b)] := setEntry_of_not_mem h

omit [DecidableEq β] in
theorem values_set_of_not_mem {d : Dict κ β} {k : κ} (h : k ∉ d.keys) (b : β) :
    (d.set k b).values = d.values ++ [b] := by
  unfold values
  rw [entries_set_of_not_mem h, List.map_append]
  rfl

omit [DecidableEq β] in
theorem mem_values_of_get {d : Dict κ β} {k : κ} {b : β} (h : d.get k = some b) : b ∈ d.values :=
  List.mem_map.mpr ⟨(k, b), get_eq_some_iff.mp h, rfl⟩

/-- A new item adds to the load of its bin. -/
theorem load_set_of_not_mem {d : Dict κ β} {k : κ} (h : k ∉ d.keys) (b b' : β) :
    (d.set k b).load b' = d.load b' + if b = b' then 1 else 0 := by
  unfold load
  rw [values_set_of_not_mem h, List.count_append]
  by_cases hb : b = b'
  · simp [hb]
  · simp [hb]

omit [LawfulBEq κ] [DecidableEq β] in
theorem values_length (d : Dict κ β) : d.values.length = d.size := List.length_map ..

omit [LawfulBEq κ] in
theorem sum_load {d : Dict κ β} {bins : Finset β} (h : ∀ b ∈ d.values, b ∈ bins) :
    ∑ b ∈ bins, d.load b = d.size := by
  calc ∑ b ∈ bins, d.load b = ∑ b ∈ bins, Multiset.count b (d.values : Multiset β) := by
        refine Finset.sum_congr rfl fun b _ => ?_
        exact (Multiset.coe_count b d.values).symm
    _ = d.size := by
        rw [Multiset.sum_count_eq_card (fun b hb => h b (Multiset.mem_coe.mp hb)), Multiset.coe_card]
        exact List.length_map ..

omit [LawfulBEq κ] in
/-- As long as not all bins are full, one of them has room. -/
theorem exists_room {d : Dict κ β} {bins : Finset β} (capacity : β → Nat) (h : ∀ b ∈ d.values, b ∈ bins)
    (hlt : d.size < ∑ b ∈ bins, capacity b) : ∃ b ∈ bins, d.load b < capacity b := by
  refine Finset.exists_lt_of_sum_lt ?_
  rw [sum_load h]
  exact hlt

/-- What an assignment costs, where each item has its own cost for each bin. -/
def cost {K : Type w} [Add K] [Zero K] (costOf : κ → β → K) (d : Dict κ β) : K :=
  (d.entries.map (fun e => costOf e.1 e.2)).sum

/-! ## Cheap bins first

An assignment whose items each cost their own part and a price of the bin is judged by the prices alone, and those by
how full the bins are. The dearest price paid separates the bins, which gives the exchange argument without exchanging
anything: what is missing below it in any other assignment is paid for above it. -/

section Cheapest

omit [LawfulBEq κ]

variable {K : Type w} [Ring K] [LinearOrder K] [IsStrictOrderedRing K]
variable {bins : Finset β} {price : β → K} {capacity : β → Nat} {d d' : Dict κ β}

/-- No bin is used while a cheaper one has room. -/
def FilledFirst (bins : Finset β) (price : β → K) (capacity : β → Nat) (d : Dict κ β) : Prop :=
  ∀ b ∈ bins, ∀ b' ∈ bins, price b < price b' → 0 < d.load b' → capacity b ≤ d.load b

omit [LinearOrder K] [IsStrictOrderedRing K] in
/-- The prices paid, bin by bin. -/
theorem sum_price (price : β → K) (h : ∀ b ∈ d.values, b ∈ bins) :
    (d.values.map price).sum = ∑ b ∈ bins, (d.load b : K) * price b := by
  have hsubset : d.values.toFinset ⊆ bins := fun b hb => h b (List.mem_toFinset.mp hb)
  calc (d.values.map price).sum = ∑ b ∈ d.values.toFinset, d.values.count b • price b :=
        Finset.sum_list_map_count d.values price
    _ = ∑ b ∈ bins, d.values.count b • price b := by
        refine Finset.sum_subset hsubset fun b _ hb => ?_
        rw [List.count_eq_zero_of_not_mem (mt List.mem_toFinset.mpr hb), zero_nsmul]
    _ = ∑ b ∈ bins, (d.load b : K) * price b := Finset.sum_congr rfl fun b _ => nsmul_eq_mul _ _

/-- **Cheap bins first is cheapest.** The dearest price paid separates the bins: below it all are full, above
    it all are empty, so any other assignment can only move items up across it. -/
theorem cost_le_of_filledFirst (hfilled : FilledFirst bins price capacity d)
    (hbins : ∀ b ∈ d.values, b ∈ bins) (hbins' : ∀ b ∈ d'.values, b ∈ bins)
    (hfits' : ∀ b ∈ bins, d'.load b ≤ capacity b) (hsize : d.size = d'.size) :
    (d.values.map price).sum ≤ (d'.values.map price).sum := by
  rcases d.values.eq_nil_or_concat with hnil | ⟨_, used, hlast⟩
  · have hlen : d'.values.length = d.values.length := by rw [values_length, values_length, hsize]
    rw [hnil, List.length_nil, List.length_eq_zero_iff] at hlen
    rw [hnil, hlen]
  · have hused : used ∈ d.values := by rw [hlast, List.concat_eq_append]; exact List.mem_concat_self
    obtain ⟨top, htop, hmax⟩ := Finset.exists_max_image (bins.filter (fun b => 0 < d.load b)) price
      ⟨used, Finset.mem_filter.mpr ⟨hbins used hused, List.count_pos_iff.mpr hused⟩⟩
    obtain ⟨htop, hload⟩ := Finset.mem_filter.mp htop
    have hterm : ∀ b ∈ bins, 0 ≤ ((d'.load b : K) - d.load b) * (price b - price top) := by
      intro b hb
      rcases lt_trichotomy (price b) (price top) with hlt | heq | hgt
      · have hfull := hfilled b hb top htop hlt hload
        have hle : (d'.load b : K) ≤ d.load b := by exact_mod_cast (hfits' b hb).trans hfull
        exact mul_nonneg_of_nonpos_of_nonpos (sub_nonpos.mpr hle) (sub_nonpos.mpr hlt.le)
      · rw [heq, sub_self, mul_zero]
      · have hempty : d.load b = 0 := by
          by_contra hne
          exact absurd hgt (not_lt.mpr (hmax b (Finset.mem_filter.mpr ⟨hb, Nat.pos_of_ne_zero hne⟩)))
        rw [hempty, Nat.cast_zero, sub_zero]
        exact mul_nonneg (Nat.cast_nonneg _) (sub_nonneg.mpr hgt.le)
    -- what the price above `top` adds up to is the difference of the two prices, the sizes being equal
    have hcount : ∑ b ∈ bins, (d'.load b : K) = ∑ b ∈ bins, (d.load b : K) := by
      rw [← Nat.cast_sum, ← Nat.cast_sum, sum_load hbins', sum_load hbins, hsize]
    have hsum := Finset.sum_nonneg hterm
    simp only [sub_mul, mul_sub, Finset.sum_sub_distrib, ← Finset.sum_mul, hcount, sub_self, sub_zero] at hsum
    rw [sum_price price hbins, sum_price price hbins']
    exact sub_nonneg.mp hsum

/-- **Separable costs.** Where an item's cost for a bin is its own part and the bin's price, cheap bins first
    is cheapest among all assignments of the same items. -/
theorem cost_le_of_separable {costOf : κ → β → K} {own : κ → K}
    (hcost : ∀ k ∈ d.keys, ∀ b ∈ bins, costOf k b = own k + price b)
    (hfilled : FilledFirst bins price capacity d) (hkeys : d.keys.Perm d'.keys)
    (hbins : ∀ b ∈ d.values, b ∈ bins) (hbins' : ∀ b ∈ d'.values, b ∈ bins)
    (hfits' : ∀ b ∈ bins, d'.load b ≤ capacity b) : d.cost costOf ≤ d'.cost costOf := by
  have hsplit : ∀ d'' : Dict κ β, (∀ k ∈ d''.keys, k ∈ d.keys) → (∀ b ∈ d''.values, b ∈ bins) →
      d''.cost costOf = (d''.keys.map own).sum + (d''.values.map price).sum := by
    intro d'' hk hb
    unfold cost keys values
    rw [List.map_map, List.map_map, ← List.sum_map_add]
    refine congrArg List.sum (List.map_congr_left fun e he => ?_)
    exact hcost e.1 (hk _ (List.mem_map_of_mem he)) e.2 (hb _ (List.mem_map_of_mem he))
  have hsize : d.size = d'.size := by
    have hlen := hkeys.length_eq
    unfold keys at hlen
    rwa [List.length_map, List.length_map] at hlen
  rw [hsplit d (fun _ h => h) hbins, hsplit d' (fun _ h => hkeys.mem_iff.mpr h) hbins', (hkeys.map own).sum_eq]
  exact add_le_add_right (cost_le_of_filledFirst hfilled hbins hbins' hfits' hsize) _

end Cheapest

/-! ## Moves that gain

The cost after a list of moves, each of another item. The moves do not interfere, so the cost falls by the sum of what
they gain, and a process that only makes moves of a least gain has made boundedly many. -/

section Moves

omit [DecidableEq β]

variable {K : Type w} {costOf : κ → β → K}

/-- Reassigning an item changes the cost by its own difference. -/
theorem cost_set [AddCommGroup K] {d : Dict κ β} {k : κ} {b : β} (h : d.get k = some b) (b' : β) :
    (d.set k b').cost costOf + costOf k b = d.cost costOf + costOf k b' := by
  have hset : ∀ es : List (κ × β), lookupEntry k es = some b →
      ((setEntry k b' es).map (fun e => costOf e.1 e.2)).sum + costOf k b =
        (es.map (fun e => costOf e.1 e.2)).sum + costOf k b' := by
    intro es
    induction es with
    | nil => exact fun hk => by cases hk
    | cons e es ih =>
        intro hk
        unfold lookupEntry at hk
        unfold setEntry
        split at hk
        · rename_i heq
          rw [if_pos heq, ← eq_of_beq heq]
          cases hk
          simp only [List.map_cons, List.sum_cons]
          abel
        · rename_i hne
          have hrest := ih hk
          rw [if_neg hne, List.map_cons, List.sum_cons, List.map_cons, List.sum_cons, add_assoc, hrest, add_assoc]
  exact hset d.entries h

/-- **Moves that gain lower the cost.** If every move of a list, of different items, gains at least `gain`,
    they lower the cost by at least as much for each. -/
theorem cost_update_le [AddCommGroup K] [LinearOrder K] [IsOrderedAddMonoid K] {d : Dict κ β} {gain : K}
    {moves : List (κ × β)} (hmoves : (moves.map Prod.fst).Nodup)
    (hgain : ∀ m ∈ moves, ∃ b, d.get m.1 = some b ∧ costOf m.1 m.2 + gain ≤ costOf m.1 b) :
    (d.update moves).cost costOf + moves.length • gain ≤ d.cost costOf := by
  induction moves generalizing d with
  | nil => rw [List.length_nil, zero_nsmul, add_zero]; exact le_refl _
  | cons m moves ih =>
      rw [List.map_cons, List.nodup_cons] at hmoves
      obtain ⟨b, hb, hle⟩ := hgain m List.mem_cons_self
      have hrest : ∀ m' ∈ moves, ∃ b, (d.set m.1 m.2).get m'.1 = some b ∧
          costOf m'.1 m'.2 + gain ≤ costOf m'.1 b := by
        intro m' hm'
        have hne : m'.1 ≠ m.1 := fun heq => hmoves.1 (heq ▸ List.mem_map_of_mem hm')
        rw [get_set_ne _ hne]
        exact hgain m' (List.mem_cons_of_mem _ hm')
      have hcost := ih hmoves.2 hrest
      rw [List.length_cons, succ_nsmul, ← add_assoc]
      refine le_of_add_le_add_right (a := costOf m.1 b) ?_
      calc ((d.set m.1 m.2).update moves).cost costOf + moves.length • gain + gain + costOf m.1 b
          ≤ (d.set m.1 m.2).cost costOf + gain + costOf m.1 b := by gcongr
        _ = d.cost costOf + (costOf m.1 m.2 + gain) := by rw [add_right_comm, cost_set hb, add_assoc]
        _ ≤ d.cost costOf + costOf m.1 b := by gcongr

end Moves

/-! ## Keys

Reassigning items keeps which items there are and their order, so sums over the items can be compared before and
after. -/

section Keys

omit [DecidableEq β]

theorem keys_set_of_not_mem {d : Dict κ β} {k : κ} (h : k ∉ d.keys) (b : β) :
    (d.set k b).keys = d.keys ++ [k] := by
  unfold keys
  rw [entries_set_of_not_mem h, List.map_append]
  rfl

/-- Reassigning an item keeps the items and their order. -/
theorem keys_set_of_mem {d : Dict κ β} {k : κ} (h : k ∈ d.keys) (b : β) : (d.set k b).keys = d.keys := by
  have hset : ∀ es : List (κ × β), k ∈ es.map Prod.fst →
      (setEntry k b es).map Prod.fst = es.map Prod.fst := by
    intro es
    induction es with
    | nil => exact fun hk => absurd hk List.not_mem_nil
    | cons e es ih =>
        intro hk
        unfold setEntry
        split
        · rfl
        · rename_i hne
          have hrest : k ∈ es.map Prod.fst := by
            refine (List.mem_cons.mp hk).resolve_left fun heq => hne ?_
            rw [heq]
            exact BEq.rfl
          rw [List.map_cons, ih hrest, List.map_cons]
  exact hset d.entries h

theorem mem_keys_set {d : Dict κ β} {k k' : κ} {b : β} (h : k' ∈ (d.set k b).keys) : k' = k ∨ k' ∈ d.keys := by
  by_cases hk : k ∈ d.keys
  · rw [keys_set_of_mem hk] at h
    exact Or.inr h
  · rw [keys_set_of_not_mem hk] at h
    rcases List.mem_append.mp h with hold | hnew
    · exact Or.inr hold
    · exact Or.inl (List.mem_singleton.mp hnew)

theorem keys_update_of_mem {es : List (κ × β)} {d : Dict κ β} (h : ∀ e ∈ es, e.1 ∈ d.keys) :
    (d.update es).keys = d.keys := by
  induction es generalizing d with
  | nil => rfl
  | cons e es ih =>
      have hset := keys_set_of_mem (h e List.mem_cons_self) e.2
      show ((d.set e.1 e.2).update es).keys = d.keys
      rw [ih, hset]
      intro e' he'
      rw [hset]
      exact h e' (List.mem_cons_of_mem _ he')

end Keys

end Dict
end Lib
end HybridStream
