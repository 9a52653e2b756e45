import HybridStream.Common.DagModel
import HybridStream.Lib.Topological

/-!
# `Common.Correctness.TopologicalOrder` — the topological order is exact

`topological_order` returns exactly for the graphs that have a topological order of their operators, and returns one
(`topologicalOrder_exact`). The invariant of the loop says what an in-degree counts: the edges from operators that
are not emitted yet. An edge from an operator that is not declared is counted for ever, like one on a cycle.

The statement covers graphs with repeated operators and edges and with edges to nowhere, which end in a `KeyError` or
in the `ValueError` for a cycle. That a graph with an order has all its operators emitted is by the first of them, in
that order, that is left over.
-/

namespace HybridStream
namespace Common
namespace OperatorDAG

open Lib Py

variable {dag : OperatorDAG}

/-- A graph that can be ordered. -/
structure WellFormed (dag : OperatorDAG) : Prop where
  distinct : dag.ids.Nodup
  declared : ∀ dep ∈ dag.dependencies, dep.upstreamId ∈ dag.ids ∧ dep.downstreamId ∈ dag.ids
  acyclic  : Acyclic (fun u v => u ∈ dag.upstreamIds v)

/-- Every operator stands behind those it depends on. -/
def Respects (dag : OperatorDAG) (order : List String) : Prop :=
  ∀ dep ∈ dag.dependencies, order.idxOf dep.upstreamId < order.idxOf dep.downstreamId

theorem mem_upstreamIds {u v : String} :
    u ∈ dag.upstreamIds v ↔ ∃ dep ∈ dag.dependencies, dep.upstreamId = u ∧ dep.downstreamId = v := by
  unfold upstreamIds
  simp only [List.mem_map, List.mem_filter, decide_eq_true_eq]
  constructor
  · rintro ⟨dep, ⟨hdep, hdown⟩, hup⟩
    exact ⟨dep, hdep, hup, hdown⟩
  · rintro ⟨dep, hdep, hup, hdown⟩
    exact ⟨dep, ⟨hdep, hdown⟩, hup⟩

/-! ## In-degrees

The counter of an operator is the number of edges into it that are still open, that is, whose origin has not been
emitted. -/

/-- The edges to `v` from operators that are not emitted. -/
def openEdges (dag : OperatorDAG) (order : List String) (v : String) : Nat :=
  dag.dependencies.countP (fun dep => decide (dep.downstreamId = v ∧ dep.upstreamId ∉ order))

theorem openEdges_eq_zero {order : List String} {v : String} :
    dag.openEdges order v = 0 ↔ ∀ dep ∈ dag.dependencies, dep.downstreamId = v → dep.upstreamId ∈ order := by
  unfold openEdges
  rw [List.countP_eq_zero]
  refine forall₂_congr fun dep _ => ?_
  rw [decide_eq_true_iff, not_and_not_right]

/-- Emitting an operator closes its own edges. -/
theorem openEdges_append {order : List String} {node : String} (hnode : node ∉ order) (v : String) :
    dag.openEdges order v = dag.openEdges (order ++ [node]) v + (dag.downstreamIds node).count v := by
  unfold openEdges downstreamIds
  induction dag.dependencies with
  | nil => rfl
  | cons dep deps ih =>
      rw [List.countP_cons, List.countP_cons, ih, List.filter_cons]
      by_cases hup : dep.upstreamId = node
      · by_cases hdown : dep.downstreamId = v
        · simp [hup, hdown, hnode]
          omega
        · simp [hup, hdown]
      · by_cases hdown : dep.downstreamId = v
        · simp [hup, hdown]
          omega
        · simp [hup, hdown]

theorem downstreamIds_declared (hdeclared : ∀ dep ∈ dag.dependencies, dep.downstreamId ∈ dag.ids)
    (node : String) : ∀ v ∈ dag.downstreamIds node, v ∈ dag.ids := by
  intro v hv
  obtain ⟨dep, hdep, rfl⟩ := List.mem_map.mp hv
  exact hdeclared dep (List.mem_of_mem_filter hdep)

/-! ## The invariant of the loop

What the queue, the counters and the order so far have to do with each other: emitted and queued operators wait for
emitted ones only, and what waits for nothing is queued or emitted. The outer loop emits an operator and the inner one
closes its edges, so the invariant has a part for the edges that are still to be closed. -/

/-- What the loop keeps. `closing` are the edges of the last emitted operator that are still to be taken away. -/
structure KahnInv (dag : OperatorDAG) (closing : List String) (s : KahnState) (order : List String) : Prop where
  declared : ∀ v, (∃ deg, s.2.get v = some deg) ↔ v ∈ dag.ids
  degree   : ∀ v deg, s.2.get v = some deg → deg = dag.openEdges order v + closing.count v
  nodup    : (order ++ s.1).Nodup
  ready    : ∀ v, v ∈ order ++ s.1 ↔ s.2.get v = some 0
  ordered  : ∀ dep ∈ dag.dependencies, dep.downstreamId ∈ order →
    order.idxOf dep.upstreamId < order.idxOf dep.downstreamId

namespace KahnInv

variable {closing queue : List String} {s : KahnState} {order : List String} {node v : String}

/-- The operators that are emitted or queued wait for emitted ones only. -/
theorem upstream_mem (h : KahnInv dag [] s order) (hv : v ∈ order ++ s.1) {dep : Dependency}
    (hdep : dep ∈ dag.dependencies) (hdown : dep.downstreamId = v) : dep.upstreamId ∈ order := by
  have hdegree := h.degree v 0 ((h.ready v).mp hv)
  rw [List.count_nil] at hdegree
  have hzero : dag.openEdges order v = 0 := by omega
  exact openEdges_eq_zero.mp hzero dep hdep hdown

/-- The first operator of the queue is emitted. -/
theorem emit {inDegree : Dict String Int} (h : KahnInv dag [] (node :: queue, inDegree) order) :
    KahnInv dag (dag.downstreamIds node) (queue, inDegree) (order ++ [node]) := by
  have hsplit : order ++ node :: queue = order ++ [node] ++ queue := by simp
  have hnode : node ∉ order := by
    intro hmem
    exact (List.nodup_append.mp h.nodup).2.2 node hmem node List.mem_cons_self rfl
  refine ⟨h.declared, fun v deg hget => ?_, hsplit ▸ h.nodup, fun v => ?_, fun dep hdep hdown => ?_⟩
  · have hdegree := h.degree v deg hget
    rw [openEdges_append hnode, List.count_nil] at hdegree
    omega
  · rw [← hsplit]
    exact h.ready v
  · have hup : dep.upstreamId ∈ order := by
      refine h.upstream_mem ?_ hdep rfl
      rw [hsplit]
      exact List.mem_append_left _ hdown
    rw [List.idxOf_append_of_mem hup]
    rcases List.mem_append.mp hdown with hdown | hdown
    · rw [List.idxOf_append_of_mem hdown]
      exact h.ordered dep hdep hdown
    · rw [List.mem_singleton.mp hdown, List.idxOf_append_of_notMem hnode]
      exact Nat.lt_add_right _ (List.idxOf_lt_length_iff.mpr hup)

/-- One of its edges is taken away. -/
theorem relax {downstream : String} (h : KahnInv dag (downstream :: closing) s order)
    (hdeclared : downstream ∈ dag.ids) :
    ∃ s', Common.relax s downstream = .ok s' ∧ KahnInv dag closing s' order := by
  obtain ⟨deg, hget⟩ := (h.declared downstream).mpr hdeclared
  have hdegree := h.degree downstream deg hget
  rw [List.count_cons_self] at hdegree
  have hfresh : downstream ∉ order ++ s.1 := by
    rw [h.ready, hget]
    simp only [Option.some.injEq]
    omega
  have hrelax : Common.relax s downstream = .ok
      (if deg + -1 = 0 then s.1 ++ [downstream] else s.1, s.2.set downstream (deg + -1)) := by
    unfold Common.relax bump
    rw [hget]
    show Except.ok _ = _
    simp only [Dict.get_set_self, Option.some.injEq]
  -- what does not depend on whether the operator is queued
  have hdeclared' : ∀ v, (∃ d, (s.2.set downstream (deg + -1)).get v = some d) ↔ v ∈ dag.ids := by
    intro v
    rw [Dict.get_set, ← h.declared v]
    by_cases hv : v = downstream
    · rw [if_pos hv, hv]
      exact iff_of_true ⟨_, rfl⟩ ⟨_, hget⟩
    · rw [if_neg hv]
  have hdegree' : ∀ v d, (s.2.set downstream (deg + -1)).get v = some d →
      d = dag.openEdges order v + closing.count v := by
    intro v d hd
    rw [Dict.get_set] at hd
    by_cases hv : v = downstream
    · rw [if_pos hv] at hd
      cases hd
      rw [hv]
      omega
    · rw [if_neg hv] at hd
      rw [h.degree v d hd, List.count_cons_of_ne (Ne.symm hv)]
  refine ⟨_, hrelax, hdeclared', hdegree', ?_, fun v => ?_, h.ordered⟩
  · dsimp only
    split
    · rw [← List.append_assoc]
      exact List.nodup_append.mpr ⟨h.nodup, List.nodup_singleton _, fun x hx y hy heq =>
        hfresh (List.mem_singleton.mp hy ▸ heq ▸ hx)⟩
    · exact h.nodup
  · dsimp only
    rw [Dict.get_set]
    by_cases hv : v = downstream
    · rw [if_pos hv, Option.some.injEq, hv]
      split
      · rename_i hzero
        exact iff_of_true (by simp) hzero
      · rename_i hzero
        exact iff_of_false hfresh hzero
    · rw [if_neg hv, ← h.ready v]
      split
      · simp [hv]
      · rfl

/-- All of them are. -/
theorem relaxAll (h : KahnInv dag closing s order) (hdeclared : ∀ v ∈ closing, v ∈ dag.ids) :
    ∃ s', closing.foldlM Common.relax s = .ok s' ∧ KahnInv dag [] s' order := by
  induction closing generalizing s with
  | nil => exact ⟨s, rfl, h⟩
  | cons downstream closing ih =>
      obtain ⟨t, ht, hinv⟩ := h.relax (hdeclared downstream List.mem_cons_self)
      obtain ⟨s', hs', hinv'⟩ := ih hinv fun v hv => hdeclared v (List.mem_cons_of_mem _ hv)
      refine ⟨s', ?_, hinv'⟩
      rw [List.foldlM_cons, ht]
      exact hs'

/-- The loop empties the queue. -/
theorem drain {inDegree : Dict String Int} (hdeclared : ∀ dep ∈ dag.dependencies, dep.downstreamId ∈ dag.ids)
    (h : KahnInv dag [] (queue, inDegree) order) :
    ∃ order' inDegree', dag.drain queue inDegree order = .ok order' ∧
      KahnInv dag [] ([], inDegree') order' := by
  induction queue, inDegree, order using OperatorDAG.drain.induct dag with
  | case1 inDegree order =>
      rw [OperatorDAG.drain]
      exact ⟨order, inDegree, rfl, h⟩
  | case2 inDegree order node queue e herror =>
      obtain ⟨t, ht, -⟩ := h.emit.relaxAll (downstreamIds_declared hdeclared node)
      rw [ht] at herror
      cases herror
  | case3 inDegree order node queue queue' inDegree' hrelax ih =>
      obtain ⟨t, ht, hinv⟩ := h.emit.relaxAll (downstreamIds_declared hdeclared node)
      rw [hrelax] at ht
      cases ht
      obtain ⟨order', inDegree'', hdrain, hinv'⟩ := ih hinv
      refine ⟨order', inDegree'', ?_, hinv'⟩
      rw [OperatorDAG.drain]
      split
      · rename_i e herror
        rw [hrelax] at herror
        cases herror
      · rename_i hok
        rw [hrelax] at hok
        cases hok
        exact hdrain

end KahnInv

/-! ## The start

The counters before the loop. Counting the edges raises where an edge names an operator that is not declared, and that
is the only place where anything raises but the final check. -/

theorem bump_eq_ok {n : Int} {inDegree inDegree' : Dict String Int} {oid : String} :
    bump n inDegree oid = .ok inDegree' ↔ ∃ deg, inDegree.get oid = some deg ∧
      inDegree' = inDegree.set oid (deg + n) := by
  unfold bump
  cases inDegree.get oid with
  | none => simp
  | some deg => simp [eq_comm]

/-- Counting the edges: it succeeds where every edge ends at an operator that is declared. -/
theorem countEdges (deps : List Dependency) (inDegree : Dict String Int)
    (hdeclared : ∀ dep ∈ deps, ∃ deg, inDegree.get dep.downstreamId = some deg) :
    ∃ inDegree', deps.foldlM (fun inDegree dep => bump 1 inDegree dep.downstreamId) inDegree = .ok inDegree' ∧
      ∀ v, inDegree'.get v = (inDegree.get v).map
        (fun deg : Int => deg + deps.countP (fun dep => decide (dep.downstreamId = v))) := by
  induction deps generalizing inDegree with
  | nil => exact ⟨inDegree, rfl, fun v => by cases inDegree.get v <;> simp⟩
  | cons dep deps ih =>
      obtain ⟨deg, hget⟩ := hdeclared dep List.mem_cons_self
      have hrest : ∀ dep' ∈ deps, ∃ d,
          (inDegree.set dep.downstreamId (deg + 1)).get dep'.downstreamId = some d := by
        intro dep' hdep'
        rw [Dict.get_set]
        split
        · exact ⟨_, rfl⟩
        · exact hdeclared dep' (List.mem_cons_of_mem _ hdep')
      obtain ⟨inDegree', hfold, hcount⟩ := ih _ hrest
      refine ⟨inDegree', ?_, fun v => ?_⟩
      · rw [List.foldlM_cons, bump_eq_ok.mpr ⟨deg, hget, rfl⟩]
        exact hfold
      · rw [hcount, Dict.get_set, List.countP_cons]
        by_cases hv : v = dep.downstreamId
        · rw [if_pos hv, hv, hget]
          simp only [Option.map_some, decide_true, if_true]
          congr 1
          omega
        · simp [if_neg hv, Ne.symm hv]

/-- And only there: elsewhere it raises a `KeyError`. -/
theorem keyError_of_countEdges {deps : List Dependency} {inDegree : Dict String Int} {dep : Dependency}
    (hdep : dep ∈ deps) (hnone : inDegree.get dep.downstreamId = none) :
    ∃ message, deps.foldlM (fun inDegree dep => bump 1 inDegree dep.downstreamId) inDegree =
      .error ⟨.keyError, message⟩ := by
  induction deps generalizing inDegree with
  | nil => exact absurd hdep List.not_mem_nil
  | cons first deps ih =>
      rw [List.foldlM_cons]
      cases hfirst : inDegree.get first.downstreamId with
      | none =>
          unfold bump
          rw [hfirst]
          exact ⟨_, rfl⟩
      | some deg =>
          rw [bump_eq_ok.mpr ⟨deg, hfirst, rfl⟩]
          have hne : dep.downstreamId ≠ first.downstreamId := by
            intro heq
            rw [heq, hfirst] at hnone
            cases hnone
          have hrest : dep ∈ deps := (List.mem_cons.mp hdep).resolve_left fun heq => hne (heq ▸ rfl)
          exact ih hrest (by rw [Dict.get_set_ne _ hne]; exact hnone)

/-- The zeros the in-degrees start from. -/
theorem get_zeros (dag : OperatorDAG) (v : String) :
    (Dict.ofList (dag.ids.map (fun oid => (oid, (0 : Int))))).get v = if v ∈ dag.ids then some 0 else none :=
  Dict.get_ofList_map (fun _ => (0 : Int)) dag.ids v

/-- Where every edge ends at an operator, the loop starts on its invariant. -/
theorem inDegree_spec (hdeclared : ∀ dep ∈ dag.dependencies, dep.downstreamId ∈ dag.ids) :
    ∃ inDegree, dag.inDegree = .ok inDegree ∧
      KahnInv dag [] ((inDegree.entries.filter (fun e => e.2 = 0)).map Prod.fst, inDegree) [] := by
  obtain ⟨inDegree, hfold, hcount⟩ := countEdges dag.dependencies
    (Dict.ofList (dag.ids.map (fun oid => (oid, 0))))
    (fun dep hdep => ⟨0, by rw [get_zeros, if_pos (hdeclared dep hdep)]⟩)
  have hget : ∀ v, inDegree.get v = if v ∈ dag.ids then some (dag.openEdges [] v : Int) else none := by
    intro v
    rw [hcount, get_zeros]
    split
    · simp [openEdges]
    · rfl
  refine ⟨inDegree, hfold, fun v => ?_, fun v deg hdeg => ?_, ?_, fun v => ?_, fun dep _ h => absurd h List.not_mem_nil⟩
  · dsimp only
    rw [hget]
    split
    · rename_i hv
      exact iff_of_true ⟨_, rfl⟩ hv
    · rename_i hv
      exact iff_of_false (by simp) hv
  · dsimp only at hdeg
    rw [hget] at hdeg
    split at hdeg
    · cases hdeg
      simp
    · cases hdeg
  · rw [List.nil_append]
    exact (List.filter_sublist.map Prod.fst).nodup inDegree.keys_nodup
  · rw [List.nil_append, Dict.get_eq_some_iff]
    simp

/-! ## What the loop leaves

The loop ends with an empty queue. Whether all operators have been emitted by then decides between the order and the
`ValueError`: in an acyclic graph none can be left over, as one that is left waits for another one that is. -/

/-- What the loop has emitted when the queue is empty. -/
theorem emitted_subset {inDegree : Dict String Int} {order : List String}
    (h : KahnInv dag [] ([], inDegree) order) : order ⊆ dag.ids := by
  intro v hv
  refine (h.declared v).mp ⟨0, (h.ready v).mp ?_⟩
  rw [List.append_nil]
  exact hv

/-- As many as there are operators are all operators, each of them once and behind those it depends on, so the
    graph can be ordered. -/
theorem wellFormed_of_length {inDegree : Dict String Int} {order : List String}
    (hdeclared : ∀ dep ∈ dag.dependencies, dep.downstreamId ∈ dag.ids) (h : KahnInv dag [] ([], inDegree) order)
    (hlength : order.length = dag.operators.length) :
    order.Perm dag.ids ∧ dag.WellFormed ∧ dag.Respects order := by
  have hnodup := h.nodup
  rw [List.append_nil] at hnodup
  have hids : dag.ids.length = dag.operators.length := List.length_map ..
  have hperm : order.Perm dag.ids := (hnodup.subperm (emitted_subset h)).perm_of_length_le (by omega)
  have hrespects : dag.Respects order := fun dep hdep =>
    h.ordered dep hdep (hperm.mem_iff.mpr (hdeclared dep hdep))
  refine ⟨hperm, ⟨hperm.nodup_iff.mp hnodup, fun dep hdep => ⟨?_, hdeclared dep hdep⟩, ?_⟩, hrespects⟩
  · refine hperm.mem_iff.mp (h.upstream_mem ?_ hdep rfl)
    rw [List.append_nil]
    exact hperm.mem_iff.mpr (hdeclared dep hdep)
  · refine Acyclic.of_rank order.idxOf fun u v hu => ?_
    obtain ⟨dep, hdep, rfl, rfl⟩ := mem_upstreamIds.mp hu
    exact hrespects dep hdep

/-- In an acyclic graph of declared operators all are emitted. -/
theorem ids_subset {inDegree : Dict String Int} {order : List String} (hdag : dag.WellFormed)
    (h : KahnInv dag [] ([], inDegree) order) : dag.ids ⊆ order := by
  have hreach : {v | v ∈ dag.ids} ⊆ {v | v ∈ order} := by
    refine hdag.acyclic.reaches_all dag.ids.finite_toSet (fun u v hu => ?_) fun v hv hall => ?_
    · obtain ⟨dep, hdep, rfl, -⟩ := mem_upstreamIds.mp hu
      exact (hdag.declared dep hdep).1
    · -- all its edges are closed, so its in-degree is 0
      obtain ⟨deg, hget⟩ := (h.declared v).mpr hv
      have hzero : dag.openEdges order v = 0 :=
        openEdges_eq_zero.mpr fun dep hdep hdown => hall _ (mem_upstreamIds.mpr ⟨dep, hdep, rfl, hdown⟩)
      have hdegree := h.degree v deg hget
      rw [hzero, List.count_nil] at hdegree
      have hready := (h.ready v).mpr (by rw [hget, hdegree]; rfl)
      rw [List.append_nil] at hready
      exact hready
  exact hreach

/-- So there are as many of them. -/
theorem length_of_wellFormed {inDegree : Dict String Int} {order : List String} (hdag : dag.WellFormed)
    (h : KahnInv dag [] ([], inDegree) order) : order.length = dag.operators.length := by
  have hnodup := h.nodup
  rw [List.append_nil] at hnodup
  have hids : dag.ids.length = dag.operators.length := List.length_map ..
  have hle := (hnodup.subperm (emitted_subset h)).length_le
  have hge := (hdag.distinct.subperm (ids_subset hdag h)).length_le
  omega

/-- The ways `topological_order` ends. -/
theorem topologicalOrder_cases (dag : OperatorDAG) :
    ((∃ dep ∈ dag.dependencies, dep.downstreamId ∉ dag.ids) ∧
      ∃ message, dag.topologicalOrder = .error ⟨.keyError, message⟩) ∨
    ((∀ dep ∈ dag.dependencies, dep.downstreamId ∈ dag.ids) ∧
      ∃ order inDegree, KahnInv dag [] ([], inDegree) order ∧ dag.topologicalOrder =
        if order.length ≠ dag.operators.length then
          .error ⟨.valueError, "DAG has a cycle — topological sort failed."⟩
        else .ok order) := by
  by_cases hdeclared : ∀ dep ∈ dag.dependencies, dep.downstreamId ∈ dag.ids
  · obtain ⟨inDegree, hcount, hstart⟩ := inDegree_spec hdeclared
    obtain ⟨order, inDegree', hdrain, hend⟩ := hstart.drain hdeclared
    refine Or.inr ⟨hdeclared, order, inDegree', hend, ?_⟩
    unfold topologicalOrder
    rw [hcount]
    show (dag.drain _ inDegree [] >>= fun order => _) = _
    rw [hdrain]
    rfl
  · push Not at hdeclared
    obtain ⟨dep, hdep, hundeclared⟩ := hdeclared
    obtain ⟨message, hcount⟩ := keyError_of_countEdges hdep
      (by rw [get_zeros, if_neg hundeclared] : (Dict.ofList (dag.ids.map fun oid => (oid, (0 : Int)))).get _ = none)
    refine Or.inl ⟨⟨dep, hdep, hundeclared⟩, message, ?_⟩
    unfold topologicalOrder inDegree
    rw [hcount]
    rfl

/-- **The topological order is exact**: it is computed for the graphs of pairwise different operators, declared at both
    ends of every edge, without a cycle, and for no other; and it lists the operators, each behind those it depends on.
    The loop keeps the list in order and never repeats an operator. If the list ends short, the operators that are
    missing wait for each other, which those of a graph with an order cannot. -/
theorem topologicalOrder_exact (dag : OperatorDAG) :
    ((∃ order, dag.topologicalOrder = .ok order) ↔ dag.WellFormed) ∧
    ∀ order, dag.topologicalOrder = .ok order → order.Perm dag.ids ∧ dag.Respects order := by
  rcases dag.topologicalOrder_cases with ⟨⟨dep, hdep, hundeclared⟩, message, hraised⟩ |
    ⟨hdeclared, order, inDegree, hend, hended⟩
  · rw [hraised]
    constructor
    · exact iff_of_false (by simp) fun hdag => hundeclared (hdag.declared dep hdep).2
    · exact fun order horder => by cases horder
  · by_cases hlength : order.length = dag.operators.length
    · rw [hended, if_neg (not_not.mpr hlength)]
      obtain ⟨hperm, hdag, hrespects⟩ := wellFormed_of_length hdeclared hend hlength
      refine ⟨iff_of_true ⟨order, rfl⟩ hdag, fun order' horder' => ?_⟩
      cases horder'
      exact ⟨hperm, hrespects⟩
    · rw [hended, if_pos hlength]
      constructor
      · exact iff_of_false (by simp) fun hdag => hlength (length_of_wellFormed hdag hend)
      · exact fun order horder => by cases horder

end OperatorDAG
end Common
end HybridStream
