import HybridStream.Lib.Proc
import HybridStream.Py.Value

/-!
# `Common.DagModel` — operator graphs and their topological order

`hybridstream/common/dag_model.py`: what of the dataclasses `topological_order` reads, and Kahn's algorithm. The
operator list may have an id twice and the dependency list anything: an edge twice, a loop, an edge from or to an
operator that is not declared.

The `while` loop ends on any queue and any in-degrees: a turn takes one node off the queue, and puts one on for each
in-degree that drops from 1 to 0 (`relaxAll_measure`).
-/

namespace HybridStream
namespace Common

open Lib Py

/-- `OperatorNode`, its id, which is all that the order looks at. -/
structure OperatorNode where
  operatorId : String

/-- `Dependency`: the one downstream comes after the one upstream. -/
structure Dependency where
  upstreamId   : String
  downstreamId : String
  deriving DecidableEq

/-- `OperatorDAG`: the operators and the edges as they were declared, malformed or not. -/
structure OperatorDAG where
  operators    : List OperatorNode
  dependencies : List Dependency

/-- `in_degree[oid] += n`, which raises for an operator that was not declared. -/
def bump (n : Int) (inDegree : Dict String Int) (oid : String) : Except PyError (Dict String Int) :=
  match inDegree.get oid with
  | some deg => .ok (inDegree.set oid (deg + n))
  | none     => .error ⟨.keyError, s!"'{oid}'"⟩

/-- The queue and the in-degrees of the loop. -/
abbrev KahnState := List String × Dict String Int

/-- One turn of the inner loop: an edge to `downstream` is taken away. -/
def relax (s : KahnState) (downstream : String) : Except PyError KahnState := do
  let inDegree ← bump (-1) s.2 downstream
  .ok (if inDegree.get downstream = some 0 then s.1 ++ [downstream] else s.1, inDegree)

/-! ## The loops end

The operators that wait and the queue together do not grow in the inner loop: an operator that is queued waits no
longer. The outer loop takes one operator off the queue, so the sum goes down with each of its turns. -/

/-- How many operators wait for another one. -/
def waiting (inDegree : Dict String Int) : Nat := inDegree.values.countP (fun deg => decide (0 < deg))

theorem relax_measure {s s' : KahnState} {downstream : String} (h : relax s downstream = .ok s') :
    s'.1.length + waiting s'.2 ≤ s.1.length + waiting s.2 := by
  obtain ⟨inDegree, hbump, h⟩ := bind_eq_ok.mp h
  cases h
  unfold bump at hbump
  cases hget : s.2.get downstream with
  | none => rw [hget] at hbump; cases hbump
  | some deg =>
      rw [hget] at hbump
      cases hbump
      have hcount := Dict.countP_values_set hget (deg + -1) (fun deg => decide (0 < deg))
      simp only [decide_eq_true_eq] at hcount
      unfold waiting
      dsimp only
      rw [Dict.get_set_self]
      by_cases hone : deg = 1
      · -- the operator waits no longer, and is queued
        subst hone
        rw [if_pos (by decide), List.length_append, List.length_singleton]
        rw [if_pos (by decide), if_neg (by decide)] at hcount
        omega
      · rw [if_neg (by simp only [Option.some.injEq]; omega)]
        split at hcount <;> split at hcount <;> omega

theorem relaxAll_measure {downstreams : List String} {s s' : KahnState}
    (h : downstreams.foldlM relax s = .ok s') :
    s'.1.length + waiting s'.2 ≤ s.1.length + waiting s.2 := by
  induction downstreams generalizing s with
  | nil =>
      cases h
      exact Nat.le_refl _
  | cons downstream downstreams ih =>
      rw [List.foldlM_cons] at h
      obtain ⟨t, ht, hrest⟩ := bind_eq_ok.mp h
      exact (ih hrest).trans (relax_measure ht)

namespace OperatorDAG

/-- `[op.operator_id for op in self.operators]`, repetitions included. -/
def ids (dag : OperatorDAG) : List String := dag.operators.map OperatorNode.operatorId

/-- `upstream_ids`: by the edges that end there. -/
def upstreamIds (dag : OperatorDAG) (oid : String) : List String :=
  (dag.dependencies.filter (fun d => d.downstreamId = oid)).map Dependency.upstreamId

/-- `downstream_ids`: by the edges that begin there, in their order. -/
def downstreamIds (dag : OperatorDAG) (oid : String) : List String :=
  (dag.dependencies.filter (fun d => d.upstreamId = oid)).map Dependency.downstreamId

/-- The in-degrees `topological_order` starts from: one for each edge that ends at the operator. -/
def inDegree (dag : OperatorDAG) : Except PyError (Dict String Int) :=
  dag.dependencies.foldlM (fun inDegree dep => bump 1 inDegree dep.downstreamId)
    (Dict.ofList (dag.ids.map (fun oid => (oid, 0))))

/-- The `while` loop of `topological_order`: the first of the queue is emitted, and those it was the last to hold back
    enter the queue. -/
def drain (dag : OperatorDAG) (queue : List String) (inDegree : Dict String Int) (order : List String) :
    Except PyError (List String) :=
  match queue with
  | [] => .ok order
  | node :: queue =>
      match _h : (dag.downstreamIds node).foldlM relax (queue, inDegree) with
      | .error e                => .error e
      | .ok (queue', inDegree') => dag.drain queue' inDegree' (order ++ [node])
termination_by queue.length + waiting inDegree
decreasing_by
  have hmeasure := relaxAll_measure _h
  dsimp only at hmeasure
  rw [List.length_cons]
  omega

/-- `topological_order`: what is left over when the queue is empty is taken for a cycle. -/
def topologicalOrder (dag : OperatorDAG) : Except PyError (List String) := do
  let inDegree ← dag.inDegree
  let queue := (inDegree.entries.filter (fun e => e.2 = 0)).map Prod.fst
  let order ← dag.drain queue inDegree []
  if order.length ≠ dag.operators.length then
    .error ⟨.valueError, "DAG has a cycle — topological sort failed."⟩
  else .ok order

end OperatorDAG

end Common
end HybridStream
