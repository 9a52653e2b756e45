import Mathlib.Logic.Relation
import Mathlib.Order.WellFoundedSet

/-!
# `Lib.Topological` — acyclic relations and lists that respect them

A relation is acyclic if no path leads back to its start. A rank that rises along every edge shows that
(`Acyclic.of_rank`). Conversely, in an acyclic relation every finite set that is not empty has a node none of
whose predecessors is in it (`Acyclic.exists_source`), so a search that never leaves out a node all of whose
predecessors it has reached has reached every node (`Acyclic.reaches_all`).

Nothing here names a particular system.
-/

namespace HybridStream
namespace Lib

universe u

variable {α : Type u} {r : α → α → Prop}

/-- No path leads from a node back to it. -/
def Acyclic (r : α → α → Prop) : Prop := ∀ x, ¬ Relation.TransGen r x x

theorem Acyclic.of_rank (rank : α → Nat) (h : ∀ x y, r x y → rank x < rank y) : Acyclic r := by
  have hpath : ∀ x y, Relation.TransGen r x y → rank x < rank y := by
    intro x y hxy
    induction hxy with
    | single hedge => exact h x _ hedge
    | tail _ hedge ih => exact ih.trans (h _ _ hedge)
  exact fun x hx => Nat.lt_irrefl _ (hpath x x hx)

/-- A finite set of nodes has one without a predecessor in it. -/
theorem Acyclic.exists_source (h : Acyclic r) {s : Set α} (hfinite : s.Finite) (hne : s.Nonempty) :
    ∃ y ∈ s, ∀ x ∈ s, ¬ r x y := by
  have : IsStrictOrder α (Relation.TransGen r) :=
    { irrefl := h, trans := fun _ _ _ => Relation.TransGen.trans }
  have hwf : s.WellFoundedOn (Relation.TransGen r) := hfinite.wellFoundedOn
  obtain ⟨x₀, hx₀⟩ := hne
  obtain ⟨⟨y, hy⟩, -, hmin⟩ := WellFounded.has_min hwf Set.univ ⟨⟨x₀, hx₀⟩, trivial⟩
  exact ⟨y, hy, fun x hx hedge => hmin ⟨x, hx⟩ trivial (Relation.TransGen.single hedge)⟩

/-- What contains every node all of whose predecessors it contains, contains every node. -/
theorem Acyclic.reaches_all (h : Acyclic r) {nodes : Set α} (hfinite : nodes.Finite) {reached : Set α}
    (hclosed : ∀ x y, r x y → x ∈ nodes) (hstep : ∀ y ∈ nodes, (∀ x, r x y → x ∈ reached) → y ∈ reached) :
    nodes ⊆ reached := by
  intro y₀ hy₀
  by_contra hleft
  obtain ⟨y, ⟨hy, hyleft⟩, hsource⟩ :=
    h.exists_source (s := nodes \ reached) hfinite.sdiff ⟨y₀, hy₀, hleft⟩
  refine hyleft (hstep y hy fun x hedge => ?_)
  by_contra hx
  exact hsource x ⟨hclosed x y hedge, hx⟩ hedge

end Lib
end HybridStream
