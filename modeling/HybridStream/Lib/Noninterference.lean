import HybridStream.Lib.Lts

/-!
# `Lib.Noninterference` — what one party's inputs make of a machine shared with others

A machine takes a stream of inputs, some of them a party's own. It is isolated along a stream if the inputs of the
others leave no trace: after every prefix it is where the party's own inputs alone would have taken it, and has
answered these the same. `isolated_iff` is the unwinding: that happens exactly if no input of another party moves
the machine where it meets it. Two streams with the same own inputs are then indistinguishable (`noninterference`).

Nothing here names a particular machine.
-/

namespace HybridStream
namespace Lib
namespace Noninterference

universe u v w

variable {σ : Type u} {α : Type v} {β : Type w} {step : σ → α → σ} {out : σ → α → β} {own : α → Bool}

/-- The answers to the own inputs of a stream. -/
def observed (step : σ → α → σ) (out : σ → α → β) (own : α → Bool) : σ → List α → List β
  | _, []      => []
  | s, a :: as =>
      if own a then out s a :: observed step out own (step s a) as else observed step out own (step s a) as

/-- The input is an own one, or does not move the machine. -/
def Unmoved (step : σ → α → σ) (own : α → Bool) (s : σ) (a : α) : Prop := own a = true ∨ step s a = s

/-- After every prefix of the stream the machine is as if the others had been silent. -/
def Isolated (step : σ → α → σ) (out : σ → α → β) (own : α → Bool) (s : σ) (as : List α) : Prop :=
  ∀ p, p <+: as → p.foldl step s = (p.filter own).foldl step s ∧
    observed step out own s p = observed step out own s (p.filter own)

theorem observed_cons_own {s : σ} {a : α} (h : own a = true) (as : List α) :
    observed step out own s (a :: as) = out s a :: observed step out own (step s a) as := if_pos h

theorem observed_cons_other {s : σ} {a : α} (h : ¬ own a = true) (as : List α) :
    observed step out own s (a :: as) = observed step out own (step s a) as := if_neg h

/-- **Unwinding**: inputs of others that do not move the machine can be left out. -/
theorem unwinding (out : σ → α → β) {s : σ} {as : List α} (h : AtEachStep step (Unmoved step own) s as) :
    as.foldl step s = (as.filter own).foldl step s ∧
      observed step out own s as = observed step out own s (as.filter own) := by
  induction as generalizing s with
  | nil => exact ⟨rfl, rfl⟩
  | cons a as ih =>
      obtain ⟨ha, hrest⟩ := h
      obtain ⟨hstate, hseen⟩ := ih hrest
      by_cases hown : own a = true
      · rw [List.filter_cons_of_pos hown, observed_cons_own hown, observed_cons_own hown, hseen]
        exact ⟨hstate, rfl⟩
      · have hstay : step s a = s := ha.resolve_left hown
        rw [hstay] at hstate hseen
        rw [List.filter_cons_of_neg hown, observed_cons_other hown, List.foldl_cons, hstay]
        exact ⟨hstate, hseen⟩

theorem atEachStep_mono {Q : σ → α → Prop} {s : σ} {p as : List α} (hp : p <+: as)
    (h : AtEachStep step Q s as) : AtEachStep step Q s p := by
  induction p generalizing s as with
  | nil => trivial
  | cons a p ih =>
      obtain ⟨rest, rfl⟩ := hp
      exact ⟨h.1, ih (List.prefix_append p rest) h.2⟩

/-- **The machine is isolated exactly if no input of another party moves it.** -/
theorem isolated_iff (out : σ → α → β) {s : σ} {as : List α} :
    Isolated step out own s as ↔ AtEachStep step (Unmoved step own) s as := by
  constructor
  · intro h
    induction as generalizing s with
    | nil => trivial
    | cons a as ih =>
        have hunmoved : Unmoved step own s a := by
          by_cases hown : own a = true
          · exact Or.inl hown
          · have hfirst := (h [a] (List.prefix_append [a] as)).1
            rw [List.filter_cons_of_neg hown, List.filter_nil] at hfirst
            exact Or.inr hfirst
        refine ⟨hunmoved, ih fun p hp => ?_⟩
        obtain ⟨hstate, hseen⟩ := h (a :: p) (List.cons_prefix_cons.mpr ⟨rfl, hp⟩)
        by_cases hown : own a = true
        · rw [List.filter_cons_of_pos hown] at hstate hseen
          rw [observed_cons_own hown, observed_cons_own hown] at hseen
          exact ⟨hstate, (List.cons.inj hseen).2⟩
        · have hstay : step s a = s := hunmoved.resolve_left hown
          rw [List.filter_cons_of_neg hown] at hstate hseen
          rw [observed_cons_other hown] at hseen
          rw [hstay] at hseen ⊢
          rw [List.foldl_cons, hstay] at hstate
          exact ⟨hstate, hseen⟩
  · intro h p hp
    exact unwinding out (atEachStep_mono hp h)

/-- **Two streams with the same own inputs** lead to the same state and to the same answers, where each of them is
    isolated. -/
theorem noninterference {s : σ} {as bs : List α} (ha : AtEachStep step (Unmoved step own) s as)
    (hb : AtEachStep step (Unmoved step own) s bs) (hown : as.filter own = bs.filter own) :
    as.foldl step s = bs.foldl step s ∧ observed step out own s as = observed step out own s bs := by
  obtain ⟨hstate, hseen⟩ := unwinding out ha
  obtain ⟨hstate', hseen'⟩ := unwinding out hb
  rw [hstate, hstate', hseen, hseen', hown]
  exact ⟨rfl, rfl⟩

end Noninterference
end Lib
end HybridStream
