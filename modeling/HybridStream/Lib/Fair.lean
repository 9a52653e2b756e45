import HybridStream.Lib.Lts
import Mathlib.Order.WellFounded

/-!
# `Lib.Fair` — infinite behaviours, weak fairness and what leads to what

That something *happens* is a statement about infinite behaviours. A behaviour takes a step of the system or none at
each point of time; it is weakly fair to a set of labels if a label of the set is taken whenever one stays enabled.

`LeadsTo P Q` says that `P` is always followed by `Q`. One fair step proves it (`ensures`: until `Q` holds, the other
steps keep `P`, and the fair labels stay enabled and bring about `Q`), and the other rules put such facts together:
`LeadsTo.trans`, `LeadsTo.of_exists`, `LeadsTo.psp` with what is kept on the way, and `LeadsTo.induct` along a
well-founded rank.

Nothing here names a particular system.
-/

namespace HybridStream
namespace Lib
namespace Lts

universe u v w

variable {σ : Type u} {α : Type v}

/-- An infinite behaviour: at each time the label taken, or none. -/
structure Behaviour (M : Lts σ α) where
  state : Nat → σ
  label : Nat → Option α
  init  : M.init (state 0)
  next  : ∀ n, match label n with
    | some a => M.step (state n) a (state (n + 1))
    | none   => state (n + 1) = state n

/-- Some label of `A` can be taken. -/
def Enabled (M : Lts σ α) (A : α → Prop) (s : σ) : Prop := ∃ a s', A a ∧ M.step s a s'

theorem enabled_of_isSome {init : σ → Prop} {step : σ → α → Option σ} {G : σ → α → Prop} {A : α → Prop} {s : σ} {a : α}
    (h : (step s a).isSome = true) (ha : A a) (hG : G s a) : ((ofStep init step).restrict G).Enabled A s := by
  obtain ⟨s', hs'⟩ := Option.isSome_iff_exists.mp h
  exact ⟨a, s', ha, hs', hG⟩

namespace Behaviour

variable {M : Lts σ α} {b : M.Behaviour} {P P' Q Q' R : σ → Prop}

theorem reachable (b : M.Behaviour) (n : Nat) : M.Reachable (b.state n) := by
  induction n with
  | zero => exact Reachable.of_init b.init
  | succ n ih =>
      have hnext := b.next n
      split at hnext
      · exact ih.tail hnext
      · rw [hnext]
        exact ih

/-- Labels of `A` that stay enabled are not put off for ever. -/
def WeaklyFair (b : M.Behaviour) (A : α → Prop) : Prop :=
  ∀ n, (∀ m ≥ n, M.Enabled A (b.state m)) → ∃ m ≥ n, ∃ a, b.label m = some a ∧ A a

/-- Whenever `P` holds, `Q` holds then or later. -/
def LeadsTo (b : M.Behaviour) (P Q : σ → Prop) : Prop := ∀ n, P (b.state n) → ∃ m ≥ n, Q (b.state m)

/-- Until `Q` holds, `P` does. -/
theorem holds_until (hstep : ∀ s a s', M.Reachable s → P s → M.step s a s' → P s' ∨ Q s') {n : Nat}
    (hP : P (b.state n)) (hQ : ∀ m ≥ n, ¬ Q (b.state m)) : ∀ m ≥ n, P (b.state m) := by
  intro m hm
  induction m, hm using Nat.le_induction with
  | base => exact hP
  | succ m hm ih =>
      have hnext := b.next m
      split at hnext
      · exact (hstep _ _ _ (b.reachable m) ih hnext).resolve_right (hQ (m + 1) (Nat.le_succ_of_le hm))
      · rw [hnext]
        exact ih

/-- **One fair step.** The labels of `A`, which stay enabled, bring about `Q`, and the others keep `P` until then. -/
theorem ensures {A : α → Prop} (hfair : b.WeaklyFair A)
    (hother : ∀ s a s', M.Reachable s → P s → ¬ A a → M.step s a s' → P s' ∨ Q s')
    (hown : ∀ s a s', M.Reachable s → P s → A a → M.step s a s' → Q s')
    (henabled : ∀ s, M.Reachable s → P s → M.Enabled A s) : b.LeadsTo P Q := by
  have hstep : ∀ s a s', M.Reachable s → P s → M.step s a s' → P s' ∨ Q s' := by
    intro s a s' hreach hP hstep
    by_cases ha : A a
    · exact Or.inr (hown s a s' hreach hP ha hstep)
    · exact hother s a s' hreach hP ha hstep
  intro n hP
  by_contra hnever
  have hQ : ∀ m ≥ n, ¬ Q (b.state m) := fun m hm hQ => hnever ⟨m, hm, hQ⟩
  have hall := holds_until hstep hP hQ
  obtain ⟨m, hm, a, hlabel, ha⟩ := hfair n fun m hm => henabled _ (b.reachable m) (hall m hm)
  have hnext := b.next m
  rw [hlabel] at hnext
  exact hQ (m + 1) (Nat.le_succ_of_le hm) (hown _ _ _ (b.reachable m) (hall m hm) ha hnext)

namespace LeadsTo

/-- What implies `Q` leads to it. -/
theorem of_imp (h : ∀ s, M.Reachable s → P s → Q s) : b.LeadsTo P Q :=
  fun n hP => ⟨n, Nat.le_refl n, h _ (b.reachable n) hP⟩

theorem trans (h : b.LeadsTo P Q) (h' : b.LeadsTo Q R) : b.LeadsTo P R := by
  intro n hP
  obtain ⟨m, hm, hQ⟩ := h n hP
  obtain ⟨k, hk, hR⟩ := h' m hQ
  exact ⟨k, Nat.le_trans hm hk, hR⟩

theorem mono (h : b.LeadsTo P Q) (hP : ∀ s, M.Reachable s → P' s → P s) (hQ : ∀ s, Q s → Q' s) : b.LeadsTo P' Q' := by
  intro n hn
  obtain ⟨m, hm, hm'⟩ := h n (hP _ (b.reachable n) hn)
  exact ⟨m, hm, hQ _ hm'⟩

theorem of_exists {ι : Sort w} {P : ι → σ → Prop} (h : ∀ i, b.LeadsTo (P i) Q) : b.LeadsTo (fun s => ∃ i, P i s) Q := by
  rintro n ⟨i, hP⟩
  exact h i n hP

theorem or (h : b.LeadsTo P Q) (h' : b.LeadsTo P' Q) : b.LeadsTo (fun s => P s ∨ P' s) Q := by
  rintro n (hP | hP)
  · exact h n hP
  · exact h' n hP

/-- What is kept until `S` holds is there when `Q` is reached, unless `S` was. -/
theorem psp {S : σ → Prop} (h : b.LeadsTo P Q)
    (hstep : ∀ s a s', M.Reachable s → R s → M.step s a s' → R s' ∨ S s') :
    b.LeadsTo (fun s => P s ∧ R s) (fun s => (Q s ∧ R s) ∨ S s) := by
  rintro n ⟨hP, hR⟩
  by_contra hnever
  have hS : ∀ m ≥ n, ¬ S (b.state m) := fun m hm hS => hnever ⟨m, hm, Or.inr hS⟩
  obtain ⟨m, hm, hQ⟩ := h n hP
  exact hnever ⟨m, hm, Or.inl ⟨hQ, holds_until hstep hR hS m hm⟩⟩

/-- Along a rank: from `P`, `Q` or `P` at a smaller rank. -/
theorem induct {β : Type w} [Preorder β] [WellFoundedLT β] (rank : σ → β)
    (h : ∀ k, b.LeadsTo (fun s => P s ∧ rank s = k) (fun s => (P s ∧ rank s < k) ∨ Q s)) : b.LeadsTo P Q := by
  intro n hP
  generalize hk : rank (b.state n) = k
  induction k using WellFoundedLT.induction generalizing n with
  | ind k ih =>
      obtain ⟨m, hm, ⟨hP', hlt⟩ | hQ⟩ := h k n ⟨hP, hk⟩
      · obtain ⟨m', hm', hQ⟩ := ih _ hlt m hP' rfl
        exact ⟨m', Nat.le_trans hm hm', hQ⟩
      · exact ⟨m, hm, hQ⟩

/-- **Fair steps along a rank.** The labels of `A`, which stay enabled, lower the rank or bring about `Q`, and no other
    step raises it. -/
theorem of_rank {β : Type w} [PartialOrder β] [WellFoundedLT β] (rank : σ → β) {A : α → Prop} (hfair : b.WeaklyFair A)
    (hother : ∀ s a s', M.Reachable s → P s → ¬ A a → M.step s a s' → (P s' ∧ rank s' ≤ rank s) ∨ Q s')
    (hown : ∀ s a s', M.Reachable s → P s → A a → M.step s a s' → (P s' ∧ rank s' < rank s) ∨ Q s')
    (henabled : ∀ s, M.Reachable s → P s → M.Enabled A s) : b.LeadsTo P Q := by
  refine induct rank fun k => ensures hfair ?_ ?_ fun s hreach hP => henabled s hreach hP.1
  · rintro s a s' hreach ⟨hP, rfl⟩ ha hstep
    rcases hother s a s' hreach hP ha hstep with ⟨hP', hle⟩ | hQ
    · rcases hle.eq_or_lt with heq | hlt
      · exact Or.inl ⟨hP', heq⟩
      · exact Or.inr (Or.inl ⟨hP', hlt⟩)
    · exact Or.inr (Or.inr hQ)
  · rintro s a s' hreach ⟨hP, rfl⟩ ha hstep
    exact hown s a s' hreach hP ha hstep

end LeadsTo

/-! ## The behaviour along a sequence of labels

A witness that fair behaviours exist is made of a sequence of labels that can be followed for ever: the states are the
ones it leads to. -/

section Follow

variable {init : σ → Prop} {step : σ → α → Option σ} {G : σ → α → Prop} {s₀ : σ} {label : Nat → α}

/-- The state after the first labels. -/
def follow (step : σ → α → Option σ) (s₀ : σ) (label : Nat → α) : Nat → Option σ
  | 0     => some s₀
  | n + 1 => (follow step s₀ label n).bind (fun s => step s (label n))

/-- A sequence of labels that can be followed for ever, within the guard. -/
def along (hinit : init s₀) (h : ∀ n, ((follow step s₀ label n).isSome = true))
    (hG : ∀ n s, follow step s₀ label n = some s → G s (label n)) : ((ofStep init step).restrict G).Behaviour where
  state n := (follow step s₀ label n).get (h n)
  label n := some (label n)
  init := hinit
  next n := by
    have hn : follow step s₀ label n = some ((follow step s₀ label n).get (h n)) := (Option.some_get (h n)).symm
    have hstep : follow step s₀ label (n + 1) = step ((follow step s₀ label n).get (h n)) (label n) := by
      conv_lhs => rw [follow, hn]
      rfl
    exact ⟨hstep.symm.trans (Option.some_get (h (n + 1))).symm, hG n _ hn⟩

end Follow

end Behaviour

end Lts
end Lib
end HybridStream
