import Mathlib.Data.List.Basic

/-!
# `Lib.Lts` — labelled transition systems, their runs and the run-invariant rule

A concurrent program is modelled as a state, a set of labels (which coroutine moves, and what its
environment answers) and a step relation. This module packages the one induction every safety proof over
such a system needs: what holds initially and survives one step holds in every reachable state
(`Reachable.invariant`).

`Terminates` is the absence of infinite runs, which `terminates_of_measure` derives from a measure.

Two further pieces serve conditional results:

* `restrict M G` — the runs of `M` all of whose steps meet the guard `G`; a condition on a run is a guard
  on its steps, and `Reachable.of_restrict` embeds the restricted runs back into `M`;
* `exec` — a step *function* iterated over a list of labels, so that a concrete run can be evaluated and
  turned into reachability (`reachable_of_exec`, `restrict_reachable_of_exec`).

A system whose every step is defined and determined is a function `step : σ → α → σ`. `AtEachStep` says what
holds at the steps of its runs, and `atEachStep_congr` carries an equivalence of what holds at one step over
to whole runs.

Nothing here names a particular system.
-/

namespace HybridStream
namespace Lib

universe u v

/-- A labelled transition system: its initial states and its step relation. -/
structure Lts (σ : Type u) (α : Type v) where
  init : σ → Prop
  step : σ → α → σ → Prop

namespace Lts

variable {σ : Type u} {α : Type v} {M : Lts σ α}

/-- `M.Run s as s'`: the labels `as`, taken in order from `s`, lead to `s'`. -/
inductive Run (M : Lts σ α) : σ → List α → σ → Prop where
  | refl {s} : Run M s [] s
  | tail {s as s' a s''} : Run M s as s' → M.step s' a s'' → Run M s (as ++ [a]) s''

/-- A state some run from an initial state ends in. -/
def Reachable (M : Lts σ α) (s : σ) : Prop := ∃ s₀ as, M.init s₀ ∧ M.Run s₀ as s

theorem Run.trans {s s' s'' : σ} {as bs : List α} (h : M.Run s as s') (h' : M.Run s' bs s'') :
    M.Run s (as ++ bs) s'' := by
  induction h' with
  | refl => rw [List.append_nil]; exact h
  | tail _ hstep ih => rw [← List.append_assoc]; exact ih.tail hstep

/-- A run may also be extended at its front. -/
theorem Run.head {s s' s'' : σ} {a : α} {as : List α} (h : M.step s a s') (h' : M.Run s' as s'') :
    M.Run s (a :: as) s'' :=
  Run.trans (Run.tail Run.refl h) h'

theorem Reachable.of_init {s : σ} (h : M.init s) : M.Reachable s := ⟨s, [], h, Run.refl⟩

theorem Reachable.tail {s s' : σ} {a : α} (h : M.Reachable s) (hstep : M.step s a s') :
    M.Reachable s' := by
  obtain ⟨s₀, as, hinit, hrun⟩ := h
  exact ⟨s₀, as ++ [a], hinit, hrun.tail hstep⟩

/-! ## The run-invariant rule

The one induction over runs: a predicate that the initial states have and every step keeps holds of every reachable
state. Safety results are its instances, one lemma for the start and one for the step. -/

/-- What one step preserves, a whole run preserves. -/
theorem Run.invariant {I : σ → Prop} (hstep : ∀ s a s', I s → M.step s a s' → I s')
    {s s' : σ} {as : List α} (h : M.Run s as s') (hs : I s) : I s' := by
  induction h with
  | refl => exact hs
  | tail _ hst ih => exact hstep _ _ _ ih hst

/-- **The invariant rule.** A predicate of the initial states preserved by every step holds in every
    reachable state. -/
theorem Reachable.invariant {I : σ → Prop} (hinit : ∀ s, M.init s → I s)
    (hstep : ∀ s a s', I s → M.step s a s' → I s') {s : σ} (h : M.Reachable s) : I s := by
  obtain ⟨s₀, as, h₀, hrun⟩ := h
  exact hrun.invariant hstep (hinit s₀ h₀)

/-- What can always be increased further has no bound: by induction on the bound, one run after the other. -/
theorem exists_reachable_ge {I : σ → Prop} {f : σ → Nat} (hinit : ∃ s, M.init s ∧ I s)
    (hgrow : ∀ s, I s → ∃ as s', M.Run s as s' ∧ I s' ∧ f s < f s') (n : Nat) : ∃ s, M.Reachable s ∧ n ≤ f s := by
  have hstrong : ∃ s, M.Reachable s ∧ I s ∧ n ≤ f s := by
    induction n with
    | zero =>
        obtain ⟨s, hs, hI⟩ := hinit
        exact ⟨s, .of_init hs, hI, Nat.zero_le _⟩
    | succ n ih =>
        obtain ⟨s, ⟨s₀, as, h₀, hrun⟩, hI, hle⟩ := ih
        obtain ⟨as', s', hrun', hI', hlt⟩ := hgrow s hI
        exact ⟨s', ⟨s₀, as ++ as', h₀, hrun.trans hrun'⟩, hI', by omega⟩
  obtain ⟨s, hreach, -, hle⟩ := hstrong
  exact ⟨s, hreach, hle⟩

/-! ## Runs that come to an end

A run cannot go on for ever where a measure into a well-founded order goes down with every step. Then it can be taken
to a state from which no step is possible, and what is true of such states is true of every way to get there. -/

/-- There is no infinite run from `s`. -/
def Terminates (M : Lts σ α) (s : σ) : Prop := Acc (fun t s => ∃ a, M.step s a t) s

/-- No step is possible. -/
def Stuck (M : Lts σ α) (s : σ) : Prop := ∀ a t, ¬ M.step s a t

/-- Where an invariant holds and every step takes a measure down, the runs come to an end. -/
theorem terminates_of_measure {β : Type*} {r : β → β → Prop} (hwf : WellFounded r) (f : σ → β) {I : σ → Prop}
    (hstep : ∀ s a s', I s → M.step s a s' → I s' ∧ r (f s') (f s)) {s : σ} (hs : I s) : M.Terminates s := by
  induction hf : f s using hwf.induction generalizing s with
  | _ b ih =>
      subst hf
      refine Acc.intro s ?_
      rintro t ⟨a, hst⟩
      obtain ⟨ht, hlt⟩ := hstep s a t hs hst
      exact ih _ hlt ht rfl

/-- A run that cannot go on for ever can be taken to where no step is possible. -/
theorem Terminates.exists_stuck {s : σ} (h : M.Terminates s) : ∃ as s', M.Run s as s' ∧ M.Stuck s' := by
  induction h with
  | intro s _ ih =>
      by_cases hstuck : M.Stuck s
      · exact ⟨[], s, Run.refl, hstuck⟩
      · simp only [Stuck, not_forall, not_not] at hstuck
        obtain ⟨a, t, hst⟩ := hstuck
        obtain ⟨as, s', hrun, hend⟩ := ih t ⟨a, hst⟩
        exact ⟨a :: as, s', Run.head hst hrun, hend⟩

/-! ## Runs all of whose steps meet a guard

Results that hold under a condition on the steps are results about the system without the other steps. -/

/-- `M` with only those steps that meet the guard `G` on the state before the step and the label. -/
def restrict (M : Lts σ α) (G : σ → α → Prop) : Lts σ α where
  init := M.init
  step s a s' := M.step s a s' ∧ G s a

theorem Run.of_restrict {G : σ → α → Prop} {s s' : σ} {as : List α}
    (h : (M.restrict G).Run s as s') : M.Run s as s' := by
  induction h with
  | refl => exact Run.refl
  | tail _ hst ih => exact ih.tail hst.1

theorem Reachable.of_restrict {G : σ → α → Prop} {s : σ} (h : (M.restrict G).Reachable s) :
    M.Reachable s := by
  obtain ⟨s₀, as, hinit, hrun⟩ := h
  exact ⟨s₀, as, hinit, hrun.of_restrict⟩

/-! ## Systems given by a step function

Most systems here are deterministic in their labels: a partial function says where a label leads, and being able to
take it is being in its domain. Concrete runs are evaluated by iterating the function. -/

/-- The system of a partial step function: a label is enabled where the function is defined. -/
def ofStep (init : σ → Prop) (step : σ → α → Option σ) : Lts σ α where
  init := init
  step s a s' := step s a = some s'

/-- The step function iterated over a list of labels. -/
def exec (step : σ → α → Option σ) : List α → σ → Option σ
  | [], s => some s
  | a :: as, s => (step s a).bind (exec step as)

theorem run_of_exec {init : σ → Prop} {step : σ → α → Option σ} {as : List α} {s s' : σ}
    (h : exec step as s = some s') : (ofStep init step).Run s as s' := by
  induction as generalizing s with
  | nil =>
      cases h
      exact Run.refl
  | cons a as ih =>
      obtain ⟨t, ht, hrest⟩ := Option.bind_eq_some_iff.mp h
      exact Run.head ht (ih hrest)

theorem reachable_of_exec {init : σ → Prop} {step : σ → α → Option σ} {as : List α} {s₀ s : σ}
    (hinit : init s₀) (h : exec step as s₀ = some s) : (ofStep init step).Reachable s :=
  ⟨s₀, as, hinit, run_of_exec h⟩

/-- The step function cut down to the labels that meet a decidable guard. -/
def guardStep (step : σ → α → Option σ) (G : σ → α → Prop) [∀ s a, Decidable (G s a)]
    (s : σ) (a : α) : Option σ :=
  if G s a then step s a else none

theorem restrict_reachable_of_exec {init : σ → Prop} {step : σ → α → Option σ} {G : σ → α → Prop}
    [∀ s a, Decidable (G s a)] {as : List α} {s₀ s : σ} (hinit : init s₀)
    (h : exec (guardStep step G) as s₀ = some s) : ((ofStep init step).restrict G).Reachable s := by
  refine ⟨s₀, as, hinit, ?_⟩
  clear hinit
  induction as generalizing s₀ with
  | nil =>
      cases h
      exact Run.refl
  | cons a as ih =>
      obtain ⟨t, ht, hrest⟩ := Option.bind_eq_some_iff.mp h
      unfold guardStep at ht
      by_cases hG : G s₀ a
      · rw [if_pos hG] at ht
        exact Run.head ⟨ht, hG⟩ (ih hrest)
      · rw [if_neg hG] at ht
        exact absurd ht (by simp)

/-- A guard that the labels of a run meet in every state. -/
theorem restrict_reachable_of_labels {init : σ → Prop} {step : σ → α → Option σ} {G : σ → α → Prop} {as : List α}
    {s₀ s : σ} (hinit : init s₀) (hG : ∀ a ∈ as, ∀ s, G s a) (h : exec step as s₀ = some s) :
    ((ofStep init step).restrict G).Reachable s := by
  refine ⟨s₀, as, hinit, ?_⟩
  clear hinit
  induction as generalizing s₀ with
  | nil =>
      cases h
      exact Run.refl
  | cons a as ih =>
      obtain ⟨t, ht, hrest⟩ := Option.bind_eq_some_iff.mp h
      exact Run.head ⟨ht, hG a List.mem_cons_self s₀⟩ (ih (fun a' ha' => hG a' (List.mem_cons_of_mem a ha')) hrest)

end Lts

/-! ## Systems whose every step is determined

A property of steps, and when two of them hold along the same runs: it is enough that an invariant makes them
equivalent where they are asked for. -/

section AtEachStep

variable {σ : Type u} {α : Type v} {step : σ → α → σ} {Q R : σ → α → Prop}

/-- `Q` holds of the state before each step of a run and of the label the step takes. -/
def AtEachStep (step : σ → α → σ) (Q : σ → α → Prop) : σ → List α → Prop
  | _, []      => True
  | s, a :: as => Q s a ∧ AtEachStep step Q (step s a) as

/-- Where an invariant makes two properties of a step equivalent, they hold along the same runs. -/
theorem atEachStep_congr {I : σ → Prop} (hstep : ∀ s a, I s → I (step s a)) {as : List α}
    (h : ∀ s, ∀ a ∈ as, I s → (Q s a ↔ R s a)) {s : σ} (hs : I s) :
    AtEachStep step Q s as ↔ AtEachStep step R s as := by
  induction as generalizing s with
  | nil => exact Iff.rfl
  | cons a as ih =>
      exact and_congr (h s a List.mem_cons_self hs)
        (ih (fun s a' ha' => h s a' (List.mem_cons_of_mem a ha')) (hstep s a hs))

/-- What an invariant brings about at every step, holds along every run. -/
theorem atEachStep_of_invariant {I : σ → Prop} (hstep : ∀ s a, I s → Q s a ∧ I (step s a)) {s : σ} (hs : I s)
    (as : List α) : AtEachStep step Q s as := by
  induction as generalizing s with
  | nil => trivial
  | cons a as ih => exact ⟨(hstep s a hs).1, ih (hstep s a hs).2⟩

end AtEachStep

end Lib
end HybridStream
