import Mathlib.Data.List.Basic

/-!
# `Lib.Latch` — a flag that readings set, clear or leave

A latch goes up on some readings and down on others and keeps its position on the rest: hysteresis. Moving it may
not work, and a move that fails ends the reading with the latch where it was; `sets` and `clears` say which of the
two moves work. Where both do, the latch is up after a list of readings exactly if some reading took it up and none
after it down, or it was up and nothing took it down. `latch_eq_true_iff` says this for all four cases: the readings
that decide are the last ones, whatever stands before them.

Nothing here names a particular system.
-/

namespace HybridStream
namespace Lib

universe u

variable {α : Type u} (up down : α → Prop) [DecidablePred up] [DecidablePred down] (sets clears : Bool)

/-- The latch after a list of readings. -/
def latch : Bool → List α → Bool
  | raised, []      => raised
  | raised, x :: xs =>
      if up x ∧ raised = false then if sets then latch true xs else raised
      else if down x ∧ raised = true then if clears then latch false xs else raised
      else latch raised xs

/-- A reading takes the latch up, and none after it down. -/
def UpLast (xs : List α) : Prop := ∃ pre x post, xs = pre ++ x :: post ∧ up x ∧ ∀ y ∈ post, ¬ down y

/-! ## The last readings

`UpLast` by recursion over the readings, and two ways to recognise it. -/

section Last

variable {up down} {x : α} {xs : List α}

omit [DecidablePred up] [DecidablePred down]

theorem upLast_cons : UpLast up down (x :: xs) ↔ UpLast up down xs ∨ up x ∧ ∀ y ∈ xs, ¬ down y := by
  constructor
  · rintro ⟨pre, y, post, hsplit, hup, hpost⟩
    cases pre with
    | nil =>
        cases hsplit
        exact Or.inr ⟨hup, hpost⟩
    | cons z pre =>
        cases hsplit
        exact Or.inl ⟨pre, y, post, rfl, hup, hpost⟩
  · rintro (⟨pre, y, post, rfl, hup, hpost⟩ | ⟨hup, hxs⟩)
    · exact ⟨x :: pre, y, post, rfl, hup, hpost⟩
    · exact ⟨[], x, xs, rfl, hup, hxs⟩

theorem not_upLast (h : ∀ x ∈ xs, ¬ up x) : ¬ UpLast up down xs := by
  rintro ⟨pre, x, post, rfl, hup, -⟩
  exact h x (List.mem_append_right _ List.mem_cons_self) hup

/-- A reading that takes the latch down, and none after it up. -/
theorem not_upLast_append {pre post : List α} (hup : ¬ up x) (hdown : down x) (hpost : ∀ y ∈ post, ¬ up y) :
    ¬ UpLast up down (pre ++ x :: post) := by
  induction pre with
  | nil =>
      rw [List.nil_append, upLast_cons]
      exact not_or.mpr ⟨not_upLast hpost, fun h => hup h.1⟩
  | cons y pre ih =>
      rw [List.cons_append, upLast_cons]
      exact not_or.mpr ⟨ih, fun h => h.2 x (by simp) hdown⟩

end Last

/-! ## Where a latch ends up

By induction over the readings; the position it is in decides which of its two moves the next reading can ask for. -/

section Position

variable {up down} {sets clears}

/-- **What decides the position of a latch.** -/
theorem latch_eq_true_iff (hdisjoint : ∀ x, up x → ¬ down x) (sets clears raised : Bool) (xs : List α) :
    latch up down sets clears raised xs = true ↔
      sets = true ∧ (UpLast up down xs ∨ clears = false ∧ ∃ x ∈ xs, up x) ∨
        raised = true ∧ (clears = false ∨ ∀ y ∈ xs, ¬ down y) := by
  induction xs generalizing raised with
  | nil =>
      have hnone : ¬ UpLast up down ([] : List α) := not_upLast fun x hx => absurd hx List.not_mem_nil
      simp [latch, hnone]
  | cons x xs ih =>
      have hx := hdisjoint x
      rw [upLast_cons, latch]
      cases raised with
      | false =>
          by_cases hup : up x
          · cases sets with
            | false => simp [hup]
            | true  =>
                simp only [hup, and_self, if_true, ih, List.forall_mem_cons, hx hup, not_false_eq_true, true_and]
                cases clears <;> simp [hup]
          · simp [hup, ih]
      | true =>
          by_cases hdown : down x
          · have hup : ¬ up x := fun hup => hx hup hdown
            cases clears with
            | false => simp [hdown]
            | true  => simp [hdown, hup, ih]
          · simp only [hdown, Bool.true_eq_false, and_false, false_and, if_false, ih, List.forall_mem_cons,
              not_false_eq_true, true_and, List.exists_mem_cons_iff]
            cases clears with
            | false => simp
            | true  => simp; tauto

/-- A latch that can be cleared is down after a reading that takes it down and none after it up. -/
theorem latch_eq_false (hdisjoint : ∀ x, up x → ¬ down x) (pre : List α) {post : List α} {x : α} (hdown : down x)
    (hpost : ∀ y ∈ post, ¬ up y) (sets raised : Bool) : latch up down sets true raised (pre ++ x :: post) = false := by
  have hup : ¬ up x := fun hup => hdisjoint x hup hdown
  rw [← Bool.not_eq_true, latch_eq_true_iff hdisjoint]
  rintro (⟨-, hlast | ⟨hclears, -⟩⟩ | ⟨-, hclears | hnone⟩)
  · exact not_upLast_append hup hdown hpost hlast
  · cases hclears
  · cases hclears
  · exact hnone x (by simp) hdown

end Position

end Lib
end HybridStream
