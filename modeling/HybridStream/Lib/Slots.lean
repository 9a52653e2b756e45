import Mathlib.Algebra.Ring.Nat
import Mathlib.Data.List.Basic

/-!
# `Lib.Slots` — lists as tables of numbered entries

A table that is never shortened gives its entries numbers for good: an entry is replaced where it stands (`set`), or
a new one is added at the end. What is found under a number afterwards is read off by `getElem?_set_eq_some` and
`getElem?_concat_eq_some`.

Nothing here names a particular system.
-/

namespace HybridStream
namespace Lib

universe u

variable {α : Type u} {l : List α} {i j : Nat} {x y a : α}

theorem getElem?_set_eq_some (h : l[i]? = some x) :
    (l.set i a)[j]? = some y ↔ (j = i ∧ y = a) ∨ (j ≠ i ∧ l[j]? = some y) := by
  have hlt : i < l.length := (List.getElem?_eq_some_iff.mp h).1
  by_cases hij : j = i
  · subst hij
    rw [List.getElem?_set_self hlt, Option.some.injEq]
    constructor
    · exact fun heq => Or.inl ⟨rfl, heq.symm⟩
    · rintro (⟨-, rfl⟩ | ⟨hne, -⟩)
      · rfl
      · exact absurd rfl hne
  · rw [List.getElem?_set_ne (Ne.symm hij)]
    constructor
    · exact fun heq => Or.inr ⟨hij, heq⟩
    · rintro (⟨heq, -⟩ | ⟨-, heq⟩)
      · exact absurd heq hij
      · exact heq

theorem getElem?_concat_eq_some : (l ++ [a])[j]? = some y ↔ l[j]? = some y ∨ (j = l.length ∧ y = a) := by
  rcases Nat.lt_trichotomy j l.length with hlt | heq | hgt
  · rw [List.getElem?_append_left hlt]
    constructor
    · exact Or.inl
    · rintro (h | ⟨heq, -⟩)
      · exact h
      · exact absurd heq (Nat.ne_of_lt hlt)
  · subst heq
    rw [List.getElem?_concat_length, List.getElem?_eq_none (Nat.le_refl _), Option.some.injEq]
    constructor
    · exact fun h => Or.inr ⟨rfl, h.symm⟩
    · rintro (h | ⟨-, rfl⟩)
      · cases h
      · rfl
  · rw [List.getElem?_eq_none (by rw [List.length_append]; exact hgt), List.getElem?_eq_none (Nat.le_of_lt hgt)]
    constructor
    · nofun
    · rintro (h | ⟨heq, -⟩)
      · cases h
      · exact absurd heq (Nat.ne_of_gt hgt)

/-- An entry keeps its number when the table grows. -/
theorem getElem?_concat_of_some (h : l[j]? = some y) (a : α) : (l ++ [a])[j]? = some y :=
  getElem?_concat_eq_some.mpr (Or.inl h)

/-- The entry that was added. -/
theorem getElem?_concat_self (l : List α) (a : α) : (l ++ [a])[l.length]? = some a :=
  getElem?_concat_eq_some.mpr (Or.inr ⟨rfl, rfl⟩)

theorem lt_length_of_getElem? (h : l[j]? = some y) : j < l.length := (List.getElem?_eq_some_iff.mp h).1

/-- What holds of an entry holds of what replaces it, if the replacement keeps it. -/
theorem exists_getElem?_set {p : α → Prop} (h : l[i]? = some x) (ha : p x → p a) (hj : ∃ y, l[j]? = some y ∧ p y) :
    ∃ y, (l.set i a)[j]? = some y ∧ p y := by
  obtain ⟨y, hy, hp⟩ := hj
  by_cases hij : j = i
  · subst hij
    rw [h] at hy
    cases hy
    exact ⟨a, (getElem?_set_eq_some h).mpr (Or.inl ⟨rfl, rfl⟩), ha hp⟩
  · exact ⟨y, (getElem?_set_eq_some h).mpr (Or.inr ⟨hij, hy⟩), hp⟩

theorem exists_getElem?_concat {p : α → Prop} (hj : ∃ y, l[j]? = some y ∧ p y) (a : α) :
    ∃ y, (l ++ [a])[j]? = some y ∧ p y := by
  obtain ⟨y, hy, hp⟩ := hj
  exact ⟨y, getElem?_concat_of_some hy a, hp⟩

/-- How a count changes with an entry. -/
theorem countP_set_add {p : α → Bool} (h : l[i]? = some x) :
    (l.set i a).countP p + (if p x then 1 else 0) = l.countP p + if p a then 1 else 0 := by
  obtain ⟨hlt, heq⟩ := List.getElem?_eq_some_iff.mp h
  have hpos : p x = true → 0 < l.countP p := fun hx => List.countP_pos_iff.mpr ⟨x, List.mem_of_getElem? h, hx⟩
  rw [List.countP_set hlt, heq]
  cases hx : p x with
  | true =>
      have hpos := hpos hx
      simp only [if_true]
      omega
  | false => simp

/-- An entry is replaced by one that counts as much. -/
theorem countP_set_of_eq {p : α → Bool} (h : l[i]? = some x) (ha : p a = p x) : (l.set i a).countP p = l.countP p := by
  have hadd := countP_set_add (a := a) (p := p) h
  rw [ha] at hadd
  exact Nat.add_right_cancel hadd

/-- How a sum changes with an entry. -/
theorem sum_map_set_add {f : α → Nat} (h : l[i]? = some x) :
    ((l.set i a).map f).sum + f x = (l.map f).sum + f a := by
  induction l generalizing i with
  | nil => cases h
  | cons y l ih =>
      cases i with
      | zero =>
          cases h
          simp only [List.set_cons_zero, List.map_cons, List.sum_cons]
          omega
      | succ i =>
          have hl := ih (i := i) h
          simp only [List.set_cons_succ, List.map_cons, List.sum_cons]
          omega

/-! ## What a table says under a projection

A table in which an entry is replaced by one that looks the same under a function is, under that function,
unchanged. -/

section Map

universe v

variable {β : Type v} {f : α → β}

/-- An entry is replaced by one that looks the same. -/
theorem map_set_of_eq (h : l[i]? = some x) (ha : f a = f x) : (l.set i a).map f = l.map f := by
  have hmap : (l.map f)[i]? = some (f x) := by rw [List.getElem?_map, h]; rfl
  obtain ⟨hlt, heq⟩ := List.getElem?_eq_some_iff.mp hmap
  rw [List.map_set, ha, ← heq]
  exact List.set_getElem_self hlt

theorem exists_getElem?_of_map_eq {l' : List α} (h : l'.map f = l.map f) (hy : l'[j]? = some y) :
    ∃ x, l[j]? = some x ∧ f x = f y := by
  have hget : (l.map f)[j]? = some (f y) := by rw [← h, List.getElem?_map, hy]; rfl
  rw [List.getElem?_map] at hget
  exact Option.map_eq_some_iff.mp hget

end Map

end Lib
end HybridStream
