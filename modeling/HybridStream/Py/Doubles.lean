import HybridStream.Py.Exact

/-!
# `Py.Doubles` — what arithmetic on doubles guarantees

Most results hold for any float type. A result that says that a computation *returns* needs to know where its
divisions, roots and conversions do, and `Doubles` collects what it takes: how `<` and `==` compare, with NaN less
than and equal to nothing, and which integers convert. Every law is one of IEEE doubles, whatever is rounded, and
one of the rationals.

The lemmas below it turn the laws into the three guards the operators use before they divide or take a root: a
divisor that is a positive integer, one that was compared with zero, and an argument that was bounded from below.
-/

namespace HybridStream
namespace Py

/-- The laws of doubles: comparison with a NaN is false, and the integers up to some bound convert. The bound is odd,
    as `2 ** 1024 - 2 ** 970 - 1` is, the last integer that rounds to a finite double. -/
class Doubles (F : Type) [PyRuntime F] : Prop where
  lt_irrefl (x : F) : PyRuntime.lt x x = false
  lt_trans {x y z : F} : PyRuntime.lt x y = true → PyRuntime.lt y z = true → PyRuntime.lt x z = true
  lt_of_eq_of_lt {x y z : F} : PyRuntime.eq x y = true → PyRuntime.lt y z = true → PyRuntime.lt x z = true
  ofInt_pos {i : Int} {x : F} : 0 < i → PyRuntime.ofInt i = some x → PyRuntime.lt 0.0 x = true
  ofInt_mono {i j : Int} : 0 ≤ i → i ≤ j → PyRuntime.ofInt (F := F) i = none → PyRuntime.ofInt (F := F) j = none
  ofInt_odd {i : Int} : i % 2 = 0 → PyRuntime.ofInt (F := F) i ≠ none → PyRuntime.ofInt (F := F) (i + 1) ≠ none
  ofInt_hundred : PyRuntime.ofInt (F := F) 100 ≠ none
  sqrt_eq_zero {x : F} :
    PyRuntime.lt x 0.0 = false → PyRuntime.eq (PyRuntime.sqrt x) 0.0 = true → PyRuntime.eq x 0.0 = true
  sq_sub_self (x : F) : PyRuntime.sq (x - x) ≠ none
  not_le_sub_self (x : F) : PyRuntime.le 5.0 (x - x) = false
  small_pos : PyRuntime.lt (0.0 : F) 1e-9 = true ∧ PyRuntime.lt (0.0 : F) 1e-12 = true

namespace Doubles

variable {F : Type} [PyRuntime F] [Doubles F]

/-! ## Guards

What is greater than zero is neither less than zero nor equal to it, and that is all a division or a root asks of its
argument. The three guards below are the ways the operators make sure of it. -/

theorem not_neg_of_pos {x : F} (h : PyRuntime.lt 0.0 x = true) : PyRuntime.lt x 0.0 = false := by
  cases hneg : PyRuntime.lt x 0.0 with
  | false => rfl
  | true =>
      have hself := lt_trans hneg h
      rw [lt_irrefl] at hself
      exact hself.symm

theorem ne_zero_of_pos {x : F} (h : PyRuntime.lt 0.0 x = true) : PyRuntime.eq x 0.0 = false := by
  cases hzero : PyRuntime.eq x 0.0 with
  | false => rfl
  | true =>
      have hself := lt_of_eq_of_lt hzero h
      rw [lt_irrefl] at hself
      exact hself.symm

/-- A divisor that was compared with zero. -/
theorem floatDiv_of_pos (x : F) {y : F} (h : PyRuntime.lt 0.0 y = true) : floatDiv x y = .ok (x / y) := by
  unfold floatDiv
  rw [ne_zero_of_pos h]
  rfl

/-- A division that is guarded against its divisor. -/
theorem guardedDiv_returns (x y : F) :
    ∃ z, (if PyRuntime.lt 0.0 y then floatDiv x y else .ok 0.0) = (.ok z : Except PyError F) := by
  split
  · rename_i hpos
    exact ⟨_, floatDiv_of_pos x hpos⟩
  · exact ⟨_, rfl⟩

omit [Doubles F] in
theorem floatOfInt_of_ne_none {i : Int} (h : PyRuntime.ofInt (F := F) i ≠ none) :
    ∃ x, floatOfInt (F := F) i = .ok x := by
  obtain ⟨x, hx⟩ := Option.ne_none_iff_exists'.mp h
  refine ⟨x, ?_⟩
  unfold floatOfInt
  rw [hx]

/-- A positive integer that converts is a divisor. -/
theorem floatDivInt_of_pos (x : F) {i : Int} (hi : 0 < i) (h : PyRuntime.ofInt (F := F) i ≠ none) :
    ∃ y, floatDivInt x i = .ok y := by
  obtain ⟨d, hd⟩ := Option.ne_none_iff_exists'.mp h
  refine ⟨x / d, ?_⟩
  unfold floatDivInt floatOfInt
  rw [hd]
  exact floatDiv_of_pos x (ofInt_pos hi hd)

omit [Doubles F] in
/-- An integer that does not convert raises, whatever it divides. -/
theorem floatDivInt_of_overflow (x : F) {i : Int} (h : PyRuntime.ofInt (F := F) i = none) :
    ∃ e, floatDivInt x i = .error e := by
  unfold floatDivInt floatOfInt
  rw [h]
  exact ⟨_, rfl⟩

theorem ofInt_ne_none {i : Int} (hi : 0 ≤ i) (h : i ≤ 100) : PyRuntime.ofInt (F := F) i ≠ none :=
  fun hnone => ofInt_hundred (ofInt_mono hi h hnone)

/-- What is bounded from below by something positive is not below zero, and it is not zero either. -/
theorem bounded {x c : F} (hc : PyRuntime.lt 0.0 c = true) :
    PyRuntime.lt (pyMax x c) 0.0 = false ∧ PyRuntime.eq (pyMax x c) 0.0 = false := by
  unfold pyMax
  cases hlt : PyRuntime.lt x c with
  | true => exact ⟨not_neg_of_pos hc, ne_zero_of_pos hc⟩
  | false =>
      rw [if_neg (by simp)]
      -- below the bound, it would have been replaced
      constructor
      · cases hneg : PyRuntime.lt x 0.0 with
        | false => rfl
        | true =>
            rw [lt_trans hneg hc] at hlt
            exact hlt
      · cases hzero : PyRuntime.eq x 0.0 with
        | false => rfl
        | true =>
            rw [lt_of_eq_of_lt hzero hc] at hlt
            exact hlt

theorem pySqrt_bounded {x c : F} (hc : PyRuntime.lt 0.0 c = true) :
    pySqrt (pyMax x c) = .ok (PyRuntime.sqrt (pyMax x c)) := by
  unfold pySqrt
  rw [(bounded hc).1]
  rfl

/-- The root of what is bounded from below is a divisor. -/
theorem floatDiv_sqrt_bounded (y : F) {x c : F} (hc : PyRuntime.lt 0.0 c = true) :
    floatDiv y (PyRuntime.sqrt (pyMax x c)) = .ok (y / PyRuntime.sqrt (pyMax x c)) := by
  unfold floatDiv
  have hne : PyRuntime.eq (PyRuntime.sqrt (pyMax x c)) 0.0 = false := by
    by_contra hzero
    rw [Bool.not_eq_false] at hzero
    have hbounded := sqrt_eq_zero (bounded hc).1 hzero
    rw [(bounded hc).2] at hbounded
    cases hbounded
  rw [hne]
  rfl

/-- The difference of a number from itself has a square. -/
theorem pySquare_sub_self (x : F) : ∃ y, pySquare (x - x) = .ok y := by
  obtain ⟨y, hy⟩ := Option.ne_none_iff_exists'.mp (sq_sub_self x)
  refine ⟨y, ?_⟩
  unfold pySquare
  rw [hy]

end Doubles

/-! ## The rationals

Every integer converts, so the bound on the integers is met for want of one that does not. -/

/-- The root of a positive rational is none of zero. -/
theorem Exact.sqrt_eq_zero {x : ℚ} (hx : ¬ x < 0) (h : Rat.sqrt x = 0) : x = 0 := by
  by_contra hne
  have hpos : 0 < x := lt_of_le_of_ne (not_lt.mp hx) (Ne.symm hne)
  have hnum : 0 < Int.sqrt x.num := by
    have hone : 1 ≤ x.num.toNat := by
      have := Rat.num_pos.mpr hpos
      omega
    exact Int.natCast_pos.mpr (Nat.sqrt_pos.mpr hone)
  have hden : Nat.sqrt x.den ≠ 0 := (Nat.sqrt_pos.mpr x.pos).ne'
  exact hnum.ne' ((Rat.mkRat_eq_zero hden).mp h)

instance : Doubles ℚ where
  lt_irrefl x       := by simp [PyRuntime.lt]
  lt_trans hxy hyz  := Exact.lt_iff.mpr ((Exact.lt_iff.mp hxy).trans (Exact.lt_iff.mp hyz))
  lt_of_eq_of_lt hxy hyz := by
    rw [Exact.eq_iff.mp hxy]
    exact hyz
  ofInt_pos hi h    := by
    cases h
    exact Exact.lt_iff.mpr (by norm_num [hi])
  ofInt_mono _ _ h  := nomatch h
  ofInt_odd _ _     := Option.some_ne_none _
  ofInt_hundred     := Option.some_ne_none _
  sqrt_eq_zero hx h := by
    have hzero : (0.0 : ℚ) = 0 := by norm_num
    rw [hzero] at hx h ⊢
    exact Exact.eq_iff.mpr (Exact.sqrt_eq_zero (of_decide_eq_false hx) (Exact.eq_iff.mp h))
  sq_sub_self _     := Option.some_ne_none _
  not_le_sub_self x := by
    rw [sub_self]
    exact decide_eq_false (by norm_num)
  small_pos         := ⟨Exact.lt_iff.mpr (by norm_num), Exact.lt_iff.mpr (by norm_num)⟩

end Py
end HybridStream
