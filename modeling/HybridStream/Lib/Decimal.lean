import Mathlib.Data.List.Basic
import Mathlib.Order.Basic

/-!
# `Lib.Decimal` — numbers inside text

The keys of stores and caches are put together from names and decimal numbers. A decimal consists of digits and
perhaps a sign (`not_mem_decimal`), so a separator that is neither is found again as the last one of the text,
whatever the name in front of it looks like (`append_separator_inj`), and the number behind it is the one that
was written (`decimal_injective`).
-/

namespace HybridStream
namespace Lib

variable {i j : Int} {c : Char}

theorem toList_decimal_ofNat (n : Nat) : (toString (Int.ofNat n)).toList = Nat.toDigits 10 n := Nat.toList_repr

theorem toList_decimal_negSucc (n : Nat) :
    (toString (Int.negSucc n)).toList = '-' :: Nat.toDigits 10 (n + 1) := by
  show ("-" ++ (n + 1).repr).toList = _
  rw [String.toList_append, Nat.toList_repr]
  rfl

/-- A decimal has digits and a sign only. -/
theorem not_mem_decimal (hdigit : c.isDigit = false) (hsign : c ≠ '-') : c ∉ (toString i).toList := by
  have hdigits : ∀ n, c ∉ Nat.toDigits 10 n := by
    intro n hmem
    rw [Nat.isDigit_of_mem_toDigits (by decide) (by decide) hmem] at hdigit
    cases hdigit
  cases i with
  | ofNat n =>
      rw [toList_decimal_ofNat]
      exact hdigits n
  | negSucc n =>
      rw [toList_decimal_negSucc, List.mem_cons, not_or]
      exact ⟨hsign, hdigits _⟩

theorem toDigits_injective : Function.Injective (Nat.toDigits 10) := by
  intro m n h
  have hvalue := congrArg (fun ds => Nat.ofDigitChars 10 ds 0) h
  simpa using hvalue

/-- Different numbers have different decimals. -/
theorem decimal_injective (h : toString i = toString j) : i = j := by
  have hsign : ∀ m n, '-' :: Nat.toDigits 10 (m + 1) ≠ Nat.toDigits 10 n := by
    intro m n heq
    have hmem : '-' ∈ Nat.toDigits 10 n := by rw [← heq]; exact List.mem_cons_self
    have hdigit := Nat.isDigit_of_mem_toDigits (by decide) (by decide) hmem
    exact absurd hdigit (by decide)
  have hchars := congrArg String.toList h
  cases i with
  | ofNat m =>
      cases j with
      | ofNat n =>
          rw [toList_decimal_ofNat, toList_decimal_ofNat] at hchars
          rw [toDigits_injective hchars]
      | negSucc n =>
          rw [toList_decimal_ofNat, toList_decimal_negSucc] at hchars
          exact absurd hchars.symm (hsign n m)
  | negSucc m =>
      cases j with
      | ofNat n =>
          rw [toList_decimal_ofNat, toList_decimal_negSucc] at hchars
          exact absurd hchars (hsign m n)
      | negSucc n =>
          rw [toList_decimal_negSucc, toList_decimal_negSucc, List.cons.injEq] at hchars
          have hsucc := toDigits_injective hchars.2
          rw [Nat.succ.inj hsucc]

/-- What stands before and after a separator that does not occur after it. -/
theorem append_separator_inj {α : Type*} {separator : α} {x y d e : List α} (hd : separator ∉ d)
    (he : separator ∉ e) : x ++ separator :: d = y ++ separator :: e ↔ x = y ∧ d = e := by
  constructor
  · intro h
    rcases List.append_eq_append_iff.mp h with ⟨rest, hy, hrest⟩ | ⟨rest, hx, hrest⟩
    · cases rest with
      | nil =>
          rw [List.nil_append, List.cons.injEq] at hrest
          exact ⟨by rw [hy, List.append_nil], hrest.2⟩
      | cons z rest =>
          rw [List.cons_append, List.cons.injEq] at hrest
          exact absurd (by rw [hrest.2]; simp) hd
    · cases rest with
      | nil =>
          rw [List.nil_append, List.cons.injEq] at hrest
          exact ⟨by rw [hx, List.append_nil], hrest.2.symm⟩
      | cons z rest =>
          rw [List.cons_append, List.cons.injEq] at hrest
          exact absurd (by rw [hrest.2]; simp) he
  · rintro ⟨rfl, rfl⟩
    rfl

/-- What stands before and after a separator that does not occur before it. -/
theorem separator_append_inj {α : Type*} {separator : α} {x y d e : List α} (hx : separator ∉ x)
    (hy : separator ∉ y) : x ++ separator :: d = y ++ separator :: e ↔ x = y ∧ d = e := by
  have hrev := append_separator_inj (x := d.reverse) (y := e.reverse) (d := x.reverse) (e := y.reverse)
    (fun h => hx (List.mem_reverse.mp h)) (fun h => hy (List.mem_reverse.mp h))
  rw [List.reverse_inj, List.reverse_inj, and_comm] at hrev
  rw [← hrev, ← List.reverse_inj]
  simp

end Lib
end HybridStream
