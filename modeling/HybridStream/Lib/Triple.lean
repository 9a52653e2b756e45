import HybridStream.Lib.Proc

/-!
# `Lib.Triple` — with what a method returns and with what it raises

`Ends m s Q E` says of the method `m`, started in the state `s`: it returns a value and a state with `Q`, or raises
an exception and leaves a state with `E`. The rules follow the structure of a method body, one per construct; a body
is proved by one application of each, from its first statement to its last.
-/

namespace HybridStream
namespace Lib
namespace Proc

universe u

variable {ε σ α β : Type u} {s : σ} {Q : α → σ → Prop} {E : ε → σ → Prop}

/-- `m` returns with `Q` or raises with `E`. -/
def Ends (m : Proc ε σ α) (s : σ) (Q : α → σ → Prop) (E : ε → σ → Prop) : Prop :=
  match exec m s with
  | (.ok a, t)    => Q a t
  | (.error e, t) => E e t

theorem ends_pure {a : α} (h : Q a s) : Ends (pure a) s Q E := h

theorem ends_throw {e : ε} (h : E e s) : Ends (throw e : Proc ε σ α) s Q E := h

theorem ends_modify {f : σ → σ} {Q : PUnit → σ → Prop} (h : Q ⟨⟩ (f s)) : Ends (modify f : Proc ε σ PUnit) s Q E := h

theorem ends_lift {e : Except ε α} (hok : ∀ a, e = .ok a → Q a s) (herror : ∀ x, e = .error x → E x s) :
    Ends (lift e) s Q E := by
  cases e with
  | ok a    => exact hok a rfl
  | error x => exact herror x rfl

/-- A weaker outcome. -/
theorem Ends.imp {Q' : α → σ → Prop} {E' : ε → σ → Prop} {m : Proc ε σ α} (h : Ends m s Q E)
    (hQ : ∀ a t, Q a t → Q' a t) (hE : ∀ e t, E e t → E' e t) : Ends m s Q' E' := by
  unfold Ends at h ⊢
  rcases hexec : exec m s with ⟨e | a, t⟩
  · rw [hexec] at h
    exact hE e t h
  · rw [hexec] at h
    exact hQ a t h

theorem ends_bind {R : β → σ → Prop} {m : Proc ε σ β} {f : β → Proc ε σ α} (hm : Ends m s R E)
    (hf : ∀ b t, R b t → Ends (f b) t Q E) : Ends (m >>= f) s Q E := by
  unfold Ends at hm ⊢
  rw [exec_bind]
  rcases hexec : exec m s with ⟨e | b, t⟩
  · rw [hexec] at hm
    exact hm
  · rw [hexec] at hm
    exact hf b t hm

theorem ends_get_bind {f : σ → Proc ε σ α} (h : Ends (f s) s Q E) : Ends (get >>= f) s Q E := h

theorem ends_modify_bind {g : σ → σ} {f : PUnit → Proc ε σ α} (h : Ends (f ⟨⟩) (g s) Q E) :
    Ends ((modify g : Proc ε σ PUnit) >>= f) s Q E := h

/-- `try … except`: the handler goes on from what the body left. -/
theorem ends_tryCatch {D : ε → σ → Prop} {m : Proc ε σ α} {handler : ε → Proc ε σ α} (hm : Ends m s Q D)
    (hhandler : ∀ e t, D e t → Ends (handler e) t Q E) : Ends (tryCatch m handler) s Q E := by
  unfold Ends at hm
  unfold Ends
  rw [exec_tryCatch]
  rcases hexec : exec m s with ⟨e | a, t⟩
  · rw [hexec] at hm
    exact hhandler e t hm
  · rw [hexec] at hm
    exact hm

/-- What a run that is known has ended with. -/
theorem Ends.of_exec {m : Proc ε σ α} (h : Ends m s Q E) :
    (∃ a t, exec m s = (.ok a, t) ∧ Q a t) ∨ ∃ e t, exec m s = (.error e, t) ∧ E e t := by
  unfold Ends at h
  rcases hexec : exec m s with ⟨e | a, t⟩
  · rw [hexec] at h
    exact Or.inr ⟨e, t, rfl, h⟩
  · rw [hexec] at h
    exact Or.inl ⟨a, t, rfl, h⟩

end Proc
end Lib
end HybridStream
