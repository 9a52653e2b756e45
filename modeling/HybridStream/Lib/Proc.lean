import Mathlib.Data.List.Forall2

/-!
# `Lib.Proc` — methods that write to their object and may raise

A method body reads and writes the attributes of one object and may raise. What it wrote before a raise
stays written, so the state goes *under* the exception: `Proc ε σ α` is `ExceptT ε (StateM σ) α`, and
running it (`exec`) always yields a state.

`Keeps I m` says that `m` preserves `I` whatever its outcome. The rules follow the structure of a method
body, one per construct; `keeps_foldl` carries the property over a whole history of calls.
-/

namespace HybridStream
namespace Lib

universe u

/-- A method body over the object state `σ`, raising `ε`. -/
abbrev Proc (ε σ α : Type u) := ExceptT ε (StateM σ) α

/-- What a computation that returned has gone through. -/
theorem bind_eq_ok {ε α β : Type u} {m : Except ε α} {f : α → Except ε β} {b : β} :
    (m >>= f) = .ok b ↔ ∃ a, m = .ok a ∧ f a = .ok b := by
  cases m with
  | error e =>
      constructor
      · intro h; cases h
      · rintro ⟨a, ha, -⟩; cases ha
  | ok a =>
      constructor
      · intro h; exact ⟨a, rfl, h⟩
      · rintro ⟨a', ha, h⟩; cases ha; exact h

/-- Nothing follows what has raised. -/
theorem bind_of_error {ε α β : Type u} {m : Except ε α} {f : α → Except ε β} {e : ε} (h : m = .error e) :
    (m >>= f) = .error e := by
  rw [h]
  rfl

/-- A monadic map that returned has mapped every element. -/
theorem mapM_eq_ok {ε α β : Type u} {f : α → Except ε β} {xs : List α} {ys : List β}
    (h : xs.mapM f = .ok ys) : List.Forall₂ (fun x y => f x = .ok y) xs ys := by
  induction xs generalizing ys with
  | nil =>
      cases h
      exact .nil
  | cons x xs ih =>
      rw [List.mapM_cons] at h
      obtain ⟨y, hy, h⟩ := bind_eq_ok.mp h
      obtain ⟨zs, hzs, h⟩ := bind_eq_ok.mp h
      cases h
      exact .cons hy (ih hzs)

/-- Its results stand where the elements stood. -/
theorem mapM_getElem? {ε α β : Type u} {f : α → Except ε β} {xs : List α} {ys : List β}
    (h : xs.mapM f = .ok ys) {i : Nat} {x : α} (hx : xs[i]? = some x) : ∃ y, ys[i]? = some y ∧ f x = .ok y := by
  have hall := mapM_eq_ok h
  clear h
  induction hall generalizing i with
  | nil => exact absurd hx (by simp)
  | cons hy _ ih =>
      cases i with
      | zero =>
          cases hx
          exact ⟨_, rfl, hy⟩
      | succ i => exact ih hx

/-- Each result is that of some element. -/
theorem mem_of_mapM {ε α β : Type u} {f : α → Except ε β} {xs : List α} {ys : List β}
    (h : xs.mapM f = .ok ys) {y : β} (hy : y ∈ ys) : ∃ x ∈ xs, f x = .ok y := by
  have hall := mapM_eq_ok h
  clear h
  induction hall with
  | nil => exact absurd hy List.not_mem_nil
  | cons hx _ ih =>
      rcases List.mem_cons.mp hy with rfl | hy
      · exact ⟨_, List.mem_cons_self, hx⟩
      · obtain ⟨x, hmem, hx⟩ := ih hy
        exact ⟨x, List.mem_cons_of_mem _ hmem, hx⟩

/-- What each result carries over from its element, the results carry over from the elements. -/
theorem map_of_mapM {ε α β γ : Type u} {f : α → Except ε β} {g : β → γ} {k : α → γ} {xs : List α} {ys : List β}
    (h : xs.mapM f = .ok ys) (hcarry : ∀ x y, f x = .ok y → g y = k x) : ys.map g = xs.map k := by
  have hall := mapM_eq_ok h
  clear h
  induction hall with
  | nil => rfl
  | cons hy _ ih => rw [List.map_cons, List.map_cons, ih, hcarry _ _ hy]

/-- A monadic map returns the results of its calls. -/
theorem mapM_of_forall₂ {ε α β : Type u} {f : α → Except ε β} {xs : List α} {ys : List β}
    (h : List.Forall₂ (fun x y => f x = .ok y) xs ys) : xs.mapM f = .ok ys := by
  induction h with
  | nil => rfl
  | cons hy _ ih =>
      rw [List.mapM_cons]
      exact bind_eq_ok.mpr ⟨_, hy, bind_eq_ok.mpr ⟨_, ih, rfl⟩⟩

/-- Where every call returns, the results are those of a plain map. -/
theorem mapM_eq_map {ε α β : Type u} {f : α → Except ε β} {g : α → β} {xs : List α}
    (h : ∀ x ∈ xs, f x = .ok (g x)) : xs.mapM f = .ok (xs.map g) := by
  apply mapM_of_forall₂
  rw [List.forall₂_map_right_iff]
  exact List.forall₂_same.mpr h

/-- Reading back what was written out, element by element. -/
theorem mapM_map_of_inverse {ε α β : Type u} {f : α → β} {g : β → Except ε α} {xs : List α}
    (h : ∀ x ∈ xs, g (f x) = .ok x) : (xs.map f).mapM g = .ok xs := by
  apply mapM_of_forall₂
  rw [List.forall₂_map_left_iff]
  exact List.forall₂_same.mpr h

/-- It returns where each of its calls does. -/
theorem exists_mapM_ok {ε α β : Type u} {f : α → Except ε β} {xs : List α} (h : ∀ x ∈ xs, ∃ y, f x = .ok y) :
    ∃ ys, xs.mapM f = .ok ys := by
  suffices hall : ∃ ys, List.Forall₂ (fun x y => f x = .ok y) xs ys by
    obtain ⟨ys, hys⟩ := hall
    exact ⟨ys, mapM_of_forall₂ hys⟩
  induction xs with
  | nil => exact ⟨[], .nil⟩
  | cons x xs ih =>
      obtain ⟨y, hy⟩ := h x List.mem_cons_self
      obtain ⟨ys, hys⟩ := ih (fun x hx => h x (List.mem_cons_of_mem _ hx))
      exact ⟨y :: ys, .cons hy hys⟩

/-- In another order it returns the same results, in that order. -/
theorem mapM_perm {ε α β : Type u} {f : α → Except ε β} {xs xs' : List α} (hperm : xs'.Perm xs) {ys : List β}
    (h : xs.mapM f = .ok ys) : ∃ ys', xs'.mapM f = .ok ys' ∧ (xs'.zip ys').Perm (xs.zip ys) := by
  induction hperm generalizing ys with
  | nil => exact ⟨ys, h, .refl _⟩
  | cons x _ ih =>
      rw [List.mapM_cons] at h
      obtain ⟨y, hy, h⟩ := bind_eq_ok.mp h
      obtain ⟨zs, hzs, h⟩ := bind_eq_ok.mp h
      cases h
      obtain ⟨zs', hzs', hzip⟩ := ih hzs
      refine ⟨y :: zs', ?_, hzip.cons _⟩
      rw [List.mapM_cons]
      exact bind_eq_ok.mpr ⟨y, hy, bind_eq_ok.mpr ⟨zs', hzs', rfl⟩⟩
  | swap x x' xs =>
      rw [List.mapM_cons] at h
      obtain ⟨y, hy, h⟩ := bind_eq_ok.mp h
      obtain ⟨ys', hys', h⟩ := bind_eq_ok.mp h
      cases h
      rw [List.mapM_cons] at hys'
      obtain ⟨y', hy', h⟩ := bind_eq_ok.mp hys'
      obtain ⟨zs, hzs, h⟩ := bind_eq_ok.mp h
      cases h
      refine ⟨y' :: y :: zs, ?_, .swap _ _ _⟩
      rw [List.mapM_cons, List.mapM_cons]
      exact bind_eq_ok.mpr ⟨y', hy', bind_eq_ok.mpr ⟨y :: zs,
        bind_eq_ok.mpr ⟨y, hy, bind_eq_ok.mpr ⟨zs, hzs, rfl⟩⟩, rfl⟩⟩
  | trans _ _ ih ih' =>
      obtain ⟨zs, hzs, hzip⟩ := ih' h
      obtain ⟨zs', hzs', hzip'⟩ := ih hzs
      exact ⟨zs', hzs', hzip'.trans hzip⟩

namespace Proc

variable {ε σ α β : Type u}

/-- Run a method: its outcome and the state it leaves. -/
def exec (m : Proc ε σ α) (s : σ) : Except ε α × σ := StateT.run (ExceptT.run m) s

/-- Run a method with a pure outcome. -/
def lift (e : Except ε α) : Proc ε σ α := ExceptT.mk (pure e)

/-! ## Running each construct

What each construct of a method body leaves and ends with, as rewriting rules. A body is followed by rewriting with
them from its first statement on. -/

@[simp] theorem exec_pure (a : α) (s : σ) : exec (pure a : Proc ε σ α) s = (.ok a, s) := rfl

@[simp] theorem exec_lift (e : Except ε α) (s : σ) : exec (lift e) s = (e, s) := rfl

@[simp] theorem exec_throw (e : ε) (s : σ) : exec (throw e : Proc ε σ α) s = (.error e, s) := rfl

@[simp] theorem exec_get (s : σ) : exec (get : Proc ε σ σ) s = (.ok s, s) := rfl

@[simp] theorem exec_modify (f : σ → σ) (s : σ) :
    exec (modify f : Proc ε σ PUnit) s = (.ok ⟨⟩, f s) := rfl

theorem exec_bind (m : Proc ε σ α) (f : α → Proc ε σ β) (s : σ) :
    exec (m >>= f) s = match exec m s with
      | (.ok a, t)    => exec (f a) t
      | (.error e, t) => (.error e, t) := by
  unfold exec
  rw [ExceptT.run_bind, StateT.run_bind]
  rcases StateT.run (ExceptT.run m) s with ⟨e | a, t⟩ <;> rfl

@[simp] theorem exec_bind_ok {m : Proc ε σ α} {f : α → Proc ε σ β} {s t : σ} {a : α}
    (h : exec m s = (.ok a, t)) : exec (m >>= f) s = exec (f a) t := by
  rw [exec_bind, h]

theorem exec_modify_bind (g : σ → σ) (f : PUnit → Proc ε σ β) (s : σ) :
    exec ((modify g : Proc ε σ PUnit) >>= f) s = exec (f ⟨⟩) (g s) := rfl

theorem exec_get_bind (f : σ → Proc ε σ β) (s : σ) : exec ((get : Proc ε σ σ) >>= f) s = exec (f s) s := rfl

/-- A loop stops at the first turn that raises. -/
theorem exec_forM_cons {γ : Type u} (f : γ → Proc ε σ PUnit) (x : γ) (xs : List γ) (s : σ) :
    exec ((x :: xs).forM f) s = match exec (f x) s with
      | (.ok _, t)    => exec (xs.forM f) t
      | (.error e, t) => (.error e, t) := by
  have hcons : (x :: xs).forM f = (f x >>= fun _ => xs.forM f) := rfl
  rw [hcons, exec_bind]
  rcases exec (f x) s with ⟨e | ⟨⟩, t⟩ <;> rfl

/-- A method that returned has got past each of its pure steps. -/
theorem exec_lift_bind_eq_ok {e : Except ε α} {f : α → Proc ε σ β} {s t : σ} {b : β} :
    exec (lift e >>= f) s = (.ok b, t) ↔ ∃ a, e = .ok a ∧ exec (f a) s = (.ok b, t) := by
  cases e with
  | error e =>
      constructor
      · intro h; cases h
      · rintro ⟨a, ha, -⟩; cases ha
  | ok a =>
      constructor
      · intro h; exact ⟨a, rfl, h⟩
      · rintro ⟨a', ha, h⟩; cases ha; exact h

/-- `try … except`: what the body wrote before it raised stays written. -/
theorem exec_tryCatch (m : Proc ε σ α) (handler : ε → Proc ε σ α) (s : σ) :
    exec (tryCatch m handler) s = match exec m s with
      | (.ok a, t)    => (.ok a, t)
      | (.error e, t) => exec (handler e) t := by
  have hcatch : exec (tryCatch m handler) s =
      StateT.run (ExceptT.run m >>= fun r => match r with
        | .ok a    => pure (.ok a)
        | .error e => ExceptT.run (handler e)) s := rfl
  rw [hcatch, StateT.run_bind]
  unfold exec
  rcases StateT.run (ExceptT.run m) s with ⟨e | a, t⟩ <;> rfl

/-! ## Invariants of a method body

A predicate that a body keeps whether it returns or raises. The rules follow the constructs of the body, so that a
proof has one step for each statement that writes something the predicate mentions. -/

/-- `m` preserves `I`, also where it raises. -/
def Keeps (I : σ → Prop) (m : Proc ε σ α) : Prop := ∀ s, I s → I (exec m s).2

section Rules

variable {I : σ → Prop}

theorem keeps_pure (a : α) : Keeps I (pure a : Proc ε σ α) := fun _ hs => hs

theorem keeps_lift (e : Except ε α) : Keeps I (lift e : Proc ε σ α) := fun _ hs => hs

theorem keeps_modify {f : σ → σ} (h : ∀ s, I s → I (f s)) : Keeps I (modify f : Proc ε σ PUnit) := h

/-- What the first part of a body has brought about, the rest keeps. -/
theorem exec_bind_keeps {m : Proc ε σ α} {f : α → Proc ε σ β} {s : σ} (hm : I (exec m s).2)
    (hf : ∀ a, Keeps I (f a)) : I (exec (m >>= f) s).2 := by
  rw [exec_bind]
  rcases hexec : exec m s with ⟨e | a, t⟩
  · rw [hexec] at hm; exact hm
  · rw [hexec] at hm; exact hf a t hm

theorem keeps_bind {m : Proc ε σ α} {f : α → Proc ε σ β} (hm : Keeps I m) (hf : ∀ a, Keeps I (f a)) :
    Keeps I (m >>= f) := fun s hs => exec_bind_keeps (hm s hs) hf

/-- Binding a read: the value read meets the invariant. -/
theorem keeps_get_bind {f : σ → Proc ε σ β} (hf : ∀ a, I a → Keeps I (f a)) :
    Keeps I (get >>= f) := fun s hs => hf s hs s hs

theorem keeps_lift_bind {e : Except ε α} {f : α → Proc ε σ β} (hf : ∀ a, Keeps I (f a)) :
    Keeps I (lift e >>= f) := keeps_bind (keeps_lift e) hf

/-- The rest of a body only has to keep `I` for what its pure step returns. -/
theorem keeps_lift_bind_of_ok {e : Except ε α} {f : α → Proc ε σ β} (hf : ∀ a, e = .ok a → Keeps I (f a)) :
    Keeps I (lift e >>= f) := by
  cases e with
  | error e => exact fun _ hs => hs
  | ok a => exact hf a rfl

theorem keeps_write_bind {f : σ → σ} {m : PUnit → Proc ε σ β} (hf : ∀ s, I s → I (f s))
    (hm : Keeps I (m ⟨⟩)) : Keeps I ((modify f : Proc ε σ PUnit) >>= m) := keeps_bind (keeps_modify hf) fun _ => hm

/-- From a write on, a stronger invariant `J` may hold, which the rest keeps. -/
theorem keeps_modify_bind {J : σ → Prop} {f : σ → σ} {m : PUnit → Proc ε σ β} (hf : ∀ s, I s → J (f s))
    (hm : Keeps J (m ⟨⟩)) (hJ : ∀ s, J s → I s) :
    Keeps I ((modify f : Proc ε σ PUnit) >>= m) := fun s hs => hJ _ (hm (f s) (hf s hs))

theorem keeps_ite {c : Prop} [Decidable c] {m m' : Proc ε σ α} (h : Keeps I m) (h' : Keeps I m') :
    Keeps I (if c then m else m') := by
  split
  · exact h
  · exact h'

/-- A history of calls keeps what each of its calls keeps. -/
theorem keeps_foldl {γ : Type u} (call : γ → Proc ε σ α) {cs : List γ} (h : ∀ c ∈ cs, Keeps I (call c)) {s : σ}
    (hs : I s) : I (cs.foldl (fun s c => (exec (call c) s).2) s) := by
  induction cs generalizing s with
  | nil => exact hs
  | cons c cs ih => exact ih (fun c' hc' => h c' (List.mem_cons_of_mem _ hc')) (h c List.mem_cons_self s hs)

end Rules

end Proc

end Lib
end HybridStream
