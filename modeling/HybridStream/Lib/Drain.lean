import HybridStream.Lib.Dataflow
import Mathlib.Algebra.Order.BigOperators.Group.Finset
import Mathlib.Logic.Hydra

/-!
# `Lib.Drain` — an acyclic network comes to rest

Where every operator writes channels below the one its loop reads (`Layered`) and there are finitely many loops, a
network to which nothing more comes from outside makes finitely many steps, whatever the schedule, whatever the
operators answer and whatever becomes of the sends; and where it stops every loop has consumed all of its channel
(`settles`).

The measure is the multiset of what there is to do (`outstanding`): messages to be delivered, messages that a loop has
not consumed, messages to be sent. A step takes one of these out and puts in finitely many that are smaller, or takes
out several. Messages are smaller the lower their channel, and on one channel the delivery of a message is smaller than
the message, and the message smaller than its being sent.

Nothing here names a particular system.
-/

namespace HybridStream
namespace Lib
namespace Dataflow

open Relation

universe u₁ u₂ u₃ u₄ u₅ u₆

/-! ## What there is to do

The duties of a state as a multiset: the messages not consumed, those to be delivered and those to be sent, ordered by
the channel they come from and then by how far they are. In an acyclic network an operator turns a message into
messages of channels below it. -/

/-- A message to be delivered that comes from channel `c`, one on channel `c` that a loop has not consumed, one to be
    sent on channel `c`. -/
inductive Item (κ : Type u₁) where
  | delivery (c : κ)
  | message (c : κ)
  | outgoing (c : κ)

namespace Item

variable {κ : Type u₁} {below : κ → κ → Prop}

def channel : Item κ → κ
  | delivery c | message c | outgoing c => c

def phase : Item κ → Nat
  | delivery _ => 0
  | message _  => 1
  | outgoing _ => 2

/-- The order of the channels, and then of the phases. -/
def Smaller (below : κ → κ → Prop) : Item κ → Item κ → Prop :=
  InvImage (Prod.Lex below (· < ·)) (fun x => (x.channel, x.phase))

theorem smaller_wellFounded (h : WellFounded below) : WellFounded (Smaller below) :=
  InvImage.wf _ (h.prod_lex Nat.lt_wfRel.wf)

theorem delivery_smaller_message (c : κ) : Smaller below (delivery c) (message c) :=
  .right _ Nat.zero_lt_one

theorem message_smaller_outgoing (c : κ) : Smaller below (message c) (outgoing c) :=
  .right _ (Nat.lt_succ_self 1)

theorem smaller_of_below {x y : Item κ} (h : below x.channel y.channel) : Smaller below x y :=
  .left _ _ h

end Item

/-- Taking items out makes a multiset smaller. -/
theorem cutExpand_of_lt {α : Type*} {r : α → α → Prop} {x y : Multiset α} (h : x < y) :
    TransGen (CutExpand r) x y := by
  obtain ⟨u, rfl⟩ := Multiset.le_iff_exists_add.mp h.le
  have hu : u ≠ 0 := by
    rintro rfl
    simp at h
  clear h
  induction u using Multiset.induction generalizing x with
  | empty => exact absurd rfl hu
  | cons a u ih =>
      have hone : CutExpand r (x + u) (x + a ::ₘ u) := by
        refine ⟨0, a, fun _ hmem => absurd hmem (Multiset.notMem_zero _), ?_⟩
        rw [add_zero, add_assoc, ← Multiset.singleton_add, add_comm u]
      by_cases hempty : u = 0
      · subst hempty
        simpa using TransGen.single hone
      · exact (ih hempty).tail hone

variable {ι : Type u₆} {κ : Type u₁} {ω : Type u₂} {σ : ω → Type u₃} {A : Type u₄} {M : Type u₅}
  [DecidableEq ι] [DecidableEq κ] [DecidableEq ω]
  {ops : Operators κ ω σ A M} {N : Network ι κ ω} {below : κ → κ → Prop} {s s' : State ι κ ω σ M} {l : (o : ω) → σ o}
  {loops : Finset ι}

/-- The operators write channels below the one their loop reads. -/
def Layered (ops : Operators κ ω σ A M) (N : Network ι κ ω) (below : κ → κ → Prop) : Prop :=
  ∀ i, ∀ o ∈ N.bound i, ∀ c ∈ ops.routes o, below c (N.reads i)

/-- What a loop that reads `c₀` has to do for a task. -/
def Task.item (c₀ : κ) : Task κ ω M → Item κ
  | .deliver _ _ => .delivery c₀
  | .send c _    => .outgoing c

/-- How many messages a loop has not consumed. -/
def unread (N : Network ι κ ω) (s : State ι κ ω σ M) (i : ι) : Nat :=
  ∑ p ∈ Finset.range (N.partitions (N.reads i)), ((s.partition (N.reads i) p).length - s.position i p)

/-- What a loop has to do. -/
def duties (N : Network ι κ ω) (s : State ι κ ω σ M) (i : ι) : Multiset (Item κ) :=
  ((s.pending i).map (Task.item (N.reads i)) : Multiset (Item κ)) +
    Multiset.replicate (unread N s i) (.message (N.reads i))

/-- What all loops have to do. -/
def outstanding (N : Network ι κ ω) (loops : Finset ι) (s : State ι κ ω σ M) : Multiset (Item κ) :=
  ∑ i ∈ loops, duties N s i

/-- Nothing comes from outside. -/
def Inner (_ : State ι κ ω σ M) : Event ι κ A M → Prop
  | .feed _ _ _ => False
  | _           => True

/-- A network left to itself. -/
def inner (ops : Operators κ ω σ A M) (N : Network ι κ ω) (l : (o : ω) → σ o) :
    Lts (State ι κ ω σ M) (Event ι κ A M) :=
  (N.system ops l).restrict Inner

/-! ## Every step leaves less to do

A step takes one duty and puts smaller ones in its place, or none. There may be many of these, which is why the
measure is a multiset and no number; the order on multisets under which such an exchange descends is well-founded
where the order of the duties is. -/

omit [DecidableEq κ] [DecidableEq ω] in
/-- One loop has something less to do. -/
theorem outstanding_eq_add {i : ι} (hi : i ∈ loops) (hothers : ∀ j ≠ i, duties N s' j = duties N s j)
    {x : Multiset (Item κ)} (h : duties N s i = duties N s' i + x) :
    outstanding N loops s = outstanding N loops s' + x := by
  unfold outstanding
  rw [← Finset.add_sum_erase loops _ hi, ← Finset.add_sum_erase loops (duties N s') hi,
    Finset.sum_congr rfl fun j hj => hothers j (Finset.ne_of_mem_erase hj), h, add_assoc, add_assoc, add_comm x]

omit [DecidableEq κ] [DecidableEq ω] in
/-- A step of one loop that leaves the others alone. -/
theorem outstanding_of_duties {i : ι} (hi : i ∈ loops) (hothers : ∀ j ≠ i, duties N s' j = duties N s j)
    (h : TransGen (CutExpand (Item.Smaller below)) (duties N s' i) (duties N s i)) :
    TransGen (CutExpand (Item.Smaller below)) (outstanding N loops s') (outstanding N loops s) := by
  unfold outstanding
  rw [← Finset.add_sum_erase loops _ hi, ← Finset.add_sum_erase loops (duties N s) hi,
    Finset.sum_congr rfl fun j hj => hothers j (Finset.ne_of_mem_erase hj)]
  exact h.lift (fun x => x + ∑ j ∈ loops.erase i, duties N s j) fun x y hxy => (cutExpand_add_right _).mpr hxy

omit [DecidableEq ι] [DecidableEq κ] [DecidableEq ω] in
/-- The items are those of the partitions and of the tasks. -/
theorem duties_congr {j : ι} (hlog : s'.log = s.log) (hposition : s'.position j = s.position j)
    (hpending : s'.pending j = s.pending j) : duties N s' j = duties N s j := by
  unfold duties unread State.partition
  rw [hlog, hposition, hpending]

theorem take_decreases (hs : Orderly ops N s) {i : ι} {p : Nat} (hi : i ∈ loops)
    (h : N.step ops s (.take i p) = some s') :
    TransGen (CutExpand (Item.Smaller below)) (outstanding N loops s') (outstanding N loops s) := by
  obtain ⟨m, hpending, hnext, -, rfl⟩ := Network.take_eq_some h
  have hlt : s.position i p < (s.partition (N.reads i) p).length := (List.getElem?_eq_some_iff.mp hnext).1
  -- the partition is one of the channel's, as messages are only written to those
  have hp : p ∈ Finset.range (N.partitions (N.reads i)) :=
    Finset.mem_range.mpr (hs.parted _ _ _ (mem_valuesAt.mp (List.mem_of_getElem? hnext)))
  -- only the reader's own duties change
  refine outstanding_of_duties hi (fun j hj => duties_congr rfl ?_ ?_) ?_
  · exact Function.update_of_ne hj _ _
  · exact Function.update_of_ne hj _ _
  · let s₁ : State ι κ ω σ M := { s with
      position := Function.update s.position i (Function.update (s.position i) p (s.position i p + 1))
      taken    := Function.update s.taken i (s.taken i ++ [(p, m)])
      pending  := Function.update s.pending i (N.deliveries i m) }
    -- one message less to be read: in its partition, the others are as they were
    have hunread : unread N s i = unread N s₁ i + 1 := by
      unfold unread
      rw [← Finset.add_sum_erase _ _ hp, ← Finset.add_sum_erase _ (fun q => _ - s₁.position i q) hp]
      have hsame : ∀ q ∈ (Finset.range (N.partitions (N.reads i))).erase p,
          (s₁.partition (N.reads i) q).length - s₁.position i q =
            (s.partition (N.reads i) q).length - s.position i q := by
        intro q hq
        show _ - Function.update s.position i _ i q = _
        rw [Function.update_self, Function.update_of_ne (Finset.ne_of_mem_erase hq)]
        rfl
      have hself : (s₁.partition (N.reads i) p).length - s₁.position i p =
          (s.partition (N.reads i) p).length - (s.position i p + 1) := by
        show _ - Function.update s.position i _ i p = _
        rw [Function.update_self, Function.update_self]
        rfl
      rw [Finset.sum_congr rfl hsame, hself]
      omega
    have hbefore : duties N s i =
        {.message (N.reads i)} + Multiset.replicate (unread N s₁ i) (.message (N.reads i)) := by
      unfold duties
      rw [hpending, hunread, Multiset.replicate_succ]
      simp
    have hafter : duties N s₁ i = ((N.deliveries i m).map (Task.item (N.reads i)) : Multiset (Item κ)) +
        Multiset.replicate (unread N s₁ i) (.message (N.reads i)) := by
      unfold duties
      rw [show s₁.pending i = N.deliveries i m from Function.update_self ..]
    show TransGen _ (duties N s₁ i) _
    rw [hbefore, hafter]
    -- a message is replaced by its deliveries, all of which are smaller
    refine .single ((cutExpand_add_right _).mpr (cutExpand_singleton ?_))
    intro x hx
    obtain ⟨task, htask, rfl⟩ := List.mem_map.mp (Multiset.mem_coe.mp hx)
    obtain ⟨o, -, rfl⟩ := List.mem_map.mp htask
    exact Item.delivery_smaller_message _

theorem lose_decreases (hs : Orderly ops N s) {i : ι} {p : Nat} {n : Nat → Nat} (hi : i ∈ loops)
    (h : N.step ops s (.lose i p n) = some s') :
    TransGen (CutExpand (Item.Smaller below)) (outstanding N loops s') (outstanding N loops s) := by
  obtain ⟨m, hnext, -, -, hpos, -, rfl⟩ := Network.lose_eq_some h
  have hlt : s.position i p < (s.partition (N.reads i) p).length := (List.getElem?_eq_some_iff.mp hnext).1
  have hp : p < N.partitions (N.reads i) := hs.parted _ _ _ (mem_valuesAt.mp (List.mem_of_getElem? hnext))
  refine outstanding_of_duties hi (fun j hj => duties_congr rfl (Function.update_of_ne hj _ _) rfl) ?_
  have hfewer : unread N { s with
      position := Function.update s.position i
        (fun q => if q < N.partitions (N.reads i) then s.position i q + n q else s.position i q) } i <
      unread N s i := by
    apply Finset.sum_lt_sum
    · intro q hq
      dsimp only
      rw [Function.update_self, if_pos (Finset.mem_range.mp hq)]
      exact Nat.sub_le_sub_left (Nat.le_add_right _ _) _
    · refine ⟨p, Finset.mem_range.mpr hp, ?_⟩
      dsimp only
      rw [Function.update_self, if_pos hp]
      show (s.partition (N.reads i) p).length - _ < _
      omega
  refine cutExpand_of_lt (add_lt_add_right (lt_of_le_not_ge ?_ ?_) _)
  · exact Multiset.replicate_mono _ hfewer.le
  · exact fun hle => absurd ((Multiset.replicate_le_replicate _).mp hle) (Nat.not_le.mpr hfewer)

theorem work_decreases (hlayered : Layered ops N below) (hs : Orderly ops N s) {i : ι} {a : A} (hi : i ∈ loops)
    (h : N.step ops s (.work i a) = some s') :
    TransGen (CutExpand (Item.Smaller below)) (outstanding N loops s') (outstanding N loops s) := by
  obtain ⟨o, m, tasks, hpending, rfl⟩ := Network.work_eq_some h
  have hbound : o ∈ N.bound i := hs.bound i o m (by rw [hpending]; exact List.mem_cons_self)
  refine outstanding_of_duties hi (fun j hj => duties_congr rfl rfl (Function.update_of_ne hj _ _)) ?_
  unfold duties
  dsimp only
  rw [hpending, Function.update_self, List.map_append, List.map_cons, ← Multiset.coe_add, ← Multiset.cons_coe,
    ← Multiset.singleton_add, add_assoc, add_assoc]
  refine .single ((cutExpand_add_right _).mpr (cutExpand_singleton ?_))
  intro x hx
  obtain ⟨task, htask, rfl⟩ := List.mem_map.mp (Multiset.mem_coe.mp hx)
  obtain ⟨y, hy, rfl⟩ := List.mem_map.mp htask
  exact Item.smaller_of_below (hlayered i o hbound _ (ops.routed hy))

theorem refuse_decreases {i : ι} (hi : i ∈ loops) (h : N.step ops s (.refuse i) = some s') :
    TransGen (CutExpand (Item.Smaller below)) (outstanding N loops s') (outstanding N loops s) := by
  obtain ⟨c, m, tasks, hpending, rfl⟩ := Network.refuse_eq_some h
  refine outstanding_of_duties hi (fun j hj => duties_congr rfl rfl (Function.update_of_ne hj _ _)) ?_
  apply cutExpand_of_lt
  apply add_lt_add_left
  dsimp only
  rw [hpending, Function.update_self]
  have hsub : ((tasks.dropWhile Task.isSend).map (Task.item (N.reads i))).Sublist
      (tasks.map (Task.item (N.reads i))) := (List.dropWhile_sublist _).map _
  exact lt_of_le_of_lt (Multiset.coe_le.mpr hsub.subperm) (Multiset.lt_cons_self _ _)

theorem send_decreases (hs : Orderly ops N s) {i : ι} {p : Nat} (hi : i ∈ loops)
    (h : N.step ops s (.send i p) = some s') :
    TransGen (CutExpand (Item.Smaller below)) (outstanding N loops s') (outstanding N loops s) := by
  obtain ⟨c, m, tasks, hpending, hp, rfl⟩ := Network.send_eq_some h
  let s₁ : State ι κ ω σ M := { s with pending := Function.update s.pending i tasks }
  -- every loop that reads the channel has one message more
  have hunread : ∀ j, unread N (s₁.write c p m) j = unread N s j + if N.reads j = c then 1 else 0 := by
    intro j
    unfold unread
    have hone : ∀ q, ((s₁.write c p m).partition (N.reads j) q).length - (s₁.write c p m).position j q =
        ((s.partition (N.reads j) q).length - s.position j q) + if N.reads j = c ∧ p = q then 1 else 0 := by
      intro q
      rw [State.partition_write, List.length_append]
      show (s.partition (N.reads j) q).length + _ - s.position j q = _
      have hle := hs.within j q
      split
      · rw [List.length_singleton]
        omega
      · rw [List.length_nil]
        omega
    rw [Finset.sum_congr rfl fun q _ => hone q, Finset.sum_add_distrib]
    congr 1
    by_cases hc : N.reads j = c
    · subst hc
      simp [hp]
    · simp [hc]
  have hduties : ∀ j, duties N (s₁.write c p m) j =
      duties N s₁ j + if N.reads j = c then {.message c} else 0 := by
    intro j
    unfold duties
    rw [hunread j]
    split
    · rename_i hc
      rw [Multiset.replicate_add, hc, ← add_assoc]
      rfl
    · rw [Nat.add_zero, add_zero]
      rfl
  have hfewer : outstanding N loops s = outstanding N loops s₁ + {.outgoing c} := by
    have hothers : ∀ j ≠ i, duties N s₁ j = duties N s j :=
      fun j hj => duties_congr rfl rfl (Function.update_of_ne hj _ _)
    refine outstanding_eq_add hi hothers ?_
    unfold duties
    rw [hpending, show s₁.pending i = tasks from Function.update_self .., List.map_cons, ← Multiset.cons_coe,
      ← Multiset.singleton_add, add_assoc, add_comm]
    rfl
  refine .single ⟨∑ j ∈ loops, if N.reads j = c then {.message c} else 0, .outgoing c, ?_, ?_⟩
  · intro x hx
    obtain ⟨j, -, hx⟩ := Multiset.mem_sum.mp hx
    split at hx
    · rw [Multiset.mem_singleton.mp hx]
      exact Item.message_smaller_outgoing c
    · cases hx
  · rw [hfewer]
    unfold outstanding
    rw [Finset.sum_congr rfl fun j _ => hduties j, Finset.sum_add_distrib, add_assoc, add_assoc,
      add_comm {Item.outgoing c}]

/-- **Every step of a network left to itself leaves less to do.** -/
theorem step_decreases (hlayered : Layered ops N below) (hloops : ∀ i, N.runs i = true → i ∈ loops)
    (hs : Orderly ops N s) {e : Event ι κ A M} (he : Inner s e) (h : N.step ops s e = some s') :
    TransGen (CutExpand (Item.Smaller below)) (outstanding N loops s') (outstanding N loops s) := by
  have hsender : ∀ {i c m tasks}, s.pending i = .send c m :: tasks → i ∈ loops := by
    intro i c m tasks hpending
    obtain ⟨o, ho, -⟩ := hs.sent i c m (by rw [hpending]; exact List.mem_cons_self)
    exact hloops i (Network.runs_of_mem ho)
  cases e with
  | feed c p m => exact he.elim
  | take i p =>
      obtain ⟨m, -, -, hruns, -⟩ := Network.take_eq_some h
      exact take_decreases hs (hloops i hruns) h
  | lose i p n =>
      obtain ⟨m, -, hruns, -⟩ := Network.lose_eq_some h
      exact lose_decreases hs (hloops i hruns) h
  | work i a =>
      obtain ⟨o, m, tasks, hpending, -⟩ := Network.work_eq_some h
      have ho := hs.bound i o m (by rw [hpending]; exact List.mem_cons_self)
      exact work_decreases hlayered hs (hloops i (Network.runs_of_mem ho)) h
  | send i p =>
      obtain ⟨c, m, tasks, hpending, -⟩ := Network.send_eq_some h
      exact send_decreases hs (hsender hpending) h
  | refuse i =>
      obtain ⟨c, m, tasks, hpending, -⟩ := Network.refuse_eq_some h
      exact refuse_decreases (hsender hpending) h

/-! ## The network comes to rest

A state from which no step is possible has nothing to do, by cases on what a loop could be at; with the descent, every
run that is left alone gets there. -/

/-- A network that is stuck has nothing more to do: a loop with a task can do it or have it refused, and a loop with a
    message can take it or lose it. -/
theorem quiescent_of_stuck [Inhabited A] (hs : Orderly ops N s) (h : (inner (A := A) ops N l).Stuck s) :
    N.Quiescent s := by
  have hnone : ∀ e : Event ι κ A M, Inner s e → N.step ops s e = none := by
    intro e he
    cases hstep : N.step ops s e with
    | none   => rfl
    | some t => exact absurd ⟨hstep, he⟩ (h e t)
  intro i hruns
  -- a pending task could be worked on or given up, so there is none
  have hpending : s.pending i = [] := by
    cases htasks : s.pending i with
    | nil => rfl
    | cons task tasks =>
        exfalso
        cases task with
        | deliver o m =>
            have hwork := hnone (.work i default) trivial
            simp [Network.step, htasks] at hwork
        | send c m =>
            have hrefuse := hnone (.refuse i) trivial
            simp [Network.step, htasks] at hrefuse
  refine ⟨hpending, fun p hp => ?_⟩
  -- and a message to be read could be taken, or lost if it is unreadable
  rcases Nat.lt_or_ge (s.position i p) (s.partition (N.reads i) p).length with hlt | hge
  · exfalso
    have hnext : N.next s i p = some (s.partition (N.reads i) p)[s.position i p] := List.getElem?_eq_getElem hlt
    generalize (s.partition (N.reads i) p)[s.position i p] = m at hnext
    by_cases hread : ops.readable m = true
    · have htake := hnone (.take i p) trivial
      simp [Network.step, hpending, hnext, hruns, hread] at htake
    · -- the message is lost, and nothing else
      have hlose := hnone (.lose i p (fun q => if q = p then 1 else 0)) trivial
      simp only [Network.step, hpending, hnext] at hlose
      rw [if_pos] at hlose
      · cases hlose
      · refine ⟨hruns, Bool.not_eq_true _ ▸ hread, by simp, fun q hq => ?_⟩
        have hle := hs.within i q
        split
        · rename_i hqp
          subst hqp
          exact hlt
        · exact hle
  · exact Nat.le_antisymm (hs.within i p) hge

/-- What no operator writes stays as it is. -/
theorem log_unwritten (hs : Orderly ops N s) {e : Event ι κ A M} (he : Inner s e) (h : N.step ops s e = some s')
    {c : κ} (hc : ∀ o, c ∉ ops.routes o) : s'.log c = s.log c := by
  cases e with
  | feed c' p m => exact he.elim
  | take i p =>
      obtain ⟨m, -, -, -, rfl⟩ := Network.take_eq_some h
      rfl
  | lose i p n =>
      obtain ⟨m, -, -, -, -, -, rfl⟩ := Network.lose_eq_some h
      rfl
  | work i a =>
      obtain ⟨o, m, tasks, -, rfl⟩ := Network.work_eq_some h
      rfl
  | send i p =>
      obtain ⟨c', m, tasks, hpending, -, rfl⟩ := Network.send_eq_some h
      obtain ⟨o, -, hwrites⟩ := hs.sent i c' m (by rw [hpending]; exact List.mem_cons_self)
      have hne : c ≠ c' := by
        rintro rfl
        exact hc o hwrites
      rw [State.log_write, if_neg hne, List.append_nil]
  | refuse i =>
      obtain ⟨c', m, tasks, -, rfl⟩ := Network.refuse_eq_some h
      rfl

/-- **An acyclic network that is left to itself comes to rest**: from a state in good order there is no infinite run,
    and a run that cannot go on has consumed every channel. Meanwhile logs only grow, and channels that no operator
    writes stay as they are. -/
theorem settles [Inhabited A] (hlayered : Layered ops N below) (hwf : WellFounded below)
    (hloops : ∀ i, N.runs i = true → i ∈ loops) (hs : Orderly ops N s) :
    (inner (A := A) ops N l).Terminates s ∧ ∀ events s', (inner (A := A) ops N l).Run s events s' →
      ((inner (A := A) ops N l).Stuck s' → N.Quiescent s') ∧ (∀ c, s.log c <+: s'.log c) ∧
        ∀ c, (∀ o, c ∉ ops.routes o) → s'.log c = s.log c := by
  have hkept : ∀ s e s', Orderly ops N s → (inner (A := A) ops N l).step s e s' →
      Orderly ops N s' ∧ TransGen (CutExpand (Item.Smaller below)) (outstanding N loops s') (outstanding N loops s) :=
    fun _ _ _ hs hstep => ⟨hs.step hstep.1, step_decreases hlayered hloops hs hstep.2 hstep.1⟩
  refine ⟨Lts.terminates_of_measure (Item.smaller_wellFounded hwf).cutExpand.transGen (outstanding N loops) hkept hs,
    fun events s' hrun => ?_⟩
  let I : State ι κ ω σ M → Prop := fun t => Orderly ops N t ∧
    ∀ c, s.log c <+: t.log c ∧ ((∀ o, c ∉ ops.routes o) → t.log c = s.log c)
  have hstep : ∀ t (e : Event ι κ A M) t', I t → (inner ops N l).step t e t' → I t' := by
    rintro t e t' ⟨ht, hlog⟩ ⟨hst, he⟩
    refine ⟨ht.step hst, fun c => ⟨(hlog c).1.trans (log_grows hst c), fun hc => ?_⟩⟩
    exact (log_unwritten ht he hst hc).trans ((hlog c).2 hc)
  obtain ⟨hs', hlog⟩ := hrun.invariant hstep ⟨hs, fun c => ⟨List.prefix_rfl, fun _ => rfl⟩⟩
  exact ⟨quiescent_of_stuck hs', fun c => (hlog c).1, fun c => (hlog c).2⟩

end Dataflow
end Lib
end HybridStream
