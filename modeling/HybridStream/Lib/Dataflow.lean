import HybridStream.Lib.Lts
import Mathlib.Logic.Function.Basic

/-!
# `Lib.Dataflow` — operators that answer messages with messages, over partitioned channels

A channel has partitions, each an append-only log. A loop consumes one channel, message by message: those of a
partition in their order, those of different partitions in whatever order they come. It hands each message to the
operators bound to it, one after the other; what an operator answers is sent, message by message, before the loop goes
on. Any number of loops run interleaved, and an operator may be bound to several of them.

Three things are left to the environment. A message that is sent goes to any partition of its channel. A send may be
refused, which loses the rest of the answer it belongs to. And a message that a loop cannot read makes it lose messages
behind it, in every partition.

The state keeps more than the logs of the partitions: a channel's messages in the order in which they were written over
all partitions, and a loop's messages in the order in which it has handed them on. `Lib.Determinacy` says what the
channels carry, `Lib.Drain` that the loops come to rest.

Nothing here names a particular system.
-/

namespace HybridStream
namespace Lib
namespace Dataflow

universe u₁ u₂ u₃ u₄ u₅ u₆

/-! ## Messages with a label

The entries of a log carry their partition, the answers of an operator their channel. In both cases the messages with
one label form a list of their own. -/

section ValuesAt

variable {β : Type u₁} {M : Type u₅} [DecidableEq β] {k : β} {xs ys : List (β × M)} {m : M}

/-- The messages with the label `k`. -/
def valuesAt (k : β) (xs : List (β × M)) : List M := (xs.filter (fun x => x.1 = k)).map Prod.snd

theorem valuesAt_append : valuesAt k (xs ++ ys) = valuesAt k xs ++ valuesAt k ys := by
  unfold valuesAt
  rw [List.filter_append, List.map_append]

theorem valuesAt_cons (x : β × M) : valuesAt k (x :: xs) = if x.1 = k then x.2 :: valuesAt k xs else valuesAt k xs := by
  unfold valuesAt
  simp only [List.filter_cons, decide_eq_true_eq]
  split <;> rfl

theorem mem_valuesAt : m ∈ valuesAt k xs ↔ (k, m) ∈ xs := by
  unfold valuesAt
  simp only [List.mem_map, List.mem_filter, decide_eq_true_eq]
  constructor
  · rintro ⟨⟨k', m'⟩, ⟨hmem, rfl⟩, rfl⟩
    exact hmem
  · exact fun h => ⟨(k, m), ⟨h, rfl⟩, rfl⟩

/-- Where there is one label only, nothing is left out. -/
theorem valuesAt_of_forall (h : ∀ x ∈ xs, x.1 = k) : valuesAt k xs = xs.map Prod.snd := by
  unfold valuesAt
  rw [List.filter_eq_self.mpr fun x hx => decide_eq_true (h x hx)]

theorem valuesAt_isPrefix (h : xs <+: ys) : valuesAt k xs <+: valuesAt k ys := by
  obtain ⟨rest, rfl⟩ := h
  rw [valuesAt_append]
  exact List.prefix_append _ _

end ValuesAt

/-! ## Operators, networks and their states

The network is given by data (which loop reads which channel, which operators a loop has, how many partitions a
channel has) and run by events. A loop takes the messages of its channel partition by partition, in an order of its
own, and does for one message what there is to do before it takes the next; a send may be refused, and what had still
to be sent of that answer is then gone. -/

/-- Operators with local states `σ`: what they answer a message with, `A` being what else the answer depends on. Some
    messages cannot be read. -/
structure Operators (κ : Type u₁) (ω : Type u₂) (σ : ω → Type u₃) (A : Type u₄) (M : Type u₅) where
  routes   : ω → List κ
  handle   : (o : ω) → A → M → σ o → List (κ × M) × σ o
  readable : M → Bool
  /-- An answer goes to the operator's own channels. -/
  routed   : ∀ {o a m s x}, x ∈ (handle o a m s).1 → x.1 ∈ routes o

/-- The loops, the channel each of them consumes and the operators bound to it; the number of partitions of a channel,
    and whether it is written from outside. -/
structure Network (ι : Type u₆) (κ : Type u₁) (ω : Type u₂) where
  reads      : ι → κ
  bound      : ι → List ω
  external   : κ → Bool
  partitions : κ → Nat

/-- What a loop has still to do for the message it has consumed last. -/
inductive Task (κ : Type u₁) (ω : Type u₂) (M : Type u₅) where
  | deliver (o : ω) (m : M)
  | send (c : κ) (m : M)

/-- A message that goes out, and not one that goes to an operator. -/
def Task.isSend {κ : Type u₁} {ω : Type u₂} {M : Type u₅} : Task κ ω M → Bool
  | .deliver _ _ => false
  | .send _ _    => true

/-- The channels, how far each loop is in each partition, what it has handed on and has still to do, and the
    operators. -/
structure State (ι : Type u₆) (κ : Type u₁) (ω : Type u₂) (σ : ω → Type u₃) (M : Type u₅) where
  log      : κ → List (Nat × M)
  position : ι → Nat → Nat
  taken    : ι → List (Nat × M)
  pending  : ι → List (Task κ ω M)
  locals   : (o : ω) → σ o

/-- What happens: a message from outside, or a step of a loop. -/
inductive Event (ι : Type u₆) (κ : Type u₁) (A : Type u₄) (M : Type u₅) where
  | feed (c : κ) (p : Nat) (m : M)
  | take (i : ι) (p : Nat)
  | lose (i : ι) (p : Nat) (n : Nat → Nat)
  | work (i : ι) (a : A)
  | send (i : ι) (p : Nat)
  | refuse (i : ι)

variable {ι : Type u₆} {κ : Type u₁} {ω : Type u₂} {σ : ω → Type u₃} {A : Type u₄} {M : Type u₅}
  [DecidableEq κ] [DecidableEq ω]
  {ops : Operators κ ω σ A M} {N : Network ι κ ω} {s s' : State ι κ ω σ M}

namespace State

/-- The log of one partition, in the order in which its messages were written. -/
def partition (s : State ι κ ω σ M) (c : κ) (p : Nat) : List M := valuesAt p (s.log c)

/-- What has been written on a channel, in order. -/
def written (s : State ι κ ω σ M) (c : κ) : List M := (s.log c).map Prod.snd

/-- What a loop has handed to its operators, in order. -/
def handled (s : State ι κ ω σ M) (i : ι) : List M := (s.taken i).map Prod.snd

/-- A message is written, at the end of the channel's log. -/
def write (s : State ι κ ω σ M) (c : κ) (p : Nat) (m : M) : State ι κ ω σ M :=
  { s with log := Function.update s.log c (s.log c ++ [(p, m)]) }

section Write

variable {c c' : κ} {p q : Nat} {m m' : M}

omit [DecidableEq ω]

@[simp] theorem write_position : (s.write c p m).position = s.position := rfl
@[simp] theorem write_taken : (s.write c p m).taken = s.taken := rfl
@[simp] theorem write_handled (i : ι) : (s.write c p m).handled i = s.handled i := rfl
@[simp] theorem write_pending : (s.write c p m).pending = s.pending := rfl
@[simp] theorem write_locals : (s.write c p m).locals = s.locals := rfl

theorem log_write : (s.write c p m).log c' = s.log c' ++ if c' = c then [(p, m)] else [] := by
  show Function.update s.log c (s.log c ++ [(p, m)]) c' = _
  by_cases heq : c' = c
  · subst heq
    rw [Function.update_self, if_pos rfl]
  · rw [Function.update_of_ne heq, if_neg heq, List.append_nil]

theorem written_write : (s.write c p m).written c' = s.written c' ++ if c' = c then [m] else [] := by
  unfold written
  rw [log_write, List.map_append]
  split <;> rfl

theorem partition_write :
    (s.write c p m).partition c' q = s.partition c' q ++ if c' = c ∧ p = q then [m] else [] := by
  unfold partition
  rw [log_write, valuesAt_append]
  by_cases heq : c' = c
  · rw [if_pos heq, valuesAt_cons]
    simp only [heq, true_and]
    rfl
  · rw [if_neg heq, if_neg fun h => heq h.1]
    rfl

theorem mem_written_write (h : m' ∈ (s.write c p m).written c') : m' ∈ s.written c' ∨ (c' = c ∧ m' = m) := by
  rw [written_write, List.mem_append] at h
  rcases h with h | h
  · exact Or.inl h
  · split at h
    · rename_i heq
      exact Or.inr ⟨heq, List.mem_singleton.mp h⟩
    · cases h

end Write

omit [DecidableEq κ] [DecidableEq ω] in
theorem mem_written_of_partition {c : κ} {p : Nat} {m : M} (h : m ∈ s.partition c p) : m ∈ s.written c :=
  List.mem_map.mpr ⟨(p, m), mem_valuesAt.mp h, rfl⟩

end State

namespace Network

/-- There is a loop where an operator is bound. -/
def runs (N : Network ι κ ω) (i : ι) : Bool := !(N.bound i).isEmpty

omit [DecidableEq κ] [DecidableEq ω] in
theorem runs_of_mem {i : ι} {o : ω} (h : o ∈ N.bound i) : N.runs i = true := by
  unfold runs
  cases hbound : N.bound i with
  | nil       => rw [hbound] at h; cases h
  | cons _ _  => rfl

/-- A message goes to every operator bound to the loop. -/
def deliveries (N : Network ι κ ω) (i : ι) (m : M) : List (Task κ ω M) := (N.bound i).map (Task.deliver · m)

/-- The message of partition `p` that a loop has not had yet. -/
def next (N : Network ι κ ω) (s : State ι κ ω σ M) (i : ι) (p : Nat) : Option M :=
  (s.partition (N.reads i) p)[s.position i p]?

section Steps

variable [DecidableEq ι]

/-- One step, where it is possible. -/
def step (ops : Operators κ ω σ A M) (N : Network ι κ ω) (s : State ι κ ω σ M) :
    Event ι κ A M → Option (State ι κ ω σ M)
  | .feed c p m =>
      if N.external c ∧ p < N.partitions c then some (s.write c p m) else none
  | .take i p =>
      match s.pending i, N.next s i p with
      | [], some m =>
          if N.runs i ∧ ops.readable m then
            some { s with
              position := Function.update s.position i (Function.update (s.position i) p (s.position i p + 1))
              taken    := Function.update s.taken i (s.taken i ++ [(p, m)])
              pending  := Function.update s.pending i (N.deliveries i m) }
          else none
      | _, _ => none
  | .lose i p n =>
      match s.pending i, N.next s i p with
      | [], some m =>
          if N.runs i ∧ ops.readable m = false ∧ 0 < n p ∧
              ∀ q < N.partitions (N.reads i), s.position i q + n q ≤ (s.partition (N.reads i) q).length then
            some { s with
              position := Function.update s.position i
                (fun q => if q < N.partitions (N.reads i) then s.position i q + n q else s.position i q) }
          else none
      | _, _ => none
  | .work i a =>
      match s.pending i with
      | .deliver o m :: tasks =>
          let answer := ops.handle o a m (s.locals o)
          some { s with
            pending := Function.update s.pending i (answer.1.map (fun x => .send x.1 x.2) ++ tasks)
            locals  := Function.update s.locals o answer.2 }
      | _ => none
  | .send i p =>
      match s.pending i with
      | .send c m :: tasks =>
          if p < N.partitions c then
            some ({ s with pending := Function.update s.pending i tasks }.write c p m)
          else none
      | _ => none
  | .refuse i =>
      match s.pending i with
      | .send _ _ :: tasks =>
          -- the rest of the answer is not sent either; the next operator gets the message
          some { s with pending := Function.update s.pending i (tasks.dropWhile Task.isSend) }
      | _ => none

/-- Nothing has been written, consumed or processed. -/
def initial (locals : (o : ω) → σ o) : State ι κ ω σ M :=
  ⟨fun _ => [], fun _ _ => 0, fun _ => [], fun _ => [], locals⟩

/-- The network as a transition system. -/
def system (ops : Operators κ ω σ A M) (N : Network ι κ ω) (locals : (o : ω) → σ o) :
    Lts (State ι κ ω σ M) (Event ι κ A M) :=
  Lts.ofStep (fun s => s = initial locals) (step ops N)

/-! ### What one step does

One lemma for each kind of step, with all that the step asks for; the invariants below are derived from these. -/

theorem feed_eq_some {c : κ} {p : Nat} {m : M} (h : step ops N s (.feed c p m) = some s') :
    N.external c = true ∧ p < N.partitions c ∧ s' = s.write c p m := by
  obtain ⟨⟨hext, hp⟩, hs'⟩ := Option.ite_none_right_eq_some.mp h
  exact ⟨hext, hp, (Option.some.inj hs').symm⟩

theorem feed_of_external (s : State ι κ ω σ M) {c : κ} {p : Nat} (h : N.external c = true) (hp : p < N.partitions c)
    (m : M) : step ops N s (.feed c p m) = some (s.write c p m) :=
  if_pos ⟨h, hp⟩

theorem take_eq_some {i : ι} {p : Nat} (h : step ops N s (.take i p) = some s') :
    ∃ m, s.pending i = [] ∧ N.next s i p = some m ∧ N.runs i = true ∧ s' = { s with
      position := Function.update s.position i (Function.update (s.position i) p (s.position i p + 1))
      taken    := Function.update s.taken i (s.taken i ++ [(p, m)])
      pending  := Function.update s.pending i (N.deliveries i m) } := by
  simp only [step] at h
  split at h
  · rename_i m hpending hnext
    obtain ⟨⟨hruns, -⟩, hs'⟩ := Option.ite_none_right_eq_some.mp h
    exact ⟨m, hpending, hnext, hruns, (Option.some.inj hs').symm⟩
  · cases h

theorem lose_eq_some {i : ι} {p : Nat} {n : Nat → Nat} (h : step ops N s (.lose i p n) = some s') :
    ∃ m, N.next s i p = some m ∧ N.runs i = true ∧ ops.readable m = false ∧ 0 < n p ∧
      (∀ q < N.partitions (N.reads i), s.position i q + n q ≤ (s.partition (N.reads i) q).length) ∧
      s' = { s with
        position := Function.update s.position i
          (fun q => if q < N.partitions (N.reads i) then s.position i q + n q else s.position i q) } := by
  simp only [step] at h
  split at h
  · rename_i m hpending hnext
    obtain ⟨⟨hruns, hread, hpos, hle⟩, hs'⟩ := Option.ite_none_right_eq_some.mp h
    exact ⟨m, hnext, hruns, hread, hpos, hle, (Option.some.inj hs').symm⟩
  · cases h

theorem work_eq_some {i : ι} {a : A} (h : step ops N s (.work i a) = some s') :
    ∃ o m tasks, s.pending i = .deliver o m :: tasks ∧ s' = { s with
      pending := Function.update s.pending i
        ((ops.handle o a m (s.locals o)).1.map (fun x => .send x.1 x.2) ++ tasks)
      locals  := Function.update s.locals o (ops.handle o a m (s.locals o)).2 } := by
  simp only [step] at h
  split at h
  · rename_i o m tasks hpending
    exact ⟨o, m, tasks, hpending, (Option.some.inj h).symm⟩
  · cases h

theorem send_eq_some {i : ι} {p : Nat} (h : step ops N s (.send i p) = some s') :
    ∃ c m tasks, s.pending i = .send c m :: tasks ∧ p < N.partitions c ∧
      s' = { s with pending := Function.update s.pending i tasks }.write c p m := by
  simp only [step] at h
  split at h
  · rename_i c m tasks hpending
    obtain ⟨hp, hs'⟩ := Option.ite_none_right_eq_some.mp h
    exact ⟨c, m, tasks, hpending, hp, (Option.some.inj hs').symm⟩
  · cases h

theorem refuse_eq_some {i : ι} (h : step ops N s (.refuse i) = some s') :
    ∃ c m tasks, s.pending i = .send c m :: tasks ∧
      s' = { s with pending := Function.update s.pending i (tasks.dropWhile Task.isSend) } := by
  simp only [step] at h
  split at h
  · rename_i c m tasks hpending
    exact ⟨c, m, tasks, hpending, (Option.some.inj h).symm⟩
  · cases h

end Steps

/-- Every loop has consumed its channel, all partitions of it, and done what there was to do. -/
def Quiescent (N : Network ι κ ω) (s : State ι κ ω σ M) : Prop :=
  ∀ i, N.runs i = true → s.pending i = [] ∧
    ∀ p < N.partitions (N.reads i), s.position i p = (s.partition (N.reads i) p).length

end Network

/-! ## What every run keeps

The messages are in partitions that there are, no loop is ahead of its channel, and what a loop has still to do is for
and by the operators bound to it. -/

/-- The state of a network in good order. -/
structure Orderly (ops : Operators κ ω σ A M) (N : Network ι κ ω) (s : State ι κ ω σ M) : Prop where
  parted : ∀ c p m, (p, m) ∈ s.log c → p < N.partitions c
  within : ∀ i p, s.position i p ≤ (s.partition (N.reads i) p).length
  bound  : ∀ i o m, .deliver o m ∈ s.pending i → o ∈ N.bound i
  sent   : ∀ i c m, .send c m ∈ s.pending i → ∃ o ∈ N.bound i, c ∈ ops.routes o

omit [DecidableEq κ] [DecidableEq ω] in
theorem orderly_initial (l : (o : ω) → σ o) : Orderly ops N (Network.initial l) where
  parted _ _ _ h := absurd h List.not_mem_nil
  within _ _     := Nat.le_refl 0
  bound _ _ _ h  := absurd h List.not_mem_nil
  sent _ _ _ h   := absurd h List.not_mem_nil

section Steps

variable [DecidableEq ι]

/-- Logs only grow: what has been written stays where it is. -/
theorem log_grows {e : Event ι κ A M} (h : N.step ops s e = some s') (c : κ) : s.log c <+: s'.log c := by
  cases e with
  | feed c' p m =>
      obtain ⟨-, -, rfl⟩ := Network.feed_eq_some h
      rw [State.log_write]
      exact List.prefix_append _ _
  | take i p =>
      obtain ⟨m, -, -, -, rfl⟩ := Network.take_eq_some h
      exact List.prefix_rfl
  | lose i p n =>
      obtain ⟨m, -, -, -, -, -, rfl⟩ := Network.lose_eq_some h
      exact List.prefix_rfl
  | work i a =>
      obtain ⟨o, m, tasks, -, rfl⟩ := Network.work_eq_some h
      exact List.prefix_rfl
  | send i p =>
      obtain ⟨c', m, tasks, -, -, rfl⟩ := Network.send_eq_some h
      rw [State.log_write]
      exact List.prefix_append _ _
  | refuse i =>
      obtain ⟨c', m, tasks, -, rfl⟩ := Network.refuse_eq_some h
      exact List.prefix_rfl

/-- A loop gets no further than what was there before the step. -/
theorem position_within (hs : Orderly ops N s) {e : Event ι κ A M} (h : N.step ops s e = some s') (i : ι) (p : Nat) :
    s'.position i p ≤ (s.partition (N.reads i) p).length := by
  cases e with
  | feed c q m =>
      obtain ⟨-, -, rfl⟩ := Network.feed_eq_some h
      exact hs.within i p
  | take j q =>
      obtain ⟨m, -, hnext, -, rfl⟩ := Network.take_eq_some h
      have hlt := (List.getElem?_eq_some_iff.mp hnext).1
      dsimp only
      -- only the reader's position in this one partition moves, and there was a message at it
      by_cases hi : i = j
      · subst hi
        rw [Function.update_self]
        by_cases hp : p = q
        · subst hp
          rw [Function.update_self]
          exact hlt
        · rw [Function.update_of_ne hp]
          exact hs.within i p
      · rw [Function.update_of_ne hi]
        exact hs.within i p
  | lose j q n =>
      obtain ⟨m, -, -, -, -, hle, rfl⟩ := Network.lose_eq_some h
      dsimp only
      -- what is lost is skipped up to an end within the partitions
      by_cases hi : i = j
      · subst hi
        rw [Function.update_self]
        by_cases hp : p < N.partitions (N.reads i)
        · rw [if_pos hp]
          exact hle p hp
        · rw [if_neg hp]
          exact hs.within i p
      · rw [Function.update_of_ne hi]
        exact hs.within i p
  | work j a =>
      obtain ⟨o, m, tasks, -, rfl⟩ := Network.work_eq_some h
      exact hs.within i p
  | send j q =>
      obtain ⟨c, m, tasks, -, -, rfl⟩ := Network.send_eq_some h
      exact hs.within i p
  | refuse j =>
      obtain ⟨c, m, tasks, -, rfl⟩ := Network.refuse_eq_some h
      exact hs.within i p

/-- A task after a step was there before, or is what a loop has been given: the deliveries of a message, or the answer
    of an operator bound to it. -/
theorem mem_pending_of_step {e : Event ι κ A M} (h : N.step ops s e = some s') {j : ι} {task : Task κ ω M}
    (htask : task ∈ s'.pending j) :
    task ∈ s.pending j ∨
      (∃ p m, e = .take j p ∧ N.next s j p = some m ∧ task ∈ N.deliveries j m) ∨
      ∃ a o m tasks, e = .work j a ∧ s.pending j = .deliver o m :: tasks ∧
        ∃ x ∈ (ops.handle o a m (s.locals o)).1, task = .send x.1 x.2 := by
  -- a step updates the pending tasks of one loop: of any other they are as they were
  have hupdate : ∀ {i tasks}, task ∈ Function.update s.pending i tasks j →
      task ∈ s.pending j ∨ (j = i ∧ task ∈ tasks) := by
    intro i tasks h
    by_cases hj : j = i
    · subst hj
      rw [Function.update_self] at h
      exact Or.inr ⟨rfl, h⟩
    · rw [Function.update_of_ne hj] at h
      exact Or.inl h
  cases e with
  | feed c p m =>
      obtain ⟨-, -, rfl⟩ := Network.feed_eq_some h
      exact Or.inl htask
  | take i p =>
      obtain ⟨m, -, hnext, -, rfl⟩ := Network.take_eq_some h
      rcases hupdate htask with hold | ⟨rfl, hnew⟩
      · exact Or.inl hold
      · exact Or.inr (Or.inl ⟨p, m, rfl, hnext, hnew⟩)
  | lose i p n =>
      obtain ⟨m, -, -, -, -, -, rfl⟩ := Network.lose_eq_some h
      exact Or.inl htask
  | work i a =>
      obtain ⟨o, m, tasks, hpending, rfl⟩ := Network.work_eq_some h
      rcases hupdate htask with hold | ⟨rfl, hnew⟩
      · exact Or.inl hold
      -- what a delivery is answered with comes in front of the rest
      · rcases List.mem_append.mp hnew with hsend | hrest
        · obtain ⟨x, hx, rfl⟩ := List.mem_map.mp hsend
          exact Or.inr (Or.inr ⟨a, o, m, tasks, rfl, hpending, x, hx, rfl⟩)
        · rw [hpending]
          exact Or.inl (List.mem_cons_of_mem _ hrest)
  | send i p =>
      obtain ⟨c, m, tasks, hpending, -, rfl⟩ := Network.send_eq_some h
      rcases hupdate htask with hold | ⟨rfl, hrest⟩
      · exact Or.inl hold
      · rw [hpending]
        exact Or.inl (List.mem_cons_of_mem _ hrest)
  | refuse i =>
      obtain ⟨c, m, tasks, hpending, rfl⟩ := Network.refuse_eq_some h
      rcases hupdate htask with hold | ⟨rfl, hrest⟩
      · exact Or.inl hold
      · rw [hpending]
        exact Or.inl (List.mem_cons_of_mem _ ((List.dropWhile_sublist _).mem hrest))

/-- **What one step preserves.** Each field is by cases on the events, most of which leave its part of the state
    alone. -/
theorem Orderly.step (hs : Orderly ops N s) {e : Event ι κ A M} (h : N.step ops s e = some s') : Orderly ops N s' where
  parted c p m hmem := by
    -- a message is written to a partition that there is, by a feed or by a send
    have hwrite : ∀ {t : State ι κ ω σ M} {c' q m'}, t.log = s.log → q < N.partitions c' →
        (p, m) ∈ (t.write c' q m').log c → p < N.partitions c := by
      intro t c' q m' hlog hq hmem
      rw [State.log_write, hlog, List.mem_append] at hmem
      rcases hmem with hmem | hmem
      · exact hs.parted c p m hmem
      · split at hmem
        · rename_i heq
          cases List.mem_singleton.mp hmem
          exact heq ▸ hq
        · cases hmem
    cases e with
    | feed c' q m' =>
        obtain ⟨-, hq, rfl⟩ := Network.feed_eq_some h
        exact hwrite rfl hq hmem
    | take i q =>
        obtain ⟨m', -, -, -, rfl⟩ := Network.take_eq_some h
        exact hs.parted c p m hmem
    | lose i q n =>
        obtain ⟨m', -, -, -, -, -, rfl⟩ := Network.lose_eq_some h
        exact hs.parted c p m hmem
    | work i a =>
        obtain ⟨o, m', tasks, -, rfl⟩ := Network.work_eq_some h
        exact hs.parted c p m hmem
    | send i q =>
        obtain ⟨c', m', tasks, -, hq, rfl⟩ := Network.send_eq_some h
        exact hwrite rfl hq hmem
    | refuse i =>
        obtain ⟨c', m', tasks, -, rfl⟩ := Network.refuse_eq_some h
        exact hs.parted c p m hmem
  within i p :=
    Nat.le_trans (position_within hs h i p) (valuesAt_isPrefix (log_grows h (N.reads i))).length_le
  bound i o m ho := by
    rcases mem_pending_of_step h ho with ho | ⟨p, m', -, -, ho⟩ | ⟨a, o', m', tasks, -, -, x, -, heq⟩
    · exact hs.bound i o m ho
    · obtain ⟨o', ho', heq⟩ := List.mem_map.mp ho
      cases heq
      exact ho'
    · cases heq
  sent i c m hc := by
    rcases mem_pending_of_step h hc with hc | ⟨p, m', -, -, hc⟩ | ⟨a, o, m', tasks, -, hpending, x, hx, heq⟩
    · exact hs.sent i c m hc
    · obtain ⟨o', -, heq⟩ := List.mem_map.mp hc
      cases heq
    · cases heq
      exact ⟨o, hs.bound i o m' (by rw [hpending]; exact List.mem_cons_self), ops.routed hx⟩

theorem orderly_of_reachable {l : (o : ω) → σ o} (h : (N.system ops l).Reachable s) : Orderly ops N s := by
  apply h.invariant
  · rintro _ rfl
    exact orderly_initial l
  · exact fun _ _ _ hs hstep => hs.step hstep

end Steps

end Dataflow
end Lib
end HybridStream
