import HybridStream.Lib.Dataflow
import Mathlib.Data.List.TakeWhile
import Mathlib.Data.Set.Basic

/-!
# `Lib.Determinacy` — what the channels of a network carry

`stream` is what the operators of one loop make of a list of messages on one channel, run on their own and without
interruption. Where the writers of a channel are bound to one loop only and do not depend on anything but the
messages (`Determinate`), and no answer on it is refused, the channel carries a part of what they make of the messages
in the order in which their loop has taken them, and all of it once the loop has nothing more to do
(`written_of_quiescent`). That order keeps the order of each partition, and which of these orders it is depends on the
schedule.

Where the channels that are read have one partition (`Unsplit`) there is only one such order. The contents are then
the least solution of the equations between the channels: every schedule stays below every solution (`written_prefix`),
once the loops have caught up the contents are one (`solves_of_quiescent`), and so two networks with the same equations
carry the same (`quiescent_unique`).

Nothing here names a particular system.
-/

namespace HybridStream
namespace Lib
namespace Dataflow

universe u₁ u₂ u₃ u₄ u₅ u₆

variable {ι : Type u₆} {κ : Type u₁} {ω : Type u₂} {σ : ω → Type u₃} {A : Type u₄} {M : Type u₅}
  [DecidableEq κ] [DecidableEq ω]
  {ops : Operators κ ω σ A M} {N : Network ι κ ω} {s s' : State ι κ ω σ M}

/-! ## What the writers of a channel make of their messages

The sends of one loop on one channel, computed from the messages alone: nothing of the schedule is left in it but the
order in which the loop took them. Tasks that do not write the channel can be added and left out, which is why two
loops with the same writers agree. -/

/-- What the tasks send on channel `c` if its writers do them on their own, and the local states afterwards. -/
def flush (ops : Operators κ ω σ A M) (c : κ) (a : A) :
    List (Task κ ω M) → ((o : ω) → σ o) → List M × ((o : ω) → σ o)
  | [], l                    => ([], l)
  | .send c' m :: tasks, l   =>
      let rest := flush ops c a tasks l
      (if c' = c then m :: rest.1 else rest.1, rest.2)
  | .deliver o m :: tasks, l =>
      if c ∈ ops.routes o then
        let answer := ops.handle o a m (l o)
        let rest := flush ops c a tasks (Function.update l o answer.2)
        (valuesAt c answer.1 ++ rest.1, rest.2)
      else flush ops c a tasks l

/-- What a loop's operators make of a list of messages on channel `c`. -/
def stream (ops : Operators κ ω σ A M) (N : Network ι κ ω) (a : A) (l : (o : ω) → σ o) (i : ι) (c : κ) (ms : List M) :
    List M :=
  (flush ops c a (ms.flatMap (N.deliveries i)) l).1

section Flush

variable {c : κ} {a : A} {l l' : (o : ω) → σ o}

theorem flush_append (xs ys : List (Task κ ω M)) (l : (o : ω) → σ o) :
    flush ops c a (xs ++ ys) l =
      ((flush ops c a xs l).1 ++ (flush ops c a ys (flush ops c a xs l).2).1,
        (flush ops c a ys (flush ops c a xs l).2).2) := by
  induction xs generalizing l with
  | nil => rfl
  | cons task xs ih =>
      cases task with
      | send c' m =>
          simp only [List.cons_append, flush, ih]
          split <;> simp
      | deliver o m =>
          simp only [List.cons_append, flush]
          split
          · simp only [ih, List.append_assoc]
          · exact ih l

/-- The sends among the tasks. -/
theorem flush_sends (sends : List (κ × M)) (tasks : List (Task κ ω M)) (l : (o : ω) → σ o) :
    flush ops c a (sends.map (fun x => .send x.1 x.2) ++ tasks) l =
      (valuesAt c sends ++ (flush ops c a tasks l).1, (flush ops c a tasks l).2) := by
  induction sends with
  | nil => rfl
  | cons x sends ih =>
      simp only [List.map_cons, List.cons_append, flush, ih, valuesAt_cons]
      split <;> rfl

/-- Only the local states of the writers matter. -/
theorem flush_congr (h : ∀ o, c ∈ ops.routes o → l o = l' o) (tasks : List (Task κ ω M)) :
    (flush ops c a tasks l).1 = (flush ops c a tasks l').1 ∧
      ∀ o, c ∈ ops.routes o → (flush ops c a tasks l).2 o = (flush ops c a tasks l').2 o := by
  induction tasks generalizing l l' with
  | nil => exact ⟨rfl, h⟩
  | cons task tasks ih =>
      cases task with
      | send c' m =>
          obtain ⟨hsent, hlocals⟩ := ih h
          refine ⟨?_, hlocals⟩
          simp only [flush, hsent]
      | deliver o m =>
          simp only [flush]
          split
          · rename_i hwriter
            rw [← h o hwriter]
            have hnext : ∀ o', c ∈ ops.routes o' → Function.update l o (ops.handle o a m (l o)).2 o' =
                Function.update l' o (ops.handle o a m (l o)).2 o' := by
              intro o' ho'
              by_cases heq : o' = o
              · subst heq
                simp
              · simp [heq, h o' ho']
            obtain ⟨hsent, hlocals⟩ := ih hnext
            exact ⟨by rw [hsent], hlocals⟩
          · exact ih h

/-- The operators that do not write the channel can be left out. -/
theorem flush_filter (os : List ω) (m : M) (l : (o : ω) → σ o) :
    flush ops c a (os.map (Task.deliver · m)) l =
      flush ops c a ((os.filter (fun o => c ∈ ops.routes o)).map (Task.deliver · m)) l := by
  induction os generalizing l with
  | nil => rfl
  | cons o os ih =>
      by_cases ho : c ∈ ops.routes o
      · simp only [List.map_cons, flush, List.filter_cons, decide_eq_true_eq, if_pos ho, ih]
      · simp only [List.map_cons, flush, List.filter_cons, decide_eq_true_eq, if_neg ho, ih]

/-- More messages make for more. -/
theorem stream_mono {i : ι} {ms ms' : List M} (h : ms <+: ms') :
    stream ops N a l i c ms <+: stream ops N a l i c ms' := by
  obtain ⟨rest, rfl⟩ := h
  unfold stream
  rw [List.flatMap_append, flush_append]
  exact List.prefix_append _ _

/-- A loop without operators makes nothing of its messages. -/
theorem stream_of_unbound {i : ι} (h : N.bound i = []) (ms : List M) : stream ops N a l i c ms = [] := by
  have hnone : ms.flatMap (N.deliveries i) = [] := by
    simp [Network.deliveries, h]
  unfold stream
  rw [hnone]
  rfl

/-- Two loops with the same writers of a channel make the same of the same messages. -/
theorem stream_congr {ι' : Type*} {N' : Network ι' κ ω} {i : ι} {i' : ι'}
    (hbound : (N.bound i).filter (fun o => c ∈ ops.routes o) = (N'.bound i').filter (fun o => c ∈ ops.routes o))
    (hlocals : ∀ o, c ∈ ops.routes o → l o = l' o) (ms : List M) :
    stream ops N a l i c ms = stream ops N' a l' i' c ms := by
  have hsame : ∀ (l : (o : ω) → σ o), flush ops c a (ms.flatMap (N.deliveries i)) l =
      flush ops c a (ms.flatMap (N'.deliveries i')) l := by
    induction ms with
    | nil => exact fun _ => rfl
    | cons m ms ih =>
        intro l
        simp only [List.flatMap_cons, flush_append, ih]
        simp only [Network.deliveries, flush_filter (N.bound i), flush_filter (N'.bound i'), hbound]
  unfold stream
  rw [hsame]
  exact (flush_congr hlocals _).1

/-- Sends on other channels make no difference. -/
theorem flush_elsewhere {xs : List (Task κ ω M)} (h : ∀ task ∈ xs, ∃ c' m, task = .send c' m ∧ c' ≠ c)
    (ys : List (Task κ ω M)) (l : (o : ω) → σ o) : flush ops c a (xs ++ ys) l = flush ops c a ys l := by
  induction xs with
  | nil => rfl
  | cons task xs ih =>
      obtain ⟨c', m, rfl, hne⟩ := h task List.mem_cons_self
      simp only [List.cons_append, flush, if_neg hne]
      exact ih fun task htask => h task (List.mem_cons_of_mem _ htask)

end Flush

/-! ## The channels whose contents depend on the messages only

What has to be asked of a set of channels for that to be all that counts, and the invariant that follows: what stands
on such a channel, and what is still to come of the messages taken, is together the stream of the messages taken. One
lemma for each kind of step. -/

/-- What is asked of the messages of a channel, and of the local states. -/
structure Contract (κ : Type u₁) (ω : Type u₂) (σ : ω → Type u₃) (M : Type u₅) where
  clean : κ → M → Prop
  inv   : (o : ω) → σ o → Prop

/-- The channels `D` are determined: those of them that operators write have their writers bound to one loop, which
    consumes a channel of `D`, and on clean messages the writers answer the same whatever else there is, cleanly. -/
structure Determinate (ops : Operators κ ω σ A M) (N : Network ι κ ω) (C : Contract κ ω σ M) (a : A) (D : Set κ)
    (source : κ → Option ι) : Prop where
  fed      : ∀ c ∈ D, source c = none → ∀ i, ∀ o ∈ N.bound i, c ∉ ops.routes o
  written  : ∀ c ∈ D, ∀ i, source c = some i → N.external c = false ∧ N.reads i ∈ D
  own      : ∀ c ∈ D, ∀ i, source c = some i → ∀ j, ∀ o ∈ N.bound j, c ∈ ops.routes o → j = i
  answers  : ∀ c ∈ D, ∀ i, source c = some i → ∀ o ∈ N.bound i, c ∈ ops.routes o → ∀ a' m s,
    C.clean (N.reads i) m → C.inv o s → ops.handle o a' m s = ops.handle o a m s ∧
      C.inv o (ops.handle o a m s).2 ∧ ∀ x ∈ (ops.handle o a m s).1, x.1 = c → C.clean c x.2
  readable : ∀ c ∈ D, ∀ m, C.clean c m → ops.readable m = true

/-- What the environment is asked: from outside only clean messages come, and where a send is refused, neither it nor
    what is lost with it is for a channel of `D`. -/
def Faithful (C : Contract κ ω σ M) (D : Set κ) (s : State ι κ ω σ M) : Event ι κ A M → Prop
  | .feed c _ m => c ∈ D → C.clean c m
  | .refuse i   => ∀ c m, .send c m ∈ (s.pending i).takeWhile Task.isSend → c ∉ D
  | _           => True

section Determinate

variable {C : Contract κ ω σ M} {a : A} {D : Set κ} {source : κ → Option ι} {l : (o : ω) → σ o}

/-- What has been written on a channel, and what is still to come of the messages taken, is the stream of them. -/
def Balanced (ops : Operators κ ω σ A M) (N : Network ι κ ω) (a : A) (l : (o : ω) → σ o) (s : State ι κ ω σ M)
    (i : ι) (c : κ) : Prop :=
  (flush ops c a ((s.handled i).flatMap (N.deliveries i)) l).1 =
      s.written c ++ (flush ops c a (s.pending i) s.locals).1 ∧
    ∀ o, c ∈ ops.routes o → (flush ops c a ((s.handled i).flatMap (N.deliveries i)) l).2 o =
      (flush ops c a (s.pending i) s.locals).2 o

/-- The state of a network whose channels `D` are determined. -/
structure Accounted (ops : Operators κ ω σ A M) (N : Network ι κ ω) (C : Contract κ ω σ M) (a : A) (D : Set κ)
    (source : κ → Option ι) (l : (o : ω) → σ o) (s : State ι κ ω σ M) : Prop extends Orderly ops N s where
  clean    : ∀ c ∈ D, ∀ m ∈ s.written c, C.clean c m
  queued   : ∀ i o m, N.reads i ∈ D → .deliver o m ∈ s.pending i → C.clean (N.reads i) m
  answered : ∀ i c m, c ∈ D → .send c m ∈ s.pending i → C.clean c m
  inv      : ∀ c ∈ D, ∀ i, source c = some i → ∀ o ∈ N.bound i, c ∈ ops.routes o → C.inv o (s.locals o)
  inOrder  : ∀ i, N.reads i ∈ D → ∀ p,
    valuesAt p (s.taken i) = (s.partition (N.reads i) p).take (s.position i p)
  balanced : ∀ c ∈ D, ∀ i, source c = some i → Balanced ops N a l s i c

theorem accounted_initial (hinv : ∀ o, C.inv o (l o)) :
    Accounted ops N C a D source l (Network.initial l) where
  toOrderly          := orderly_initial l
  clean _ _ _ h      := absurd h List.not_mem_nil
  queued _ _ _ _ h   := absurd h List.not_mem_nil
  answered _ _ _ _ h := absurd h List.not_mem_nil
  inv _ _ _ _ o _ _  := hinv o
  inOrder _ _ _      := rfl
  balanced _ _ _ _   := ⟨rfl, fun _ _ => rfl⟩

namespace Accounted

/-- What has been consumed of a partition is not touched by what is written. -/
theorem take_write (h : Accounted ops N C a D source l s) (c : κ) (p : Nat) (m : M) (i : ι) (q : Nat) :
    ((s.write c p m).partition (N.reads i) q).take (s.position i q) =
      (s.partition (N.reads i) q).take (s.position i q) := by
  rw [State.partition_write, List.take_append_of_le_length (h.within i q)]

variable [DecidableEq ι]

/-- A message from outside. -/
theorem feed (hdet : Determinate ops N C a D source) (h : Accounted ops N C a D source l s) {c : κ} {p : Nat} {m : M}
    (hclean : c ∈ D → C.clean c m) (hstep : N.step ops s (.feed c p m) = some s') :
    Accounted ops N C a D source l s' := by
  have horderly := h.toOrderly.step hstep
  obtain ⟨hext, -, rfl⟩ := Network.feed_eq_some hstep
  refine { h with
    toOrderly := horderly
    clean     := fun c' hc' m' hm' => ?_
    inOrder   := fun i hi q => (h.inOrder i hi q).trans (h.take_write c p m i q).symm
    balanced  := fun c' hc' i hi => ?_ }
  · rcases State.mem_written_write hm' with hm' | ⟨rfl, rfl⟩
    · exact h.clean c' hc' m' hm'
    · exact hclean hc'
  · -- the channel has no writers
    have hne : c' ≠ c := by
      rintro rfl
      rw [(hdet.written c' hc' i hi).1] at hext
      cases hext
    unfold Balanced
    rw [State.written_write, if_neg hne, List.append_nil]
    exact h.balanced c' hc' i hi

/-- A loop consumes a message. -/
theorem take (h : Accounted ops N C a D source l s) {i : ι} {p : Nat} (hstep : N.step ops s (.take i p) = some s') :
    Accounted ops N C a D source l s' := by
  have horderly := h.toOrderly.step hstep
  have hmem := fun {j} {task : Task κ ω M} (htask : task ∈ s'.pending j) => mem_pending_of_step hstep htask
  obtain ⟨m, hpending, hnext, -, rfl⟩ := Network.take_eq_some hstep
  have hwritten : m ∈ s.written (N.reads i) :=
    State.mem_written_of_partition (List.mem_of_getElem? hnext)
  refine { h with
    toOrderly := horderly
    queued    := fun j o m' hj ho => ?_
    answered  := fun j c m' hc hm' => ?_
    inOrder   := fun j hj q => ?_
    balanced  := fun c hc j hj => ?_ }
  -- what is queued: as before, or a delivery of the message just taken, which was written and so is clean
  · rcases hmem ho with ho | ⟨q, m₀, heq, hnext₀, ho⟩ | ⟨a', o', m₀, tasks, heq, -⟩
    · exact h.queued j o m' hj ho
    · cases heq
      obtain ⟨o', -, hdeliver⟩ := List.mem_map.mp ho
      rw [hnext] at hnext₀
      cases hnext₀
      cases hdeliver
      exact h.clean _ hj m hwritten
    · cases heq
  -- a delivery is no send, so what is to be sent is as before
  · rcases hmem hm' with hm' | ⟨q, m₀, -, -, hm'⟩ | ⟨a', o', m₀, tasks, heq, -⟩
    · exact h.answered j c m' hc hm'
    · obtain ⟨o', -, hdeliver⟩ := List.mem_map.mp hm'
      cases hdeliver
    · cases heq
  -- in order: the message taken is the next of its partition, and the other partitions are as they were
  · have horder := h.inOrder j hj q
    by_cases hji : j = i
    · subst hji
      show valuesAt q (Function.update s.taken j (s.taken j ++ [(p, m)]) j) =
        (s.partition (N.reads j) q).take (Function.update s.position j
          (Function.update (s.position j) p (s.position j p + 1)) j q)
      rw [Function.update_self, Function.update_self, valuesAt_append, horder, valuesAt_cons]
      by_cases hq : p = q
      · subst hq
        have hlast : (s.partition (N.reads j) p)[s.position j p]? = some m := hnext
        rw [if_pos rfl, Function.update_self, List.take_add_one, hlast]
        rfl
      · rw [if_neg hq, Function.update_of_ne (Ne.symm hq)]
        exact List.append_nil _
    · show valuesAt q (Function.update s.taken i _ j) =
        (s.partition (N.reads j) q).take (Function.update s.position i _ j q)
      rw [Function.update_of_ne hji, Function.update_of_ne hji]
      exact horder
  -- balanced: the deliveries that the message brings are counted as handled and pending at once
  · obtain ⟨hsent, hlocals⟩ := h.balanced c hc j hj
    by_cases hji : j = i
    · subst hji
      rw [hpending] at hsent hlocals
      simp only [flush, List.append_nil] at hsent hlocals
      obtain ⟨hrest, hafter⟩ :
          (flush ops c a (N.deliveries j m) _).1 = (flush ops c a (N.deliveries j m) _).1 ∧ ∀ o, c ∈ ops.routes o →
            (flush ops c a (N.deliveries j m) _).2 o = (flush ops c a (N.deliveries j m) _).2 o :=
        flush_congr hlocals (N.deliveries j m)
      have hhandled : (Function.update s.taken j (s.taken j ++ [(p, m)]) j).map Prod.snd = s.handled j ++ [m] := by
        rw [Function.update_self, List.map_append]
        rfl
      unfold Balanced State.handled
      dsimp only
      rw [hhandled, Function.update_self, List.flatMap_append, flush_append, hsent]
      simp only [List.flatMap_singleton]
      exact ⟨by rw [hrest]; rfl, hafter⟩
    -- another reader has neither taken nor queued anything
    · unfold Balanced State.handled
      dsimp only
      rw [Function.update_of_ne hji, Function.update_of_ne hji]
      exact ⟨hsent, hlocals⟩

/-- A loop loses messages behind one it cannot read: it consumes no channel of `D`. -/
theorem lose (hdet : Determinate ops N C a D source) (h : Accounted ops N C a D source l s) {i : ι} {p : Nat}
    {n : Nat → Nat} (hstep : N.step ops s (.lose i p n) = some s') : Accounted ops N C a D source l s' := by
  have horderly := h.toOrderly.step hstep
  obtain ⟨m, hnext, -, hread, -, -, rfl⟩ := Network.lose_eq_some hstep
  have hother : ∀ j, N.reads j ∈ D → j ≠ i := by
    rintro j hj rfl
    have hclean := h.clean _ hj m (State.mem_written_of_partition (List.mem_of_getElem? hnext))
    rw [hdet.readable _ hj m hclean] at hread
    cases hread
  refine { h with
    toOrderly := horderly
    inOrder   := fun j hj q => ?_
    balanced  := fun c hc j hj => h.balanced c hc j hj }
  dsimp only
  rw [Function.update_of_ne (hother j hj)]
  exact h.inOrder j hj q

/-- A loop hands the message to an operator. -/
theorem work (hdet : Determinate ops N C a D source) (h : Accounted ops N C a D source l s) {i : ι} {a' : A}
    (hstep : N.step ops s (.work i a') = some s') : Accounted ops N C a D source l s' := by
  have horderly := h.toOrderly.step hstep
  have hmem := fun {j} {task : Task κ ω M} (htask : task ∈ s'.pending j) => mem_pending_of_step hstep htask
  obtain ⟨o, m, tasks, hpending, rfl⟩ := Network.work_eq_some hstep
  have hbound : o ∈ N.bound i := h.bound i o m (by rw [hpending]; exact List.mem_cons_self)
  -- a writer of a channel of `D` answers as its stream says
  have hanswers : ∀ c ∈ D, ∀ j, source c = some j → c ∈ ops.routes o →
      j = i ∧ ops.handle o a' m (s.locals o) = ops.handle o a m (s.locals o) ∧
        C.inv o (ops.handle o a' m (s.locals o)).2 ∧
        ∀ x ∈ (ops.handle o a' m (s.locals o)).1, x.1 = c → C.clean c x.2 := by
    intro c hc j hj hwrites
    obtain rfl := hdet.own c hc j hj i o hbound hwrites
    have hreads := (hdet.written c hc i hj).2
    have hclean := h.queued i o m hreads (by rw [hpending]; exact List.mem_cons_self)
    obtain ⟨heq, hinv, hsent⟩ := hdet.answers c hc i hj o hbound hwrites a' m _ hclean
      (h.inv c hc i hj o hbound hwrites)
    rw [heq]
    exact ⟨rfl, rfl, hinv, hsent⟩
  refine { h with
    toOrderly := horderly
    queued    := fun j o' m' hj ho' => ?_
    answered  := fun j c m' hc hm' => ?_
    inv       := fun c hc j hj o' ho' hwrites => ?_
    balanced  := fun c hc j hj => ?_ }
  · rcases hmem ho' with ho' | ⟨q, m₀, heq, -⟩ | ⟨a₀, o₀, m₀, tasks₀, -, -, x, -, heq⟩
    · exact h.queued j o' m' hj ho'
    · cases heq
    · cases heq
  · rcases hmem hm' with hm' | ⟨q, m₀, heq, -⟩ | ⟨a₀, o₀, m₀, tasks₀, heq, hpending₀, x, hx, hsend⟩
    · exact h.answered j c m' hc hm'
    · cases heq
    · cases heq
      cases hsend
      rw [hpending] at hpending₀
      cases hpending₀
      have hwrites := ops.routed hx
      cases hsource : source x.1 with
      | none   => exact absurd hwrites (hdet.fed _ hc hsource i o hbound)
      | some k => exact (hanswers _ hc k hsource hwrites).2.2.2 x hx rfl
  · by_cases heq : o' = o
    · subst heq
      simp only [Function.update_self]
      exact (hanswers c hc j hj hwrites).2.2.1
    · simp only [Function.update_of_ne heq]
      exact h.inv c hc j hj o' ho' hwrites
  · obtain ⟨hsent, hlocals⟩ := h.balanced c hc j hj
    unfold Balanced
    dsimp only
    by_cases hwrites : c ∈ ops.routes o
    · -- what the operator answers now is what the stream has it answer
      obtain ⟨rfl, heq, -, -⟩ := hanswers c hc j hj hwrites
      rw [hpending] at hsent hlocals
      simp only [flush, if_pos hwrites] at hsent hlocals
      rw [Function.update_self, flush_sends, heq]
      exact ⟨hsent, hlocals⟩
    · have hothers : ∀ o', c ∈ ops.routes o' →
          Function.update s.locals o (ops.handle o a' m (s.locals o)).2 o' = s.locals o' := by
        intro o' ho'
        rw [Function.update_of_ne]
        rintro rfl
        exact hwrites ho'
      by_cases hji : j = i
      · subst hji
        rw [hpending] at hsent hlocals
        simp only [flush, if_neg hwrites] at hsent hlocals
        have hnone : ∀ task ∈ (ops.handle o a' m (s.locals o)).1.map (fun x => (.send x.1 x.2 : Task κ ω M)),
            ∃ c' m, task = .send c' m ∧ c' ≠ c := by
          intro task htask
          obtain ⟨x, hx, rfl⟩ := List.mem_map.mp htask
          refine ⟨x.1, x.2, rfl, ?_⟩
          rintro rfl
          exact hwrites (ops.routed hx)
        obtain ⟨hrest, hafter⟩ := flush_congr (a := a) hothers tasks
        rw [Function.update_self, flush_elsewhere hnone]
        exact ⟨hsent.trans (by rw [hrest]; rfl), fun o' ho' => (hlocals o' ho').trans (hafter o' ho').symm⟩
      · obtain ⟨hrest, hafter⟩ := flush_congr (a := a) hothers (s.pending j)
        rw [Function.update_of_ne hji, hrest]
        exact ⟨hsent, fun o' ho' => (hlocals o' ho').trans (hafter o' ho').symm⟩

/-- A message goes out. -/
theorem send (hdet : Determinate ops N C a D source) (h : Accounted ops N C a D source l s) {i : ι} {p : Nat}
    (hstep : N.step ops s (.send i p) = some s') : Accounted ops N C a D source l s' := by
  have horderly := h.toOrderly.step hstep
  have hmem := fun {j} {task : Task κ ω M} (htask : task ∈ s'.pending j) => mem_pending_of_step hstep htask
  obtain ⟨c, m, tasks, hpending, -, rfl⟩ := Network.send_eq_some hstep
  obtain ⟨o, hbound, hwrites⟩ := h.sent i c m (by rw [hpending]; exact List.mem_cons_self)
  refine { h with
    toOrderly := horderly
    clean     := fun c' hc' m' hm' => ?_
    queued    := fun j o' m' hj ho' => ?_
    answered  := fun j c' m' hc' hm' => ?_
    inOrder   := fun j hj q => (h.inOrder j hj q).trans (h.take_write c p m j q).symm
    balanced  := fun c' hc' j hj => ?_ }
  -- what is written now was among the pending sends, which answer cleanly
  · rcases State.mem_written_write hm' with hm' | ⟨rfl, rfl⟩
    · exact h.clean c' hc' m' hm'
    · exact h.answered i c' m' hc' (by rw [hpending]; exact List.mem_cons_self)
  · rcases hmem ho' with ho' | ⟨q, m₀, heq, -⟩ | ⟨a₀, o₀, m₀, tasks₀, heq, -⟩
    · exact h.queued j o' m' hj ho'
    · cases heq
    · cases heq
  · rcases hmem hm' with hm' | ⟨q, m₀, heq, -⟩ | ⟨a₀, o₀, m₀, tasks₀, heq, -⟩
    · exact h.answered j c' m' hc' hm'
    · cases heq
    · cases heq
  -- a send moves one message from the pending ones into the log of its channel and of no other
  · obtain ⟨hsent, hlocals⟩ := h.balanced c' hc' j hj
    unfold Balanced
    rw [State.written_write]
    show (flush ops c' a ((s.handled j).flatMap (N.deliveries j)) l).1 =
        s.written c' ++ (if c' = c then [m] else []) ++
          (flush ops c' a (Function.update s.pending i tasks j) s.locals).1 ∧ ∀ o, c' ∈ ops.routes o →
      (flush ops c' a ((s.handled j).flatMap (N.deliveries j)) l).2 o =
        (flush ops c' a (Function.update s.pending i tasks j) s.locals).2 o
    by_cases hc : c' = c
    · subst hc
      obtain rfl := hdet.own c' hc' j hj i o hbound hwrites
      rw [hpending] at hsent hlocals
      simp only [flush, if_pos] at hsent hlocals
      rw [Function.update_self, if_pos rfl, List.append_assoc]
      exact ⟨hsent, hlocals⟩
    · rw [if_neg hc, List.append_nil]
      by_cases hji : j = i
      · subst hji
        rw [hpending] at hsent hlocals
        simp only [flush, if_neg (Ne.symm hc)] at hsent hlocals
        rw [Function.update_self]
        exact ⟨hsent, hlocals⟩
      · rw [Function.update_of_ne hji]
        exact ⟨hsent, hlocals⟩

/-- A send is refused: what is lost is for other channels. -/
theorem refuse (h : Accounted ops N C a D source l s) {i : ι}
    (hlost : ∀ c m, .send c m ∈ (s.pending i).takeWhile Task.isSend → c ∉ D)
    (hstep : N.step ops s (.refuse i) = some s') : Accounted ops N C a D source l s' := by
  have horderly := h.toOrderly.step hstep
  have hmem := fun {j} {task : Task κ ω M} (htask : task ∈ s'.pending j) => mem_pending_of_step hstep htask
  obtain ⟨c, m, tasks, hpending, rfl⟩ := Network.refuse_eq_some hstep
  -- what is left are the deliveries behind the sends that are given up
  have hrest : tasks.dropWhile Task.isSend = (s.pending i).dropWhile Task.isSend := by
    rw [hpending]
    rfl
  refine { h with
    toOrderly := horderly
    queued    := fun j o' m' hj ho' => ?_
    answered  := fun j c' m' hc' hm' => ?_
    balanced  := fun c' hc' j hj => ?_ }
  -- nothing is queued or answered that was not before
  · rcases hmem ho' with ho' | ⟨q, m₀, heq, -⟩ | ⟨a₀, o₀, m₀, tasks₀, heq, -⟩
    · exact h.queued j o' m' hj ho'
    · cases heq
    · cases heq
  · rcases hmem hm' with hm' | ⟨q, m₀, heq, -⟩ | ⟨a₀, o₀, m₀, tasks₀, heq, -⟩
    · exact h.answered j c' m' hc' hm'
    · cases heq
    · cases heq
  · obtain ⟨hsent, hlocals⟩ := h.balanced c' hc' j hj
    unfold Balanced
    show (flush ops c' a ((s.handled j).flatMap (N.deliveries j)) l).1 = s.written c' ++
          (flush ops c' a (Function.update s.pending i (tasks.dropWhile Task.isSend) j) s.locals).1 ∧
      ∀ o, c' ∈ ops.routes o → (flush ops c' a ((s.handled j).flatMap (N.deliveries j)) l).2 o =
        (flush ops c' a (Function.update s.pending i (tasks.dropWhile Task.isSend) j) s.locals).2 o
    by_cases hji : j = i
    · subst hji
      -- the sends that are lost go to channels outside, so those inside are settled as before
      have hnone : ∀ task ∈ (s.pending j).takeWhile Task.isSend, ∃ c₀ m, task = .send c₀ m ∧ c₀ ≠ c' := by
        intro task htask
        cases task with
        | deliver o m => cases List.mem_takeWhile_imp htask
        | send c₀ m =>
            refine ⟨c₀, m, rfl, ?_⟩
            rintro rfl
            exact hlost c₀ m htask hc'
      rw [← List.takeWhile_append_dropWhile (p := Task.isSend) (l := s.pending j), flush_elsewhere hnone]
        at hsent hlocals
      rw [Function.update_self, hrest]
      exact ⟨hsent, hlocals⟩
    · rw [Function.update_of_ne hji]
      exact ⟨hsent, hlocals⟩

/-- **What one step preserves.** -/
theorem step (hdet : Determinate ops N C a D source) (h : Accounted ops N C a D source l s) {e : Event ι κ A M}
    (hfaithful : Faithful C D s e) (hstep : N.step ops s e = some s') : Accounted ops N C a D source l s' := by
  cases e with
  | feed c p m => exact h.feed hdet hfaithful hstep
  | take i p   => exact h.take hstep
  | lose i p n => exact h.lose hdet hstep
  | work i a   => exact h.work hdet hstep
  | send i p   => exact h.send hdet hstep
  | refuse i   => exact h.refuse hfaithful hstep

end Accounted

/-! ## What the channels carry

The invariant read off in the states that a run reaches. At any time a channel has a part of the stream of what its
writers have taken, and all of it once their loop has nothing more to do. -/

variable [DecidableEq ι]

theorem accounted_of_reachable (hdet : Determinate ops N C a D source) (hinv : ∀ o, C.inv o (l o))
    (h : ((N.system ops l).restrict (Faithful C D)).Reachable s) : Accounted ops N C a D source l s := by
  apply h.invariant
  · rintro _ rfl
    exact accounted_initial hinv
  · exact fun _ _ _ hs hstep => hs.step hdet hstep.2 hstep.1

omit [DecidableEq ι]

/-- A channel carries a part of the stream of what its writers' loop has taken. -/
theorem Accounted.written_prefix_stream (h : Accounted ops N C a D source l s) {c : κ} (hc : c ∈ D) {i : ι}
    (hi : source c = some i) : s.written c <+: stream ops N a l i c (s.handled i) := by
  unfold stream
  rw [(h.balanced c hc i hi).1]
  exact List.prefix_append _ _

/-- What the loop has taken of a partition is a part of it, in order. -/
theorem Accounted.taken_prefix (h : Accounted ops N C a D source l s) {i : ι} (hi : N.reads i ∈ D) (p : Nat) :
    valuesAt p (s.taken i) <+: s.partition (N.reads i) p := by
  rw [h.inOrder i hi p]
  exact List.take_prefix _ _

/-- **Once a loop has nothing more to do**, the channel carries all of the stream, and the loop has taken all of every
    partition. -/
theorem Accounted.written_of_quiescent (h : Accounted ops N C a D source l s) (hq : N.Quiescent s) {c : κ}
    (hc : c ∈ D) {i : ι} (hi : source c = some i) (hreads : N.reads i ∈ D) :
    s.written c = stream ops N a l i c (s.handled i) ∧
      (N.runs i = true → ∀ p, valuesAt p (s.taken i) = s.partition (N.reads i) p) := by
  by_cases hruns : N.runs i = true
  · obtain ⟨hpending, hposition⟩ := hq i hruns
    constructor
    · obtain ⟨hsent, -⟩ := h.balanced c hc i hi
      rw [hpending] at hsent
      simp only [flush, List.append_nil] at hsent
      exact hsent.symm
    · intro _ p
      rw [h.inOrder i hreads p]
      by_cases hp : p < N.partitions (N.reads i)
      · rw [hposition p hp, List.take_length]
      · -- there is no such partition
        have hnone : s.partition (N.reads i) p = [] := by
          rw [List.eq_nil_iff_forall_not_mem]
          exact fun m hm => hp (h.parted _ _ _ (mem_valuesAt.mp hm))
        rw [hnone, List.take_nil]
  · -- nobody writes the channel
    have hbound : N.bound i = [] := by
      unfold Network.runs at hruns
      rwa [Bool.not_eq_true, Bool.not_eq_false', List.isEmpty_iff] at hruns
    have hprefix := h.written_prefix_stream hc hi
    rw [stream_of_unbound hbound] at hprefix ⊢
    exact ⟨List.prefix_nil.mp hprefix, fun h => absurd h hruns⟩

/-! ## Channels of one partition

With one partition a loop can only take the messages in the order in which they were written. -/

/-- The channels of `D` that are read to write others of `D` have one partition. -/
def Unsplit (N : Network ι κ ω) (D : Set κ) (source : κ → Option ι) : Prop :=
  ∀ c ∈ D, ∀ i, source c = some i → N.partitions (N.reads i) = 1

theorem Accounted.handled_eq (h : Accounted ops N C a D source l s) {i : ι} (hi : N.reads i ∈ D)
    (hone : N.partitions (N.reads i) = 1) : s.handled i = (s.written (N.reads i)).take (s.position i 0) := by
  have hzero : ∀ x ∈ s.log (N.reads i), x.1 = 0 := by
    intro x hx
    have hlt := h.parted _ x.1 x.2 hx
    omega
  have htaken : ∀ x ∈ s.taken i, x.1 = 0 := by
    intro x hx
    have hmem := (h.taken_prefix hi x.1).subset (mem_valuesAt.mpr hx)
    exact hzero _ (mem_valuesAt.mp hmem)
  have horder := h.inOrder i hi 0
  unfold State.partition at horder
  rwa [valuesAt_of_forall htaken, valuesAt_of_forall hzero] at horder

/-- What has been taken was written, in this order. -/
theorem Accounted.handled_prefix (h : Accounted ops N C a D source l s) {i : ι} (hi : N.reads i ∈ D)
    (hone : N.partitions (N.reads i) = 1) : s.handled i <+: s.written (N.reads i) := by
  rw [h.handled_eq hi hone]
  exact List.take_prefix _ _

theorem Accounted.handled_of_quiescent (h : Accounted ops N C a D source l s) (hq : N.Quiescent s) {i : ι}
    (hruns : N.runs i = true) (hi : N.reads i ∈ D) (hone : N.partitions (N.reads i) = 1) :
    s.handled i = s.written (N.reads i) := by
  have hposition := (hq i hruns).2 0 (by omega)
  have hzero : ∀ x ∈ s.log (N.reads i), x.1 = 0 := by
    intro x hx
    have hlt := h.parted _ x.1 x.2 hx
    omega
  unfold State.partition at hposition
  rw [valuesAt_of_forall hzero] at hposition
  rw [h.handled_eq hi hone, hposition]
  exact List.take_length

/-- The contents `L` of the channels solve the equations of the network: each channel that operators write carries the
    stream of the channel their loop consumes. -/
def Solves (ops : Operators κ ω σ A M) (N : Network ι κ ω) (a : A) (D : Set κ) (source : κ → Option ι)
    (l : (o : ω) → σ o) (L : κ → List M) : Prop :=
  ∀ c ∈ D, ∀ i, source c = some i → L c = stream ops N a l i c (L (N.reads i))

variable [DecidableEq ι]

/-- What a loop has taken after a step was there before it. -/
theorem Accounted.handled_step (hdet : Determinate ops N C a D source) (h : Accounted ops N C a D source l s)
    {e : Event ι κ A M} (hfaithful : Faithful C D s e) (hstep : N.step ops s e = some s') {i : ι}
    (hi : N.reads i ∈ D) (hone : N.partitions (N.reads i) = 1) : s'.handled i <+: s.written (N.reads i) := by
  have hposition : s'.position i 0 ≤ (s.written (N.reads i)).length := by
    apply Nat.le_trans (position_within h.toOrderly hstep i 0)
    unfold State.partition valuesAt State.written
    rw [List.length_map, List.length_map]
    exact List.length_filter_le _ _
  obtain ⟨rest, hrest⟩ := (log_grows hstep (N.reads i)).map Prod.snd
  have hgrown : s'.written (N.reads i) = s.written (N.reads i) ++ rest := hrest.symm
  rw [(h.step hdet hfaithful hstep).handled_eq hi hone, hgrown, List.take_append_of_le_length hposition]
  exact List.take_prefix _ _

/-- **Any schedule stays below every solution.** The induction is on the run: what goes out on a channel is in the
    stream of what has been taken, and that is below the solution already. -/
theorem written_prefix (hdet : Determinate ops N C a D source) (hone : Unsplit N D source)
    (hinv : ∀ o, C.inv o (l o)) {L : κ → List M} (hL : Solves ops N a D source l L)
    (h : ((N.system ops l).restrict (Faithful C D)).Reachable s)
    (hfed : ∀ c ∈ D, source c = none → s.written c <+: L c) : ∀ c ∈ D, s.written c <+: L c := by
  have hboth : Accounted ops N C a D source l s ∧
      ((∀ c ∈ D, source c = none → s.written c <+: L c) → ∀ c ∈ D, s.written c <+: L c) := by
    refine h.invariant (I := fun s => Accounted ops N C a D source l s ∧
      ((∀ c ∈ D, source c = none → s.written c <+: L c) → ∀ c ∈ D, s.written c <+: L c)) ?_ ?_
    · rintro _ rfl
      exact ⟨accounted_initial hinv, fun _ c _ => List.nil_prefix⟩
    · rintro t e t' ⟨ht, ihbelow⟩ ⟨hstep, hfaithful⟩
      have ht' := ht.step hdet hfaithful hstep
      refine ⟨ht', fun hfed c hc => ?_⟩
      have hbelow := ihbelow fun c hc hnone => ((log_grows hstep c).map Prod.snd).trans (hfed c hc hnone)
      cases hsource : source c with
      | none   => exact hfed c hc hsource
      | some i =>
          have hreads := (hdet.written c hc i hsource).2
          rw [hL c hc i hsource]
          exact (ht'.written_prefix_stream hc hsource).trans (stream_mono
            ((ht.handled_step hdet hfaithful hstep hreads (hone c hc i hsource)).trans (hbelow _ hreads)))
  exact hboth.2 hfed

/-- **Once the loops have caught up**, the contents are a solution. -/
theorem solves_of_quiescent (hdet : Determinate ops N C a D source) (hone : Unsplit N D source)
    (hinv : ∀ o, C.inv o (l o)) (h : ((N.system ops l).restrict (Faithful C D)).Reachable s)
    (hq : N.Quiescent s) : Solves ops N a D source l s.written := by
  intro c hc i hi
  have haccounted := accounted_of_reachable hdet hinv h
  have hreads := (hdet.written c hc i hi).2
  rw [(haccounted.written_of_quiescent hq hc hi hreads).1]
  by_cases hruns : N.runs i = true
  · rw [haccounted.handled_of_quiescent hq hruns hreads (hone c hc i hi)]
  · have hbound : N.bound i = [] := by
      unfold Network.runs at hruns
      rwa [Bool.not_eq_true, Bool.not_eq_false', List.isEmpty_iff] at hruns
    rw [stream_of_unbound hbound, stream_of_unbound hbound]

end Determinate

/-! ## One set of operators in two networks

The equations of the channels name operators and channels and not loops, so a network that has its operators on one
loop and one that has them on many have the same equations, and with the same messages from outside the same
contents. -/

section TwoNetworks

variable {ι' : Type*} [DecidableEq ι] [DecidableEq ι'] {N' : Network ι' κ ω} {t : State ι' κ ω σ M}
  {C : Contract κ ω σ M} {a : A} {D : Set κ} {source : κ → Option ι} {source' : κ → Option ι'} {l : (o : ω) → σ o}

/-- The channels of `D` are written by the same operators, in the same order, from the same channels. -/
def SameEquations (ops : Operators κ ω σ A M) (N : Network ι κ ω) (N' : Network ι' κ ω) (D : Set κ)
    (source : κ → Option ι) (source' : κ → Option ι') : Prop :=
  ∀ c ∈ D, (source c = none ↔ source' c = none) ∧ ∀ i i', source c = some i → source' c = some i' →
    N.reads i = N'.reads i' ∧
      (N.bound i).filter (fun o => c ∈ ops.routes o) = (N'.bound i').filter (fun o => c ∈ ops.routes o)

omit [DecidableEq ι] [DecidableEq ι'] in
/-- They have the same solutions. -/
theorem solves_congr (h : SameEquations ops N N' D source source') {L : κ → List M} :
    Solves ops N a D source l L ↔ Solves ops N' a D source' l L := by
  constructor
  · intro hL c hc i' hi'
    cases hi : source c with
    | none =>
        rw [(h c hc).1.mp hi] at hi'
        cases hi'
    | some i =>
        obtain ⟨hreads, hbound⟩ := (h c hc).2 i i' hi hi'
        rw [hL c hc i hi, hreads]
        exact stream_congr hbound (fun _ _ => rfl) _
  · intro hL c hc i hi
    cases hi' : source' c with
    | none =>
        rw [(h c hc).1.mpr hi'] at hi
        cases hi
    | some i' =>
        obtain ⟨hreads, hbound⟩ := (h c hc).2 i i' hi hi'
        rw [hL c hc i' hi', hreads]
        exact (stream_congr hbound (fun _ _ => rfl) _).symm

/-- **The contents depend on what was fed only**: not on the schedule, and not on how the operators are distributed
    over the loops. Each of the two is a solution of the other's equations, and stays below it. -/
theorem quiescent_unique (hdet : Determinate ops N C a D source) (hdet' : Determinate ops N' C a D source')
    (hone : Unsplit N D source) (hone' : Unsplit N' D source') (hsame : SameEquations ops N N' D source source')
    (hinv : ∀ o, C.inv o (l o))
    (hs : ((N.system ops l).restrict (Faithful C D)).Reachable s) (hqs : N.Quiescent s)
    (ht : ((N'.system ops l).restrict (Faithful C D)).Reachable t) (hqt : N'.Quiescent t)
    (hfed : ∀ c ∈ D, source c = none → s.written c = t.written c) : ∀ c ∈ D, s.written c = t.written c := by
  have hLs := solves_of_quiescent hdet hone hinv hs hqs
  have hLt := solves_of_quiescent hdet' hone' hinv ht hqt
  have hst := written_prefix hdet hone hinv ((solves_congr hsame).mpr hLt) hs fun c hc hnone => by
    rewrite [hfed c hc hnone]
    exact List.prefix_rfl
  have hts := written_prefix hdet' hone' hinv ((solves_congr hsame).mp hLs) ht fun c hc hnone => by
    rewrite [hfed c hc ((hsame c hc).1.mpr hnone)]
    exact List.prefix_rfl
  exact fun c hc => (hst c hc).eq_of_length_le (hts c hc).length_le

end TwoNetworks

end Dataflow
end Lib
end HybridStream
