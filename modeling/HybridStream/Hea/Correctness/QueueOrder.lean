import HybridStream.Hea.Correctness.QueueSteps

/-!
# `Hea.Correctness.QueueOrder` — what was handed over and what waits make up what was dispatched

The worker of a CPU-bound registration looks its queue up by id when it first runs, and so does every dispatch.
`drains` says when a step finds the right queue. In the runs whose steps meet it a registration has one queue, filled
by its dispatches and emptied from the front: what was handed over and what still waits are, in this order, what was
dispatched (`Ordered`).
-/

namespace HybridStream
namespace Hea
namespace Tasks

open Lib Py

variable {F : Type}

/-! ## The property

Which calls were dispatched under a registration, and which of them the executor was given, both in order; an id may
be registered again, so the property is about registrations and not about ids. -/

/-- The registration a call was dispatched under. -/
def registrationOf (st : Tasks F) (c : Nat) : Option Nat := (st.calls[c]?).map (·.registration)

/-- The calls dispatched under a registration, in the order of the dispatches. -/
def dispatchedUnder (st : Tasks F) (r : Nat) : List Nat :=
  (List.range st.calls.length).filter (fun c => st.registrationOf c = some r)

/-- What the executor was given of a registration, in that order. -/
def handedOf (st : Tasks F) (r : Nat) : List Nat := st.handed.filter (fun c => st.registrationOf c = some r)

/-- Every call dispatched under the registration has ended. -/
def AllEnded (st : Tasks F) (r : Nat) : Prop :=
  ∀ (c : Nat) call, st.calls[c]? = some call → call.registration = r → call.phase = .ended

/-- The calls of a CPU-bound registration are handed over in the order of their dispatches, each once, and a
    deregistration has returned after all of them. -/
structure InOrder (st : Tasks F) : Prop where
  order    : ∀ r, st.cpuBoundOf r = true → st.handedOf r <+: st.dispatchedUnder r
  returned : ∀ (d : Nat) oid r, st.deregistrations[d]? = some ⟨oid, r, none⟩ → st.cpuBoundOf r = true →
    st.handedOf r = st.dispatchedUnder r ∧ AllEnded st r

/-! ## Steps that find the right queue

The guard of the result, as a test on the state before the step: the dispatch finds the queue of its own registration,
and a queue leaves the table empty or with a worker that has found it. -/

def Phase.isEnded : Phase F → Bool
  | .ended => true
  | _      => false

theorem Phase.emit_ne_queued (pending : List (String × Record F)) : Phase.emit pending ≠ .queued := by
  cases pending <;> exact nofun

theorem Phase.emit_ne_dropped (pending : List (String × Record F)) : Phase.emit pending ≠ .dropped := by
  cases pending <;> exact nofun

/-- The queue in the table is the one of the registration. -/
def hasQueueOf (st : Tasks F) (oid : String) (r : Nat) : Bool :=
  (st.workerQueues.get oid).any (fun q => (st.queues[q]?).any (fun queue => queue.registration = r))

/-- If the table has a queue, it is empty or a worker takes its items. -/
def canDrain (st : Tasks F) (oid : String) : Bool :=
  (st.workerQueues.get oid).all (fun q => (st.queues[q]?).all (fun queue => queue.items.isEmpty) ||
    st.workers.any (fun worker => worker.phase.queue = some q))

/-- A queue leaves the table empty or with a worker that has found it, and a dispatch or a deregistration of a
    CPU-bound registration finds the queue of this registration, or is a deregistration with all calls ended. -/
def drains (st : Tasks F) : Event F → Bool
  | .makeQueue r    => (st.registrations[r]?).all (fun reg => st.canDrain reg.operatorId)
  | .dispatch oid   => (st.operators.get oid).all (fun r => !st.cpuBoundOf r || st.hasQueueOf oid r)
  | .deregister oid => (st.operators.get oid).all (fun r => st.canDrain oid &&
      (!st.cpuBoundOf r || st.hasQueueOf oid r ||
        st.calls.all (fun call => call.registration ≠ r || call.phase.isEnded)))
  | _ => true

theorem hasQueueOf_iff {st : Tasks F} {oid : String} {r : Nat} :
    st.hasQueueOf oid r = true ↔
      ∃ q queue, st.workerQueues.get oid = some q ∧ st.queues[q]? = some queue ∧ queue.registration = r := by
  unfold hasQueueOf
  rw [Option.any_eq_true]
  constructor
  · rintro ⟨q, hq, h⟩
    obtain ⟨queue, hqueue, h⟩ := (Option.any_eq_true _ _).mp h
    exact ⟨q, queue, hq, hqueue, of_decide_eq_true h⟩
  · rintro ⟨q, queue, hq, hqueue, h⟩
    exact ⟨q, hq, (Option.any_eq_true _ _).mpr ⟨queue, hqueue, decide_eq_true h⟩⟩

/-- A worker takes its items from the queue. -/
def Served (st : Tasks F) (q : Nat) : Prop :=
  ∃ (w : Nat) (worker : Worker), st.workers[w]? = some worker ∧ worker.phase.queue = some q

theorem canDrain_iff {st : Tasks F} {oid : String} :
    st.canDrain oid = true ↔ ∀ q, st.workerQueues.get oid = some q →
      (∀ queue, st.queues[q]? = some queue → queue.items = []) ∨ st.Served q := by
  unfold canDrain
  rw [Option.all_eq_true]
  refine forall_congr' fun q => imp_congr_right fun _ => ?_
  rw [Bool.or_eq_true, Option.all_eq_true, List.any_eq_true]
  refine or_congr (forall_congr' fun queue => imp_congr_right fun _ => List.isEmpty_iff) ?_
  constructor
  · rintro ⟨worker, hmem, hq⟩
    obtain ⟨w, hw⟩ := List.getElem?_of_mem hmem
    exact ⟨w, worker, hw, of_decide_eq_true hq⟩
  · rintro ⟨w, worker, hw, hq⟩
    exact ⟨worker, List.mem_of_getElem? hw, decide_eq_true hq⟩

theorem Phase.isEnded_iff {phase : Phase F} : phase.isEnded = true ↔ phase = .ended := by
  cases phase with
  | ended => exact iff_of_true rfl rfl
  | queued | dropped | processing | emitting => exact iff_of_false nofun nofun

theorem allEnded_iff {st : Tasks F} {r : Nat} :
    st.calls.all (fun call => call.registration ≠ r || call.phase.isEnded) = true ↔ AllEnded st r := by
  rw [List.all_eq_true]
  constructor
  · intro h c call hc hr
    have hcall := h call (List.mem_of_getElem? hc)
    simp only [hr, ne_eq, not_true_eq_false, decide_false, Bool.false_or] at hcall
    exact Phase.isEnded_iff.mp hcall
  · intro h call hmem
    obtain ⟨c, hc⟩ := List.getElem?_of_mem hmem
    by_cases hr : call.registration = r
    · rw [Phase.isEnded_iff.mpr (h c call hc hr), Bool.or_true]
    · rw [decide_eq_true hr, Bool.true_or]

/-! ## Histories of a registration

How the two lists change with what a step writes, one lemma for each kind of write. -/

section Histories

variable {st st' : Tasks F} {c : Nat} {call : Call F}

theorem registrationOf_eq (st : Tasks F) (c : Nat) : st.registrationOf c = (st.calls.map (·.registration))[c]? := by
  rw [List.getElem?_map]
  rfl

theorem registrationOf_of_some (hc : st.calls[c]? = some call) : st.registrationOf c = some call.registration := by
  unfold registrationOf
  rw [hc]
  rfl

theorem registrationOf_congr (hcalls : st'.calls.map (·.registration) = st.calls.map (·.registration)) (c : Nat) :
    st'.registrationOf c = st.registrationOf c := by
  rw [registrationOf_eq, registrationOf_eq, hcalls]

theorem mem_dispatchedUnder {r : Nat} : c ∈ st.dispatchedUnder r ↔ st.registrationOf c = some r := by
  unfold dispatchedUnder
  rw [List.mem_filter, List.mem_range, decide_eq_true_iff]
  refine and_iff_right_of_imp fun h => ?_
  obtain ⟨call, hc, -⟩ := Option.map_eq_some_iff.mp h
  exact lt_length_of_getElem? hc

theorem dispatchedUnder_congr (hcalls : st'.calls.map (·.registration) = st.calls.map (·.registration)) (r : Nat) :
    st'.dispatchedUnder r = st.dispatchedUnder r := by
  have hlength : st'.calls.length = st.calls.length := by
    rw [← List.length_map (f := (·.registration)), hcalls, List.length_map]
  unfold dispatchedUnder
  rw [hlength]
  exact List.filter_congr fun c _ => by rw [registrationOf_congr hcalls]

theorem handedOf_congr (hcalls : st'.calls.map (·.registration) = st.calls.map (·.registration))
    (hhanded : st'.handed = st.handed) (r : Nat) : st'.handedOf r = st.handedOf r := by
  unfold handedOf
  rw [hhanded]
  exact List.filter_congr fun c _ => by rw [registrationOf_congr hcalls]

/-- A call is handed over. -/
theorem handedOf_concat (hcalls : st'.calls.map (·.registration) = st.calls.map (·.registration))
    (hhanded : st'.handed = st.handed ++ [c]) (r : Nat) :
    st'.handedOf r = st.handedOf r ++ if st.registrationOf c = some r then [c] else [] := by
  unfold handedOf
  rw [hhanded, List.filter_append]
  congr 1
  · exact List.filter_congr fun c _ => by rw [registrationOf_congr hcalls]
  · rw [List.filter_singleton, registrationOf_congr hcalls, Bool.cond_decide]

theorem registrationOf_addCall (hcalls : st'.calls = st.calls ++ [call]) (hc : c < st.calls.length) :
    st'.registrationOf c = st.registrationOf c := by
  unfold registrationOf
  rw [hcalls, List.getElem?_append_left hc]

theorem dispatchedUnder_addCall (hcalls : st'.calls = st.calls ++ [call]) (r : Nat) :
    st'.dispatchedUnder r = st.dispatchedUnder r ++ if call.registration = r then [st.calls.length] else [] := by
  have hnew : st'.registrationOf st.calls.length = some call.registration :=
    registrationOf_of_some (by rw [hcalls]; exact getElem?_concat_self _ _)
  unfold dispatchedUnder
  rw [show st'.calls.length = st.calls.length + 1 by rw [hcalls, List.length_append]; rfl, List.range_succ,
    List.filter_append]
  congr 1
  · exact List.filter_congr fun c hc => by rw [registrationOf_addCall hcalls (List.mem_range.mp hc)]
  · rw [List.filter_singleton, hnew, Bool.cond_decide]
    simp only [Option.some.injEq]

theorem handedOf_addCall (hcalls : st'.calls = st.calls ++ [call]) (hhanded : st'.handed = st.handed)
    (hold : ∀ c ∈ st.handed, c < st.calls.length) (r : Nat) : st'.handedOf r = st.handedOf r := by
  unfold handedOf
  rw [hhanded]
  exact List.filter_congr fun c hc => by rw [registrationOf_addCall hcalls (hold c hc)]

/-- A number under which nothing is registered has no calls. -/
theorem registrationOf_ne (howned : Owned st) {r : Nat} (hr : st.registrations[r]? = none) (c : Nat) :
    st.registrationOf c ≠ some r := by
  intro h
  obtain ⟨call, hc, rfl⟩ := Option.map_eq_some_iff.mp h
  obtain ⟨reg, hreg, -⟩ := howned.call c call hc
  rw [hr] at hreg
  cases hreg

theorem registration_of_cpuBound {r : Nat} (h : st.cpuBoundOf r = true) :
    ∃ reg, st.registrations[r]? = some reg ∧ reg.cpuBound = true := by
  unfold cpuBoundOf at h
  cases hr : st.registrations[r]? with
  | none => rw [hr] at h; cases h
  | some reg => exact ⟨reg, rfl, by rw [hr] at h; exact h⟩

end Histories

/-! ## Handed over and waiting make up what was dispatched

The invariant of the order. The calls of a registration are those handed over followed by those in its queue; a worker
takes the first and a dispatch adds a last one. -/

/-- A CPU-bound registration has one queue or none, and its calls were handed over or wait in its queue, in the order
    of their dispatches. -/
structure Ordered (st : Tasks F) : Prop where
  handed   : ∀ c ∈ st.handed, c < st.calls.length
  cpuBound : ∀ (q : Nat) queue, st.queues[q]? = some queue → st.cpuBoundOf queue.registration = true
  unique   : ∀ (q q' : Nat) queue queue', st.queues[q]? = some queue → st.queues[q']? = some queue' →
    queue.registration = queue'.registration → q = q'
  own      : ∀ (q : Nat) queue, st.queues[q]? = some queue →
    st.handedOf queue.registration ++ queue.items = st.dispatchedUnder queue.registration
  fresh    : ∀ r, st.cpuBoundOf r = true → (∀ queue ∈ st.queues, queue.registration ≠ r) →
    st.handedOf r = st.dispatchedUnder r

namespace Ordered

variable {st st' : Tasks F} {oid : String} {c w d q r : Nat}

theorem started : Ordered (started : Tasks F) := by
  constructor
  · rintro c ⟨⟩
  · rintro q queue ⟨⟩
  · rintro q q' queue queue' ⟨⟩
  · rintro q queue ⟨⟩
  · exact fun _ _ _ => rfl

/-- The queues keep their registrations. -/
theorem of_registrations (h : Ordered st) (hregistrations : st'.registrations = st.registrations)
    (hqueues : st'.queues.map (·.registration) = st.queues.map (·.registration))
    (hhanded : ∀ c ∈ st'.handed, c < st'.calls.length)
    (hown : ∀ (q : Nat) queue queue', st.queues[q]? = some queue → st'.queues[q]? = some queue' →
      queue.registration = queue'.registration →
      st'.handedOf queue'.registration ++ queue'.items = st'.dispatchedUnder queue'.registration)
    (hfresh : ∀ r, st.cpuBoundOf r = true → (∀ queue ∈ st.queues, queue.registration ≠ r) →
      st'.handedOf r = st'.dispatchedUnder r) : Ordered st' := by
  have hcpuBound : st'.cpuBoundOf = st.cpuBoundOf := by
    unfold cpuBoundOf
    rw [hregistrations]
  refine ⟨hhanded, ?_, ?_, ?_, ?_⟩
  · intro q queue' hq
    obtain ⟨queue, hq, hr⟩ := exists_getElem?_of_map_eq hqueues hq
    rw [hcpuBound, ← hr]
    exact h.cpuBound q queue hq
  · intro q₁ q₂ queue₁' queue₂' hq₁ hq₂ heq
    obtain ⟨queue₁, hq₁, hr₁⟩ := exists_getElem?_of_map_eq hqueues hq₁
    obtain ⟨queue₂, hq₂, hr₂⟩ := exists_getElem?_of_map_eq hqueues hq₂
    exact h.unique q₁ q₂ queue₁ queue₂ hq₁ hq₂ (hr₁.trans (heq.trans hr₂.symm))
  · intro q queue' hq'
    obtain ⟨queue, hq, hr⟩ := exists_getElem?_of_map_eq hqueues hq'
    exact hown q queue queue' hq hq' hr
  · intro r hr hnone
    refine hfresh r (by rw [← hcpuBound]; exact hr) fun queue hmem => ?_
    obtain ⟨q, hq⟩ := List.getElem?_of_mem hmem
    obtain ⟨queue', hq', heq⟩ := exists_getElem?_of_map_eq hqueues.symm hq
    rw [← heq]
    exact hnone queue' (List.mem_of_getElem? hq')

/-- Nothing is handed over, and the queues keep their items. -/
theorem of_eq (h : Ordered st) (hregistrations : st'.registrations = st.registrations)
    (hcalls : st'.calls.map (·.registration) = st.calls.map (·.registration))
    (hqueues : st'.queues.map (fun queue => (queue.registration, queue.items)) =
      st.queues.map (fun queue => (queue.registration, queue.items)))
    (hhanded : st'.handed = st.handed) : Ordered st' := by
  have hlength : st'.calls.length = st.calls.length := by
    rw [← List.length_map (f := (·.registration)), hcalls, List.length_map]
  refine h.of_registrations hregistrations ?_ ?_ ?_ ?_
  · have hfst := congrArg (List.map Prod.fst) hqueues
    rw [List.map_map, List.map_map] at hfst
    exact hfst
  · rw [hhanded, hlength]
    exact h.handed
  · intro q queue queue' hq hq' hr
    obtain ⟨queue₀, hq₀, heq⟩ := exists_getElem?_of_map_eq hqueues hq'
    rw [hq] at hq₀
    cases hq₀
    rw [handedOf_congr hcalls hhanded, dispatchedUnder_congr hcalls, ← hr, ← (Prod.mk.inj heq).2]
    exact h.own q queue hq
  · intro r hr hnone
    rw [handedOf_congr hcalls hhanded, dispatchedUnder_congr hcalls]
    exact h.fresh r hr hnone

theorem register (h : Ordered st) (howned : Owned st) {cpuBound : Bool} {outputTopics : List String} :
    Ordered (st.register oid cpuBound outputTopics) := by
  have hold : ∀ {r : Nat} {reg}, st.registrations[r]? = some reg →
      (st.register oid cpuBound outputTopics).cpuBoundOf r = st.cpuBoundOf r := by
    intro r reg hr
    rw [cpuBoundOf_of_some hr]
    exact cpuBoundOf_of_some (getElem?_concat_of_some hr _)
  refine ⟨h.handed, ?_, h.unique, h.own, ?_⟩
  · intro q queue hq
    obtain ⟨reg, hr, -⟩ := registration_of_cpuBound (h.cpuBound q queue hq)
    rw [hold hr]
    exact h.cpuBound q queue hq
  · intro r hr hnone
    cases hreg : st.registrations[r]? with
    | some reg => exact h.fresh r (by rw [← hold hreg]; exact hr) hnone
    | none =>
        -- the new registration has no calls
        have hcalls := registrationOf_ne howned hreg
        have hhanded : st.handedOf r = [] := List.filter_eq_nil_iff.mpr fun c _ => by
          rw [decide_eq_true_iff]; exact hcalls c
        have hdispatched : st.dispatchedUnder r = [] := List.filter_eq_nil_iff.mpr fun c _ => by
          rw [decide_eq_true_iff]; exact hcalls c
        exact hhanded.trans hdispatched.symm

theorem makeQueue (h : Ordered st) (hstep : st.makeQueue r = some st') : Ordered st' := by
  obtain ⟨oid, topics, hreg, hnew, rfl⟩ := makeQueue_eq_some hstep
  have hcpu : st.cpuBoundOf r = true := cpuBoundOf_of_some hreg
  refine ⟨h.handed, ?_, ?_, ?_, ?_⟩
  · intro q queue hq
    rcases getElem?_concat_eq_some.mp hq with hq | ⟨-, rfl⟩
    · exact h.cpuBound q queue hq
    · exact hcpu
  · intro q₁ q₂ queue₁ queue₂ hq₁ hq₂ heq
    rcases getElem?_concat_eq_some.mp hq₁ with hq₁ | ⟨rfl, rfl⟩
    · rcases getElem?_concat_eq_some.mp hq₂ with hq₂ | ⟨rfl, rfl⟩
      · exact h.unique q₁ q₂ queue₁ queue₂ hq₁ hq₂ heq
      · exact absurd heq (hnew queue₁ (List.mem_of_getElem? hq₁))
    · rcases getElem?_concat_eq_some.mp hq₂ with hq₂ | ⟨rfl, rfl⟩
      · exact absurd heq.symm (hnew queue₂ (List.mem_of_getElem? hq₂))
      · rfl
  · intro q queue hq
    rcases getElem?_concat_eq_some.mp hq with hq | ⟨-, rfl⟩
    · exact h.own q queue hq
    · show st.handedOf r ++ [] = st.dispatchedUnder r
      rw [List.append_nil]
      exact h.fresh r hcpu hnew
  · exact fun r' hr' hnone => h.fresh r' hr' fun queue hmem => hnone queue (List.mem_append_left _ hmem)

/-- A call is added that is in no queue and under no CPU-bound registration. -/
theorem addInline (h : Ordered st) {call : Call F} (hinline : st.cpuBoundOf call.registration = false) :
    Ordered { st with calls := st.calls ++ [call] } := by
  have hdispatched : ∀ r, st.cpuBoundOf r = true →
      dispatchedUnder { st with calls := st.calls ++ [call] } r = st.dispatchedUnder r := by
    intro r hr
    have hne : call.registration ≠ r := by
      rintro rfl
      rw [hinline] at hr
      cases hr
    rw [dispatchedUnder_addCall rfl, if_neg hne, List.append_nil]
  have hhanded : ∀ r, handedOf { st with calls := st.calls ++ [call] } r = st.handedOf r :=
    handedOf_addCall rfl rfl h.handed
  refine h.of_registrations rfl rfl ?_ ?_ ?_
  · intro c hc
    show c < (st.calls ++ [call]).length
    rw [List.length_append]
    exact Nat.lt_add_right _ (h.handed c hc)
  · intro q queue queue' hq hq' hr
    rw [hdispatched _ (h.cpuBound q queue' hq'), hhanded]
    exact h.own q queue' hq'
  · intro r hr hnone
    rw [hdispatched r hr, hhanded]
    exact h.fresh r hr hnone

/-- A call is added and put into the queue of its registration. -/
theorem addQueued (h : Ordered st) {queue queue' : WorkQueue} (hq : st.queues[q]? = some queue) {call : Call F}
    (hr : call.registration = queue.registration) (hr' : queue'.registration = queue.registration)
    (hitems : queue'.items = queue.items ++ [st.calls.length]) :
    Ordered { st with calls := st.calls ++ [call], queues := st.queues.set q queue' } := by
  have hdispatched : ∀ r, dispatchedUnder { st with calls := st.calls ++ [call], queues := st.queues.set q queue' } r =
      st.dispatchedUnder r ++ if call.registration = r then [st.calls.length] else [] := dispatchedUnder_addCall rfl
  have hhanded : ∀ r, handedOf { st with calls := st.calls ++ [call], queues := st.queues.set q queue' } r =
      st.handedOf r := handedOf_addCall rfl rfl h.handed
  refine h.of_registrations rfl (map_set_of_eq hq hr') ?_ ?_ ?_
  · intro c hc
    show c < (st.calls ++ [call]).length
    rw [List.length_append]
    exact Nat.lt_add_right _ (h.handed c hc)
  · intro q₁ queue₁ queue₁' hq₁ hq₁' heq
    rw [hhanded, hdispatched]
    rcases (getElem?_set_eq_some hq).mp hq₁' with ⟨-, rfl⟩ | ⟨hne, hq₁'⟩
    · rw [hr', hitems, if_pos hr, ← List.append_assoc, h.own q queue hq]
    · have hother : call.registration ≠ queue₁'.registration :=
        fun heq => hne (h.unique q₁ q queue₁' queue hq₁' hq (heq.symm.trans hr))
      rw [if_neg hother, List.append_nil]
      exact h.own q₁ queue₁' hq₁'
  · intro r hcpu hnone
    have hne : call.registration ≠ r := by
      rw [hr]
      exact hnone queue (List.mem_of_getElem? hq)
    rw [hhanded, hdispatched, if_neg hne, List.append_nil]
    exact h.fresh r hcpu hnone

theorem dispatch (h : Ordered st) (hdrains : drains st (.dispatch oid) = true) : Ordered (st.dispatch oid) := by
  rcases dispatch_cases st oid with ⟨-, heq⟩ | ⟨r, hr, hcases⟩
  · rw [heq]
    exact h
  · have hguard : st.cpuBoundOf r = true → ∃ q queue, st.workerQueues.get oid = some q ∧
        st.queues[q]? = some queue ∧ queue.registration = r := by
      intro hcpu
      unfold drains at hdrains
      simp only [hr, Option.all_some, hcpu, Bool.not_true, Bool.false_or] at hdrains
      exact hasQueueOf_iff.mp hdrains
    rcases hcases with ⟨q, queue, hcpu, htable, hq, heq⟩ | ⟨hcpu, hnone, -⟩ | ⟨hinline, heq⟩
    · obtain ⟨q', queue', htable', hq', rfl⟩ := hguard hcpu
      rw [htable] at htable'
      cases htable'
      rw [hq] at hq'
      cases hq'
      rw [heq]
      exact h.addQueued hq rfl rfl rfl
    · obtain ⟨q, queue, htable, hq, -⟩ := hguard hcpu
      rw [hnone q htable] at hq
      cases hq
    · rw [heq]
      exact h.addInline hinline

theorem processed (h : Ordered st) {result : Except PyError (List (Record F))}
    (hstep : st.processed c result = some st') : Ordered st' := by
  obtain ⟨oid, r, outputs, emitAs, hc, rfl⟩ := processed_eq_some hstep
  exact h.of_eq rfl (map_set_of_eq hc rfl) rfl rfl

theorem send (h : Ordered st) {accepted : Bool} (hstep : st.send c accepted = some st') : Ordered st' := by
  obtain ⟨oid, r, outputs, payload, pending, hc, ⟨-, rfl⟩ | ⟨-, rfl⟩⟩ := send_eq_some hstep
  · exact h.of_eq rfl (map_set_of_eq hc rfl) rfl rfl
  · exact h.of_eq rfl (map_set_of_eq hc rfl) rfl rfl

/-- The first item of a queue belongs to the registration of the queue. -/
theorem registrationOf_item (h : Ordered st) {queue : WorkQueue} (hq : st.queues[q]? = some queue)
    (hmem : c ∈ queue.items) : st.registrationOf c = some queue.registration := by
  apply mem_dispatchedUnder.mp
  rw [← h.own q queue hq]
  exact List.mem_append_right _ hmem

theorem takeItem (h : Ordered st) (hstep : st.takeItem w = some st') : Ordered st' := by
  obtain ⟨oid, q, queue, c, items, call, -, hq, hitems, hc, rfl⟩ := takeItem_eq_some hstep
  have hr : st.registrationOf c = some queue.registration :=
    h.registrationOf_item hq (by rw [hitems]; exact List.mem_cons_self)
  generalize hst' : { st with
      queues  := st.queues.set q { queue with items := items }
      workers := st.workers.set w ⟨oid, .busy q c⟩
      calls   := st.calls.set c { call with phase := .processing oid }
      handed  := st.handed ++ [c] } = st'
  have hcalls : st'.calls.map (·.registration) = st.calls.map (·.registration) := by
    rw [← hst']
    exact map_set_of_eq hc rfl
  -- the item goes from the head of its queue to the end of those handed over
  have hhanded := handedOf_concat (c := c) hcalls (by rw [← hst'])
  refine h.of_registrations (by rw [← hst']) (by rw [← hst']; exact map_set_of_eq hq rfl) ?_ ?_ ?_
  · intro c' hc'
    rw [← hst'] at hc' ⊢
    show c' < (st.calls.set c _).length
    rw [List.length_set]
    rcases List.mem_append.mp hc' with hc' | hc'
    · exact h.handed c' hc'
    · rw [List.mem_singleton.mp hc']
      exact lt_length_of_getElem? hc
  · intro q₁ queue₁ queue₁' hq₁ hq₁' heq
    rw [dispatchedUnder_congr hcalls, hhanded]
    rw [← hst'] at hq₁'
    -- its own queue: what was dispatched is the same sequence, cut one call later
    rcases (getElem?_set_eq_some hq).mp hq₁' with ⟨-, rfl⟩ | ⟨hne, hq₁'⟩
    · rw [if_pos hr, List.append_assoc, ← h.own q queue hq, hitems]
      rfl
    -- another queue has another registration, for which nothing has changed
    · have hother : ¬ st.registrationOf c = some queue₁'.registration := by
        rw [hr]
        exact fun heq => hne (h.unique q₁ q queue₁' queue hq₁' hq (Option.some.inj heq).symm)
      rw [if_neg hother, List.append_nil]
      exact h.own q₁ queue₁' hq₁'
  · intro r hcpu hnone
    have hother : ¬ st.registrationOf c = some r := by
      rw [hr]
      exact fun heq => hnone queue (List.mem_of_getElem? hq) (Option.some.inj heq)
    rw [dispatchedUnder_congr hcalls, hhanded, if_neg hother, List.append_nil]
    exact h.fresh r hcpu hnone

theorem step (h : Ordered st) (howned : Owned st) {event : Event F} (hstep : st.step event = some st')
    (hdrains : drains st event = true) : Ordered st' := by
  cases event with
  | register oid cpuBound outputTopics =>
      cases hstep
      exact h.register howned
  | makeQueue r => exact h.makeQueue hstep
  | dispatch oid =>
      cases hstep
      exact h.dispatch hdrains
  | processed c result => exact h.processed hstep
  | send c accepted => exact h.send hstep
  | startWorker w =>
      obtain ⟨oid, -, ⟨q, -, rfl⟩ | ⟨-, rfl⟩⟩ := startWorker_eq_some hstep
      · exact h.of_eq rfl rfl rfl rfl
      · exact h.of_eq rfl rfl rfl rfl
  | takeItem w => exact h.takeItem hstep
  | taskDone w =>
      obtain ⟨oid, q, c, queue, oid', r, outputs, -, hq, -, rfl⟩ := taskDone_eq_some hstep
      exact h.of_eq rfl rfl (map_set_of_eq hq rfl) rfl
  | deregister oid =>
      cases hstep
      exact h.of_eq (by simp) (by simp) (by simp) (by simp)
  | joined d =>
      obtain ⟨oid, r, q, -, -, rfl⟩ := joined_eq_some hstep
      exact h.of_eq rfl rfl rfl rfl

end Ordered

end Tasks
end Hea
end HybridStream
