import HybridStream.Hea.Engine
import HybridStream.Py.Exact
import Mathlib.Data.List.Induction

/-!
# `Hea.Correctness.Fanout` — when a record is dispatched once to every subscriber

`register_operator` appends to the topic bindings and nothing ever removes from them: not
`deregister_operator`, not a later registration. The bindings of a topic therefore hold an operator as often
as *all* its registrations together list the topic (`Tracks`), while the other dictionaries follow the latest
one. `_dispatch` skips the ids that are gone (`dispatches_eq`), so a stale binding shows once its operator is
back (`exact_fanout_iff`).
-/

namespace HybridStream
namespace Hea
namespace Engine

open Lib Py

variable {F σ : Type}

/-! ## Subscriptions

Who subscribes to what, from the history alone: the topics of the latest registration, as long as there is one. The
table of the engine may say more, as a deregistration leaves the bindings behind. -/

/-- The input topics of the operator's latest registration, as long as it is registered. -/
def track (oid : String) (topics : Option (List String)) : Event F → Option (List String)
  | .register oid' _ inputTopics _ => if oid' = oid then some inputTopics else topics
  | .deregister oid'               => if oid' = oid then none else topics
  | _                              => topics

def current (events : List (Event F)) (oid : String) : Option (List String) := events.foldl (track oid) none

/-- The input topics of all registrations of the operator. -/
def registrations (events : List (Event F)) (oid : String) : List (List String) :=
  events.flatMap (fun event => match event with
    | .register oid' _ inputTopics _ => if oid' = oid then [inputTopics] else []
    | _                              => [])

/-- The operator is registered, and its latest registration lists the topic. -/
def subscribed (events : List (Event F)) (topic oid : String) : Bool :=
  (current events oid).any (topic ∈ ·)

/-- How often a record, consumed now, is dispatched to an operator. -/
def dispatches (accepts : Nat → Bool) (e : Engine F σ) (d : Delivery F) (oid : String) : Nat :=
  (e.consume accepts d).2.countP (fun x => x.1 = oid ∧ x.2 ≠ .ignored)

/-- Wherever it comes from, a record with this content is dispatched once to every subscriber of its topic,
    and to nobody else. -/
def ExactFanout (accepts : Nat → Bool) (events : List (Event F)) (e : Engine F σ) (clock : Clock F)
    (record : Record F) : Prop :=
  ∀ origin oid, e.dispatches accepts ⟨origin, clock, record⟩ oid =
    if subscribed events origin.topic oid then 1 else 0

/-- Every registered operator lists no topic twice, and listed no topic in an earlier registration. -/
def FirstBinding (events : List (Event F)) : Prop :=
  ∀ oid topics, current events oid = some topics →
    topics.Nodup ∧ ∀ earlier ∈ (registrations events oid).dropLast, earlier = []

/-! ## Dispatching over the bindings of a topic

A record is dispatched along the list of bindings, so an operator gets it as often as it is listed, if it is
registered. -/

section Dispatching

variable {accepts : Nat → Bool} {e : Engine F σ}

/-- `_dispatch` reaches exactly the registered operators. -/
theorem dispatch_ne_ignored (accepts : Nat → Bool) (he : e.Sound) (oid : String) (d : Delivery F) :
    (e.dispatch accepts oid d).2 ≠ .ignored ↔ (e.operators.get oid).isSome := by
  unfold dispatch
  split
  · rename_i hget
    simp [hget]
  · rename_i op hget
    rw [hget]
    split
    · rename_i hcpu
      obtain ⟨q, -, hq⟩ := he oid op hget hcpu
      simp [hq]
    · simp

theorem countP_dispatchAll (d : Delivery F) (oid : String) (oids : List String) (he : e.Sound) :
    (dispatchAll accepts d oids e).2.countP (fun x => x.1 = oid ∧ x.2 ≠ .ignored) =
      if (e.operators.get oid).isSome then oids.count oid else 0 := by
  induction oids generalizing e with
  | nil => simp [dispatchAll]
  | cons oid' oids ih =>
      have hsame : e.SameRegistry (e.dispatch accepts oid' d).1 := .dispatch d
      have hrest := ih (he.of_sameRegistry hsame)
      rw [hsame.operators] at hrest
      have hhead := dispatch_ne_ignored accepts he oid' d
      unfold dispatchAll
      dsimp only
      rw [List.countP_cons, hrest]
      by_cases hoid : oid' = oid
      · subst hoid
        cases hget : (e.operators.get oid').isSome with
        | true  => simp [hhead.mpr hget]
        | false => simp [mt hhead.mp (by simp [hget])]
      · simp [hoid]

/-- A record is dispatched to a registered operator as often as its topic is bound to it. -/
theorem dispatches_eq (he : e.Sound) (d : Delivery F) (oid : String) :
    e.dispatches accepts d oid =
      if (e.operators.get oid).isSome then (e.bindings d.origin.topic).count oid else 0 :=
  countP_dispatchAll d oid _ he

end Dispatching

/-! ## What the dictionaries hold

The invariant that ties the tables to the history: an operator is bound to a topic as often as all its registrations
have listed it, and registered if the last one is current. -/

/-- The engine's dictionaries after a history. -/
structure Tracks (events : List (Event F)) (e : Engine F σ) : Prop where
  operators : ∀ oid, (e.operators.get oid).isSome = (current events oid).isSome
  bindings  : ∀ topic oid, (e.bindings topic).count oid = (registrations events oid).flatten.count topic

section History

variable {accepts : Nat → Bool} {heap : Nat → OperatorObject F σ} {events : List (Event F)}
variable {e e' : Engine F σ}

theorem current_append (events : List (Event F)) (event : Event F) (oid : String) :
    current (events ++ [event]) oid = track oid (current events oid) event := by
  unfold current
  rw [List.foldl_append]
  rfl

theorem registrations_append (events : List (Event F)) (event : Event F) (oid : String) :
    registrations (events ++ [event]) oid = registrations events oid ++ registrations [event] oid :=
  List.flatMap_append

section Bookkeeping

variable {oid oid' : String} {op : Nat} {inputTopics outputTopics : List String}

theorem track_register (topics : Option (List String)) :
    track oid topics (.register oid' op inputTopics outputTopics : Event F) =
      if oid' = oid then some inputTopics else topics := rfl

theorem track_deregister (topics : Option (List String)) :
    track oid topics (.deregister oid' : Event F) = if oid' = oid then none else topics := rfl

theorem registrations_register :
    registrations [(.register oid' op inputTopics outputTopics : Event F)] oid =
      if oid' = oid then [inputTopics] else [] := List.append_nil _

end Bookkeeping

/-- The current registration of an operator is its last one. -/
theorem registrations_of_current {oid : String} {topics : List String}
    (h : current events oid = some topics) : ∃ earlier, registrations events oid = earlier ++ [topics] := by
  induction events using List.reverseRecOn with
  | nil => cases h
  | append_singleton events event ih =>
      rw [current_append] at h
      rw [registrations_append]
      cases event with
      | register oid' op inputTopics outputTopics =>
          rw [track_register] at h
          rw [registrations_register]
          by_cases hoid : oid' = oid
          · rw [if_pos hoid] at h ⊢
            cases h
            exact ⟨registrations events oid, rfl⟩
          · rw [if_neg hoid] at h ⊢
            obtain ⟨earlier, heq⟩ := ih h
            exact ⟨earlier, by rw [heq, List.append_nil]⟩
      | deregister oid' =>
          rw [track_deregister] at h
          obtain ⟨-, h⟩ := Option.ite_none_left_eq_some.mp h
          obtain ⟨earlier, heq⟩ := ih h
          exact ⟨earlier, (List.append_nil _).trans heq⟩
      | consume d | work w event =>
          obtain ⟨earlier, heq⟩ := ih h
          exact ⟨earlier, (List.append_nil _).trans heq⟩

/-- Consuming and working leave no trace in the bookkeeping. -/
theorem Tracks.of_sameRegistry {event : Event F} (ht : Tracks events e) (h : e.SameRegistry e')
    (hcurrent : ∀ oid, track oid (current events oid) event = current events oid)
    (hreg : ∀ oid, registrations [event] oid = []) : Tracks (events ++ [event]) e' where
  operators oid := by rw [h.operators, current_append, hcurrent, ht.operators]
  bindings topic oid := by
    rw [registrations_append, hreg, List.append_nil]
    unfold Engine.bindings
    rw [h.topicBindings]
    exact ht.bindings topic oid

theorem Tracks.registerOperator (ht : Tracks events e) (op : Nat) (inputTopics outputTopics : List String) :
    Tracks (events ++ [.register (e.operatorIdOf op) op inputTopics outputTopics])
      (e.registerOperator op inputTopics outputTopics) where
  operators oid := by
    rw [operators_registerOperator, current_append, Dict.get_set, track_register]
    by_cases hoid : oid = e.operatorIdOf op
    · rw [if_pos hoid, if_pos hoid.symm]
      rfl
    · rw [if_neg hoid, if_neg (Ne.symm hoid)]
      exact ht.operators oid
  bindings topic oid := by
    rw [bindings_registerOperator, registrations_append, registrations_register, List.count_append,
      ht.bindings, List.flatten_append, List.count_append, List.count_replicate]
    by_cases hoid : e.operatorIdOf op = oid
    · simp [hoid]
    · simp [hoid]

/-- The bindings of a deregistered operator stay. -/
theorem Tracks.deregisterOperator (ht : Tracks events e) (oid : String) :
    Tracks (events ++ [.deregister oid]) (e.deregisterOperator oid) where
  operators oid' := by
    rw [operators_deregisterOperator, current_append, track_deregister]
    by_cases hoid : oid' = oid
    · rw [if_pos hoid, if_pos hoid.symm]
      rfl
    · rw [if_neg hoid, if_neg (Ne.symm hoid)]
      exact ht.operators oid'
  bindings topic oid' := by
    rw [bindings_deregisterOperator, registrations_append, ht.bindings]
    rw [show registrations [(.deregister oid : Event F)] oid' = [] from rfl, List.append_nil]

theorem tracks_of_run (h : (system accepts heap).Run (started heap) events e) : Tracks events e := by
  induction h with
  | refl => exact ⟨fun _ => rfl, fun _ _ => rfl⟩
  | @tail events e event e' _ hstep ih =>
      cases event with
      | register oid op inputTopics outputTopics =>
          obtain ⟨rfl, hreg⟩ := Option.ite_none_right_eq_some.mp hstep
          cases hreg
          exact ih.registerOperator op inputTopics outputTopics
      | deregister oid =>
          obtain ⟨-, hdereg⟩ := Option.ite_none_right_eq_some.mp hstep
          cases hdereg
          exact ih.deregisterOperator oid
      | consume d =>
          cases hstep
          exact ih.of_sameRegistry (.dispatchAll d _ e) (fun _ => rfl) (fun _ => rfl)
      | work w event => exact ih.of_sameRegistry (.workerStep hstep) (fun _ => rfl) (fun _ => rfl)

end History

/-! ## The result

Once for each subscriber and not at all for others is a condition on the bindings, and so on the history: no operator
has been registered before for a topic that it has now. -/

/-- The last list holds each of its elements once, and the earlier lists none at all. -/
theorem count_flatten_iff (earlier : List (List String)) (topics : List String) :
    (∀ topic, (earlier ++ [topics]).flatten.count topic = if topic ∈ topics then 1 else 0) ↔
      topics.Nodup ∧ ∀ ts ∈ earlier, ts = [] := by
  have hcount : ∀ topic, (earlier ++ [topics]).flatten.count topic =
      earlier.flatten.count topic + topics.count topic := by
    intro topic
    rw [List.flatten_append, List.count_append]
    simp
  constructor
  · intro h
    have hle : ∀ topic, earlier.flatten.count topic = 0 ∧ topics.count topic ≤ 1 := by
      intro topic
      have htopic := h topic
      rw [hcount] at htopic
      by_cases hmem : topic ∈ topics
      · have hpos : 0 < topics.count topic := List.count_pos_iff.mpr hmem
        rw [if_pos hmem] at htopic
        omega
      · rw [if_neg hmem] at htopic
        omega
    refine ⟨List.nodup_iff_count_le_one.mpr fun topic => (hle topic).2, fun ts hts => ?_⟩
    apply List.eq_nil_iff_forall_not_mem.mpr
    intro topic htopic
    have hflat : topic ∈ earlier.flatten := List.mem_flatten.mpr ⟨ts, hts, htopic⟩
    exact List.count_eq_zero.mp (hle topic).1 hflat
  · rintro ⟨hnodup, hnil⟩ topic
    have hflat : earlier.flatten = [] := List.flatten_eq_nil_iff.mpr hnil
    rw [hcount, hflat, List.count_nil, Nat.zero_add]
    split
    · rename_i hmem
      exact List.count_eq_one_of_mem hnodup hmem
    · rename_i hmem
      exact List.count_eq_zero.mpr hmem

/-- **Records fan out exactly, if and only if no operator has come back to a topic.** The bindings of the engine are
    read off the events (`tracks_of_run`), so the dispatches of a record to an operator are the number of times its
    topic was bound to it. -/
theorem exact_fanout_iff {accepts : Nat → Bool} {heap : Nat → OperatorObject F σ}
    {events : List (Event F)} {e : Engine F σ} (h : (system accepts heap).Run (started heap) events e)
    (clock : Clock F) (record : Record F) :
    ExactFanout accepts events e clock record ↔ FirstBinding events := by
  have ht := tracks_of_run h
  -- the dispatches to a registered operator are counted by its registrations
  have hdispatches : ∀ origin oid, e.dispatches accepts ⟨origin, clock, record⟩ oid =
      if (current events oid).isSome then (registrations events oid).flatten.count origin.topic else 0 := by
    intro origin oid
    rw [dispatches_eq (sound_of_run h), ht.operators, ht.bindings]
  constructor
  · intro hexact oid topics hcurrent
    obtain ⟨earlier, hreg⟩ := registrations_of_current hcurrent
    rw [hreg, List.dropLast_concat]
    apply (count_flatten_iff earlier topics).mp
    intro topic
    have htopic := hexact ⟨topic, 0, 0⟩ oid
    rw [hdispatches, hcurrent, hreg] at htopic
    simpa [subscribed, hcurrent] using htopic
  · intro hfirst origin oid
    rw [hdispatches]
    cases hcurrent : current events oid with
    | none => simp [subscribed, hcurrent]
    | some topics =>
        obtain ⟨earlier, hreg⟩ := registrations_of_current hcurrent
        have hboth := hfirst oid topics hcurrent
        rw [hreg, List.dropLast_concat] at hboth
        have hcount := (count_flatten_iff earlier topics).mpr hboth origin.topic
        rw [hreg]
        simpa [subscribed, hcurrent] using hcount

section Steps

variable (accepts : Nat → Bool) (heap : Nat → OperatorObject F σ) (e : Engine F σ) (oid : String)

theorem step_register {op : Nat} (h : e.operatorIdOf op = oid) (inputTopics outputTopics : List String) :
    (system accepts heap).step e (.register oid op inputTopics outputTopics)
      (e.registerOperator op inputTopics outputTopics) := if_pos h

theorem step_deregister (h : (e.workerQueues.get oid).all e.joined = true) :
    (system accepts heap).step e (.deregister oid) (e.deregisterOperator oid) := if_pos h

end Steps

/-- Operators that count, all of them with the id `op`. -/
def countingHeap (cpuBound : Bool) : Nat → OperatorObject ℚ Nat :=
  fun _ => ⟨BaseOperator.counting "op", cpuBound, 0⟩

/-- A record from the first partition of a topic. -/
def sampleDelivery (topic : String) (offset : Nat) : Delivery ℚ := ⟨⟨topic, 0, offset⟩, ⟨0, fun _ => 0⟩, ∅⟩

theorem exact_fanout_iff_registered :
    ExactFanout (fun _ => true) [.register "op" 0 ["raw"] []]
      ((started (countingHeap false)).registerOperator 0 ["raw"] []) ⟨0, fun _ => 0⟩ ∅ := by
  have hstep := step_register (fun _ => true) (countingHeap false) (started (countingHeap false)) "op"
    (rfl : operatorIdOf _ 0 = "op") ["raw"] []
  refine (exact_fanout_iff (.head hstep .refl) _ _).mpr ?_
  intro oid topics hcurrent
  obtain ⟨rfl, rfl⟩ : "op" = oid ∧ ["raw"] = topics := by simpa [current, track] using hcurrent
  decide

/-- An operator that migrates away and back gets every record twice. -/
theorem dispatched_twice_after_return :
    ∃ (events : List (Event ℚ)) (e : Engine ℚ Nat),
      events = [.register "op" 0 ["raw"] [], .deregister "op", .register "op" 1 ["raw"] []] ∧
      (system (fun _ => true) (countingHeap false)).Run (started (countingHeap false)) events e ∧
      subscribed events "raw" "op" = true ∧
      e.dispatches (fun _ => true) (sampleDelivery "raw" 0) "op" = 2 ∧
      ¬ ExactFanout (fun _ => true) events e ⟨0, fun _ => 0⟩ ∅ := by
  let e₁ : Engine ℚ Nat := (started (countingHeap false)).registerOperator 0 ["raw"] []
  let e₂ : Engine ℚ Nat := e₁.deregisterOperator "op"
  have hthere := step_register (fun _ => true) (countingHeap false) (started (countingHeap false)) "op"
    (rfl : operatorIdOf _ 0 = "op") ["raw"] []
  have haway := step_deregister (fun _ => true) (countingHeap false) e₁ "op" (by decide)
  have hback := step_register (fun _ => true) (countingHeap false) e₂ "op"
    (rfl : operatorIdOf _ 1 = "op") ["raw"] []
  refine ⟨_, _, rfl, .head hthere (.head haway (.head hback .refl)), by decide, by decide, fun hexact => ?_⟩
  have honce := hexact ⟨"raw", 0, 0⟩ "op"
  revert honce
  decide

end Engine
end Hea
end HybridStream
