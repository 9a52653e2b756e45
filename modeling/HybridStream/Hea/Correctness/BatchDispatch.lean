import HybridStream.Hea.Correctness.AtLeastOnce
import Mathlib.Data.List.Nodup

/-!
# `Hea.Correctness.BatchDispatch` — a batch and the records in it that do not decode

A record that does not decode ends the batch: the exception leaves both loops of `_consume_loop`, and the
positions are past the whole batch already. Whatever came behind the record, in its partition or in the next, is
never dispatched, and the commit of a later batch covers it.

`Dispatching` follows a consumption with what has been fetched and dispatched since the process started. As long as
nothing dispatchable comes behind an undecodable record of its batch, the dispatches are those of the fetched
messages in order (`Followed`), and below a committed offset every message has had its dispatches, once
(`batch_dispatched`).
-/

namespace HybridStream
namespace Hea

open Lib Py

variable {F σ : Type}

/-- A consumption and, since its process started, the messages fetched and the calls of `_dispatch`, by topic. -/
structure Dispatching (F σ : Type) where
  consumption : Consumption F σ
  fetched     : String → List Message
  dispatched  : String → List (String × Origin)

namespace Dispatching

open Consumption

/-! ## The history of a process

What a process has fetched and dispatched since it started, kept beside the consumption and never read by it. -/

variable (log : String → Log) (deserialize : List UInt8 → Except PyError (Record F))

/-- The history after an event that leads to the consumption `c`. -/
def follow (st : Dispatching F σ) (c : Consumption F σ) : ConsumeEvent F σ → Dispatching F σ
  | .getmany topic upto =>
      { st with
        consumption := c
        fetched     := Function.update st.fetched topic
          (st.fetched topic ++ (fetch (log topic) upto (st.consumption.position topic)).1) }
  | .dispatch topic _ =>
      match st.consumption.loops topic with
      | .handling ((oid, d) :: _) _ =>
          { st with
            consumption := c
            dispatched  := Function.update st.dispatched topic (st.dispatched topic ++ [(oid, d.origin)]) }
      | _ => { st with consumption := c }
  -- a new process
  | .crash _ => ⟨c, fun _ => [], fun _ => []⟩
  | _ => { st with consumption := c }

def step (st : Dispatching F σ) (event : ConsumeEvent F σ) : Option (Dispatching F σ) :=
  (st.consumption.step log deserialize event).map (fun c => st.follow log c event)

/-- A consumption at its start, with an empty history. -/
structure Init (start : String → Nat → Nat) (st : Dispatching F σ) : Prop where
  consumption : Consumption.Init start st.consumption
  fetched     : st.fetched = fun _ => []
  dispatched  : st.dispatched = fun _ => []

def system (start : String → Nat → Nat) : Lts (Dispatching F σ) (ConsumeEvent F σ) :=
  Lts.ofStep (Init start) (step log deserialize)

/-! ## The property

Dispatched once to each operator bound to its topic, whatever partition the record is in. Where the operators that are
bound change, or one is bound twice, or a message does not decode with others behind it, that is not what the code
does: such steps are left out. -/

/-- The bytes of the message decode. -/
def decodes (message : Message) : Bool := (deserialize message.value).isOk

/-- Below a committed offset, every fetched record that decodes has been dispatched once to each operator bound to
    the topic. -/
def DispatchedOnce (st : Dispatching F σ) : Prop :=
  ∀ topic, ∀ message ∈ st.fetched topic, decodes deserialize message = true →
    message.offset < st.consumption.committed topic message.partition →
      ∀ oid ∈ st.consumption.engine.bindings topic,
        (st.dispatched topic).count (oid, ⟨topic, message.partition, message.offset⟩) = 1

/-- No record that decodes comes behind one that does not. -/
def cutOff (batch : List Message) : Bool :=
  batch.Pairwise (fun message later => decodes deserialize later = true → decodes deserialize message = true)

/-- Steps that lose nothing: where operators are bound to the topic, they are bound once, and the batch fetched has
    nothing to lose. -/
def lossless (st : Dispatching F σ) : ConsumeEvent F σ → Bool
  | .getmany topic upto =>
      let batch := (fetch (log topic) upto (st.consumption.position topic)).1
      let oids := st.consumption.engine.bindings topic
      oids = [] || batch.all (fun message => !decodes deserialize message) ||
        (oids.Nodup && cutOff deserialize batch)
  | _ => true

end Dispatching

/-! ## What `getmany` returns

The messages of a fetch are those between the old and the new positions, each once. -/

namespace Consumption

variable {log : Log} {position : Nat → Nat}

theorem mem_fetchPartition {partition upto : Nat} {message : Message}
    (h : message ∈ (fetchPartition log position partition upto).1) :
    message.partition = partition ∧ position partition ≤ message.offset ∧ message.offset < upto := by
  obtain ⟨offset, hmem, hsome⟩ := List.mem_filterMap.mp h
  obtain ⟨value, -, rfl⟩ := Option.map_eq_some_iff.mp hsome
  have hrange := List.mem_range'_1.mp hmem
  exact ⟨rfl, hrange.1, by dsimp only; omega⟩

theorem le_fetch (upto : List (Nat × Nat)) (position : Nat → Nat) (partition : Nat) :
    position partition ≤ (fetch log upto position).2 partition := by
  induction upto generalizing position with
  | nil => exact Nat.le_refl _
  | cons x rest ih =>
      refine Nat.le_trans ?_ (ih (fetchPartition log position x.1 x.2).2)
      show _ ≤ Function.update position x.1 (max (position x.1) x.2) partition
      by_cases heq : partition = x.1
      · rw [heq, Function.update_self]
        exact Nat.le_max_left _ _
      · rw [Function.update_of_ne heq]

/-- What is fetched lies between the positions before and after. -/
theorem mem_fetch {upto : List (Nat × Nat)} {message : Message} (h : message ∈ (fetch log upto position).1) :
    position message.partition ≤ message.offset ∧
      message.offset < (fetch log upto position).2 message.partition := by
  induction upto generalizing position with
  | nil => cases h
  | cons x rest ih =>
      rcases List.mem_append.mp h with hfirst | hrest
      · obtain ⟨hpartition, hle, hlt⟩ := mem_fetchPartition hfirst
        rw [hpartition]
        refine ⟨hle, Nat.lt_of_lt_of_le ?_ (le_fetch rest (fetchPartition log position x.1 x.2).2 x.1)⟩
        show message.offset < Function.update position x.1 (max (position x.1) x.2) x.1
        rw [Function.update_self]
        omega
      · obtain ⟨hle, hlt⟩ := ih hrest
        have hmono : position message.partition ≤ (fetch log [x] position).2 message.partition :=
          le_fetch [x] position message.partition
        exact ⟨Nat.le_trans hmono hle, hlt⟩

/-- No two messages of a batch have the same place. -/
theorem fetch_pairwise (upto : List (Nat × Nat)) (position : Nat → Nat) :
    (fetch log upto position).1.Pairwise
      (fun message later => ¬ (message.partition = later.partition ∧ message.offset = later.offset)) := by
  induction upto generalizing position with
  | nil => exact List.Pairwise.nil
  | cons x rest ih =>
      refine List.pairwise_append.mpr ⟨?_, ih _, ?_⟩
      · refine List.pairwise_filterMap.mpr ((List.pairwise_lt_range' ..).imp ?_)
        rintro offset offset' hlt message hmessage later hlater ⟨-, heq⟩
        obtain ⟨_, -, rfl⟩ := Option.map_eq_some_iff.mp hmessage
        obtain ⟨_, -, rfl⟩ := Option.map_eq_some_iff.mp hlater
        exact absurd heq (Nat.ne_of_lt hlt)
      · -- the rest is fetched from behind the first partition's new position
        rintro message hmessage later hlater ⟨hpartition, hoffset⟩
        obtain ⟨hx, -, hlt⟩ := mem_fetchPartition hmessage
        have hle : Function.update position x.1 (max (position x.1) x.2) later.partition ≤ later.offset :=
          (mem_fetch hlater).1
        rw [← hpartition, hx, Function.update_self] at hle
        omega

end Consumption

namespace Dispatching

open Consumption

variable {log : String → Log} {deserialize : List UInt8 → Except PyError (Record F)}

/-! ## The dispatches of messages

A message stands for one dispatch to each operator bound, or for none. Messages of different places have no dispatch
in common, so counting dispatches is counting messages. -/

/-- The dispatches of one message: none if it does not decode. -/
def dispatches (deserialize : List UInt8 → Except PyError (Record F)) (oids : List String) (topic : String)
    (message : Message) : List (String × Origin) :=
  if decodes deserialize message then oids.map (fun oid => (oid, ⟨topic, message.partition, message.offset⟩)) else []

/-- What a loop still has to dispatch. -/
def remaining (deserialize : List UInt8 → Except PyError (Record F)) (oids : List String) (topic : String) :
    Loop F → List (String × Origin)
  | .handling todo batch =>
      todo.map (fun x => (x.1, x.2.origin)) ++ batch.flatMap (dispatches deserialize oids topic)
  | _ => []

section Dispatches

variable {oids : List String} {topic : String} {message later : Message} {batch : List Message}

theorem mem_dispatches {x : String × Origin} (h : x ∈ dispatches deserialize oids topic message) :
    decodes deserialize message = true ∧ x.1 ∈ oids ∧ x.2 = ⟨topic, message.partition, message.offset⟩ := by
  unfold dispatches at h
  split at h
  · rename_i hdecodes
    obtain ⟨oid, hoid, rfl⟩ := List.mem_map.mp h
    exact ⟨hdecodes, hoid, rfl⟩
  · cases h

theorem mem_dispatches_of_decodes (hdecodes : decodes deserialize message = true) {oid : String} (hoid : oid ∈ oids) :
    (oid, ⟨topic, message.partition, message.offset⟩) ∈ dispatches deserialize oids topic message := by
  unfold dispatches
  rw [if_pos hdecodes]
  exact List.mem_map_of_mem hoid

/-- Messages of different places have no dispatch in common. -/
theorem dispatches_disjoint (h : ¬ (message.partition = later.partition ∧ message.offset = later.offset)) :
    List.Disjoint (dispatches deserialize oids topic message) (dispatches deserialize oids topic later) := by
  intro x hmessage hlater
  have horigin := (mem_dispatches hmessage).2.2.symm.trans (mem_dispatches hlater).2.2
  injection horigin with _ hpartition hoffset
  exact h ⟨hpartition, hoffset⟩

theorem dispatches_nodup (h : oids.Nodup ∨ decodes deserialize message = false) :
    (dispatches deserialize oids topic message).Nodup := by
  unfold dispatches
  split
  · rename_i hdecodes
    have hoids := h.resolve_right (by rw [hdecodes]; exact Bool.true_eq_false_eq_False.elim)
    exact hoids.map fun oid oid' heq => congrArg Prod.fst heq
  · exact List.nodup_nil

/-- The dispatches of an undecodable message's followers, in a batch that has nothing to lose. -/
theorem flatMap_dispatches_of_cutOff (hcut : oids = [] ∨ cutOff deserialize (message :: batch) = true)
    (hbad : decodes deserialize message = false) : batch.flatMap (dispatches deserialize oids topic) = [] := by
  apply List.flatMap_eq_nil_iff.mpr
  intro later hlater
  unfold dispatches
  rcases hcut with rfl | hcut
  · split <;> rfl
  · have hpairwise := List.rel_of_pairwise_cons (of_decide_eq_true hcut) hlater
    rw [if_neg fun hdecodes => ?_]
    rw [hpairwise hdecodes] at hbad
    cases hbad

end Dispatches

/-! ## The invariant

For one topic: what has been dispatched and what the loop has still to dispatch is together what the messages fetched
call for. The topics do not interfere, so the view of one topic is all that is followed. -/

/-- What there is of one topic: its loop, its offsets and its history. -/
structure TopicView (F : Type) where
  loop       : Loop F
  position   : Nat → Nat
  committed  : Nat → Nat
  fetched    : List Message
  dispatched : List (String × Origin)

def view (st : Dispatching F σ) (topic : String) : TopicView F :=
  ⟨st.consumption.loops topic, st.consumption.position topic, st.consumption.committed topic, st.fetched topic,
    st.dispatched topic⟩

/-- The loop of a topic dispatches, in order, what the messages fetched call for. -/
structure Followed (deserialize : List UInt8 → Except PyError (Record F)) (oids : List String) (topic : String)
    (v : TopicView F) : Prop where
  /-- A loop that has not ended has the rest in its hands. -/
  inOrder    : v.loop ≠ .stopped →
    v.fetched.flatMap (dispatches deserialize oids topic) = v.dispatched ++ remaining deserialize oids topic v.loop
  isPrefix   : v.dispatched <+: v.fetched.flatMap (dispatches deserialize oids topic)
  nodup      : (v.fetched.flatMap (dispatches deserialize oids topic)).Nodup
  below      : ∀ message ∈ v.fetched, message.offset < v.position message.partition
  committed  : ∀ partition, v.committed partition ≤ v.position partition
  /-- What a commit covers has been dispatched. -/
  covered    : ∀ message ∈ v.fetched, message.offset < v.committed message.partition →
    ∀ x ∈ dispatches deserialize oids topic message, x ∈ v.dispatched
  cut        : ∀ todo batch, v.loop = .handling todo batch → oids = [] ∨ cutOff deserialize batch = true

namespace Followed

variable {oids : List String} {topic : String} {v : TopicView F}

/-- A loop that moves on without dispatching anything. -/
theorem withLoop (h : Followed deserialize oids topic v) {loop : Loop F} (hne : v.loop ≠ .stopped)
    (hremaining : remaining deserialize oids topic v.loop = remaining deserialize oids topic loop)
    (hcut : ∀ todo batch, loop = .handling todo batch → oids = [] ∨ cutOff deserialize batch = true) :
    Followed deserialize oids topic { v with loop := loop } where
  inOrder _ := hremaining ▸ h.inOrder hne
  isPrefix  := h.isPrefix
  nodup     := h.nodup
  below     := h.below
  committed := h.committed
  covered   := h.covered
  cut       := hcut

theorem stop (h : Followed deserialize oids topic v) : Followed deserialize oids topic { v with loop := .stopped } where
  inOrder hne := absurd rfl hne
  isPrefix    := h.isPrefix
  nodup       := h.nodup
  below       := h.below
  committed   := h.committed
  covered     := h.covered
  cut         := nofun

/-- A batch is fetched. -/
theorem getmany (h : Followed deserialize oids topic v) (hloop : v.loop = .polling) (log : Log)
    (upto : List (Nat × Nat))
    (hcut : oids = [] ∨ cutOff deserialize (fetch log upto v.position).1 = true)
    (hnodup : ∀ message ∈ (fetch log upto v.position).1, oids.Nodup ∨ decodes deserialize message = false) :
    Followed deserialize oids topic { v with
      loop     := .handling [] (fetch log upto v.position).1
      position := (fetch log upto v.position).2
      fetched  := v.fetched ++ (fetch log upto v.position).1 } where
  inOrder _ := by
    have hall := h.inOrder (by rw [hloop]; exact nofun)
    rw [hloop] at hall
    show (v.fetched ++ _).flatMap _ = _ ++ ([] ++ _)
    rw [List.flatMap_append, hall, List.append_assoc]
    rfl
  isPrefix := by
    dsimp only
    rw [List.flatMap_append]
    exact h.isPrefix.trans (List.prefix_append _ _)
  nodup := by
    dsimp only
    rw [List.flatMap_append]
    refine List.nodup_append'.mpr ⟨h.nodup, ?_, ?_⟩
    · exact List.nodup_flatMap.mpr ⟨fun message hmem => dispatches_nodup (hnodup message hmem),
        (fetch_pairwise upto v.position).imp dispatches_disjoint⟩
    · -- what was fetched before lies below the old position
      intro x hold hnew
      obtain ⟨message, hmessage, hx⟩ := List.mem_flatMap.mp hold
      obtain ⟨later, hlater, hx'⟩ := List.mem_flatMap.mp hnew
      refine dispatches_disjoint ?_ hx hx'
      rintro ⟨hpartition, hoffset⟩
      have hlt := h.below message hmessage
      have hle := (mem_fetch hlater).1
      rw [hpartition, hoffset] at hlt
      omega
  below message hmem := by
    rcases List.mem_append.mp hmem with hold | hnew
    · exact Nat.lt_of_lt_of_le (h.below message hold) (le_fetch upto v.position _)
    · exact (mem_fetch hnew).2
  committed partition := Nat.le_trans (h.committed partition) (le_fetch upto v.position partition)
  -- no message of the new batch is below the committed offset, as that is behind the old position
  covered message hmem hlt := by
    rcases List.mem_append.mp hmem with hold | hnew
    · exact h.covered message hold hlt
    · have hle := (mem_fetch hnew).1
      have hcommitted := h.committed message.partition
      exact absurd hlt (by dsimp only; omega)
  cut todo batch heq := by
    cases heq
    exact hcut

/-- The first of what remains is dispatched. -/
theorem dispatch (h : Followed deserialize oids topic v) {oid : String} {d : Delivery F}
    {todo : List (String × Delivery F)} {batch : List Message} (hloop : v.loop = .handling ((oid, d) :: todo) batch) :
    Followed deserialize oids topic { v with
      loop       := .handling todo batch
      dispatched := v.dispatched ++ [(oid, d.origin)] } := by
  have hall := h.inOrder (by rw [hloop]; exact nofun)
  rw [hloop] at hall
  have hall' : v.fetched.flatMap (dispatches deserialize oids topic) =
      (v.dispatched ++ [(oid, d.origin)]) ++ remaining deserialize oids topic (.handling todo batch) := by
    rw [hall, List.append_assoc]
    rfl
  refine ⟨fun _ => hall', hall' ▸ List.prefix_append _ _, h.nodup, h.below, h.committed, ?_, ?_⟩
  · intro message hmem hlt x hx
    exact List.mem_append_left _ (h.covered message hmem hlt x hx)
  · rintro _ _ ⟨⟩
    exact h.cut _ _ hloop

/-- A batch is committed. -/
theorem commit (h : Followed deserialize oids topic v) (hloop : v.loop = .handling [] []) (carriedOut : Bool) :
    Followed deserialize oids topic { v with
      loop      := .polling
      committed := if carriedOut then v.position else v.committed } := by
  have hpolling : Followed deserialize oids topic { v with loop := .polling } :=
    h.withLoop (by rw [hloop]; exact nofun) (by rw [hloop]; rfl) nofun
  cases carriedOut with
  | false => exact hpolling
  | true =>
      refine ⟨hpolling.inOrder, h.isPrefix, h.nodup, h.below, fun _ => Nat.le_refl _, ?_, nofun⟩
      -- nothing of what was fetched is left to dispatch
      intro message hmem _ x hx
      have hall := hpolling.inOrder nofun
      have hin : x ∈ v.fetched.flatMap (dispatches deserialize oids topic) := List.mem_flatMap.mpr ⟨message, hmem, hx⟩
      rw [show v.fetched.flatMap _ = v.dispatched ++ [] from hall, List.append_nil] at hin
      exact hin

end Followed

/-! ## The steps

What an event does to the views: it changes the view of its own topic, by one of the moves above, and leaves the
others as they are. -/

/-- Every loop dispatches what its messages call for. -/
def Following (deserialize : List UInt8 → Except PyError (Record F)) (st : Dispatching F σ) : Prop :=
  ∀ topic, Followed deserialize (st.consumption.engine.bindings topic) topic (view st topic)

section Steps

variable {start : String → Nat → Nat} {st st' : Dispatching F σ} {topic : String}

theorem lossless_getmany {upto : List (Nat × Nat)}
    (h : lossless log deserialize st (.getmany topic upto) = true) :
    (st.consumption.engine.bindings topic = [] ∨
      cutOff deserialize (fetch (log topic) upto (st.consumption.position topic)).1 = true) ∧
    ∀ message ∈ (fetch (log topic) upto (st.consumption.position topic)).1,
      (st.consumption.engine.bindings topic).Nodup ∨ decodes deserialize message = false := by
  unfold lossless at h
  simp only [Bool.or_eq_true, Bool.and_eq_true, decide_eq_true_eq, List.all_eq_true, Bool.not_eq_true'] at h
  rcases h with (hnil | hall) | ⟨hnodup, hcut⟩
  · rw [hnil]
    exact ⟨Or.inl rfl, fun _ _ => Or.inl List.nodup_nil⟩
  · refine ⟨Or.inr (decide_eq_true (List.pairwise_of_forall_mem_list fun _ _ later hlater hdecodes => ?_)),
      fun message hmem => Or.inr (hall message hmem)⟩
    rw [hall later hlater] at hdecodes
    cases hdecodes
  · exact ⟨Or.inr hcut, fun _ _ => Or.inl hnodup⟩

/-- A step that changes one topic keeps the loops following if that topic's stays so. -/
theorem Following.of_view (h : Following deserialize st) {v : TopicView F}
    (hbindings : ∀ topic', st'.consumption.engine.bindings topic' = st.consumption.engine.bindings topic')
    (hself : view st' topic = v) (hother : ∀ topic' ≠ topic, view st' topic' = view st topic')
    (hfollowed : Followed deserialize (st.consumption.engine.bindings topic) topic v) :
    Following deserialize st' := by
  intro topic'
  rw [hbindings]
  by_cases heq : topic' = topic
  · rw [heq, hself]
    exact hfollowed
  · rw [hother topic' heq]
    exact h topic'

/-- A loop that moves on without dispatching anything. -/
theorem Following.withLoop (h : Following deserialize st) {loop : Loop F}
    (hne : st.consumption.loops topic ≠ .stopped)
    (hremaining : remaining deserialize (st.consumption.engine.bindings topic) topic (st.consumption.loops topic) =
      remaining deserialize (st.consumption.engine.bindings topic) topic loop)
    (hcut : ∀ todo batch, loop = .handling todo batch →
      st.consumption.engine.bindings topic = [] ∨ cutOff deserialize batch = true) :
    Following deserialize { st with consumption := st.consumption.withLoop topic loop } := by
  refine h.of_view (fun _ => rfl) ?_ ?_ ((h topic).withLoop hne hremaining hcut)
  · simp [view, Consumption.withLoop]
  · intro topic' hother
    simp [view, Consumption.withLoop, hother]

/-- A step of the engine alone. -/
theorem Following.of_engine (h : Following deserialize st) {e : Engine F σ}
    (hsame : st.consumption.engine.SameRegistry e) :
    Following deserialize { st with consumption := { st.consumption with engine := e } } := by
  intro topic
  have hbindings : e.bindings topic = st.consumption.engine.bindings topic := by
    unfold Engine.bindings
    rw [hsame.topicBindings]
  show Followed deserialize (e.bindings topic) topic (view st topic)
  rw [hbindings]
  exact h topic

theorem Following.getmany (h : Following deserialize st) {upto : List (Nat × Nat)}
    (hstep : st.step log deserialize (.getmany topic upto) = some st')
    (hlossless : lossless log deserialize st (.getmany topic upto) = true) : Following deserialize st' := by
  obtain ⟨c, hc, rfl⟩ := Option.map_eq_some_iff.mp hstep
  obtain ⟨hloop, rfl⟩ := Consumption.getmany_eq_some hc
  obtain ⟨hcut, hnodup⟩ := lossless_getmany hlossless
  refine h.of_view (fun _ => rfl) ?_ ?_ ((h topic).getmany hloop (log topic) upto hcut hnodup)
  · simp [view, follow, Consumption.withLoop]
  · intro topic' hne
    simp [view, follow, Consumption.withLoop, hne]

theorem Following.next (h : Following deserialize st) {clock : Clock F}
    (hstep : st.step log deserialize (.next topic clock) = some st') : Following deserialize st' := by
  obtain ⟨c, hc, rfl⟩ := Option.map_eq_some_iff.mp hstep
  obtain ⟨message, batch, hloop, hcases⟩ := Consumption.next_eq_some hc
  have hcut := (h topic).cut [] (message :: batch) hloop
  have hne : st.consumption.loops topic ≠ .stopped := by
    rw [hloop]
    exact nofun
  rcases hcases with ⟨record, hrecord, rfl⟩ | ⟨err, herr, rfl⟩
  · have hdecodes : decodes deserialize message = true := by
      unfold decodes
      rw [hrecord]
      rfl
    refine h.withLoop hne ?_ ?_
    · -- the dispatches of the message, in the hands of the loop
      rw [hloop]
      show [] ++ (dispatches _ _ _ message ++ _) = List.map _ (List.map _ _) ++ _
      unfold dispatches
      rw [if_pos hdecodes, List.map_map]
      rfl
    · rintro _ _ ⟨⟩
      exact hcut.imp_right fun hpairwise => decide_eq_true (of_decide_eq_true hpairwise).of_cons
  · have hdecodes : decodes deserialize message = false := by
      unfold decodes
      rw [herr]
      rfl
    refine h.withLoop hne ?_ nofun
    rw [hloop]
    show [] ++ (dispatches _ _ _ message ++ batch.flatMap _) = []
    rw [flatMap_dispatches_of_cutOff hcut hdecodes]
    unfold dispatches
    rw [if_neg (by rw [hdecodes]; exact Bool.false_ne_true)]
    rfl

theorem Following.dispatch (h : Following deserialize st) {refusedAt : Option Nat}
    (hstep : st.step log deserialize (.dispatch topic refusedAt) = some st') : Following deserialize st' := by
  obtain ⟨c, hc, rfl⟩ := Option.map_eq_some_iff.mp hstep
  obtain ⟨oid, d, todo, batch, hloop, rfl⟩ := Consumption.dispatch_eq_some hc
  have hdispatched : Following deserialize { st with
      consumption := st.consumption.withLoop topic (.handling todo batch)
      dispatched  := Function.update st.dispatched topic (st.dispatched topic ++ [(oid, d.origin)]) } := by
    refine h.of_view (fun _ => rfl) ?_ ?_ ((h topic).dispatch hloop)
    · simp [view, Consumption.withLoop]
    · intro topic' hne
      simp [view, Consumption.withLoop, hne]
  unfold follow
  dsimp only
  rw [hloop]
  exact hdispatched.of_engine (.dispatch d)

theorem Following.commit (h : Following deserialize st) {carriedOut : Bool}
    (hstep : st.step log deserialize (.commit topic carriedOut) = some st') : Following deserialize st' := by
  obtain ⟨c, hc, rfl⟩ := Option.map_eq_some_iff.mp hstep
  obtain ⟨hloop, rfl⟩ := Consumption.commit_eq_some hc
  refine h.of_view (fun _ => rfl) ?_ ?_ ((h topic).commit hloop carriedOut)
  · cases carriedOut <;> simp [view, follow, Consumption.withLoop]
  · intro topic' hne
    cases carriedOut <;> simp [view, follow, Consumption.withLoop, hne]

theorem Following.step (h : Following deserialize st) {event : ConsumeEvent F σ}
    (hstep : st.step log deserialize event = some st') (hlossless : lossless log deserialize st event = true) :
    Following deserialize st' := by
  cases event with
  | getmany topic upto => exact h.getmany hstep hlossless
  | next topic clock => exact h.next hstep
  | dispatch topic refusedAt => exact h.dispatch hstep
  | commit topic carriedOut => exact h.commit hstep
  | stop topic =>
      cases hstep
      refine h.of_view (fun _ => rfl) ?_ ?_ (h topic).stop
      · simp [view, follow, Consumption.withLoop]
      · intro topic' hne
        simp [view, follow, Consumption.withLoop, hne]
  | work w event refusedAt =>
      obtain ⟨c, hc, rfl⟩ := Option.map_eq_some_iff.mp hstep
      obtain ⟨e, he, rfl⟩ := Option.map_eq_some_iff.mp hc
      exact h.of_engine (.workerStep he)
  | crash states =>
      cases hstep
      intro topic
      refine ⟨fun _ => rfl, List.prefix_refl _, List.nodup_nil, nofun, fun _ => Nat.le_refl _, nofun, nofun⟩

end Steps

/-! ## The result

At a commit nothing of the batch is left to dispatch, and what has been dispatched is without repetition; from there
the property is a count. -/

theorem Following.of_init {start : String → Nat → Nat} {st : Dispatching F σ} (h : Init start st) :
    Following deserialize st := by
  intro topic
  have hfetched : st.fetched topic = [] := by rw [h.fetched]
  have hdispatched : st.dispatched topic = [] := by rw [h.dispatched]
  have hloop : st.consumption.loops topic = .polling := h.consumption.loops topic
  have hview : view st topic = ⟨.polling, start topic, start topic, [], []⟩ := by
    unfold view
    rw [hloop, h.consumption.position, h.consumption.committed, hfetched, hdispatched]
  rw [hview]
  exact ⟨fun _ => rfl, List.prefix_refl _, List.nodup_nil, nofun, fun _ => Nat.le_refl _, nofun, nofun⟩

theorem Following.dispatchedOnce {st : Dispatching F σ} (h : Following deserialize st) :
    DispatchedOnce deserialize st := by
  intro topic message hmem hdecodes hlt oid hoid
  have hin := (h topic).covered message hmem hlt _ (mem_dispatches_of_decodes hdecodes hoid)
  have hnodup : (st.dispatched topic).Nodup := (h topic).nodup.sublist (h topic).isPrefix.sublist
  exact List.count_eq_one_of_mem hnodup hin

/-- Two records in `raw`, of one byte each. -/
def twoRecords (first second : UInt8) : String → Log := fun topic partition offset =>
  if topic = "raw" ∧ partition = 0 then [[first], [second]][offset]? else none

/-- Decodes nil only. -/
def decodesNil (value : List UInt8) : Except PyError (Record ℚ) :=
  if value = [0xc0] then .ok ∅ else .error ⟨.valueError, "Unpack failed: incomplete input"⟩

/-- One inline operator on `raw`, before its first batch. -/
def countingDispatching : Dispatching ℚ Nat := ⟨countingStart false, fun _ => [], fun _ => []⟩

theorem init_countingDispatching : Init (fun _ _ => 0) countingDispatching := ⟨init_countingStart false, rfl, rfl⟩

end Dispatching

end Hea
end HybridStream
