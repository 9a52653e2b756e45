import HybridStream.Hea.Backpressure
import HybridStream.Py.Exact

/-!
# `Hea.Correctness.Hysteresis` — when backpressure follows its water marks

Hysteresis decides on all operators bound to a topic together: one long queue pauses it, all queues short resume
it, anything between leaves it. `_check_backpressure` decides on one operator after the other, so a short queue
resumes the topic although an earlier one is too long, or although others are between the marks; and a topic
none of whose operators has a queue is left paused. And it moves the flag only after the consumer's own `pause` or
`resume` has returned, which these need not do for a set of partitions. `hysteresis_iff` says when none of this
happens, for every answer of the consumer: both sides are read off the position of a latch.
-/

namespace HybridStream
namespace Hea

open Lib Py

variable {F σ : Type}

/-! ## Hysteresis over all operators of a topic

What a topic with several operators should do at a check: pause if some queue is over the high mark, resume if all are
below the low one. The loop asks one operator after the other instead, so the last one that asks for anything has its
way; the condition says when that comes to the same. -/

namespace WaterMarks

/-- Some operator's queue is over the high mark. -/
def Exceeded (marks : WaterMarks) (depths : List (Option Nat)) : Prop := ∃ depth ∈ depths, marks.Over depth

/-- Every operator's depth is below the low mark, that of one without a queue being 0. -/
def AllBelow (marks : WaterMarks) (depths : List (Option Nat)) : Prop :=
  ∀ depth ∈ depths, (depth.getD 0 : Nat) < marks.low

instance (marks : WaterMarks) (depths : List (Option Nat)) : Decidable (marks.Exceeded depths) :=
  inferInstanceAs (Decidable (∃ depth ∈ depths, marks.Over depth))

instance (marks : WaterMarks) (depths : List (Option Nat)) : Decidable (marks.AllBelow depths) :=
  inferInstanceAs (Decidable (∀ depth ∈ depths, (depth.getD 0 : Nat) < marks.low))

/-- A topic that was `before` paused and is `after` paused follows the marks. -/
structure Follows (marks : WaterMarks) (depths : List (Option Nat)) (before after : Prop) : Prop where
  pauses    : marks.Exceeded depths → after
  resumes   : marks.AllBelow depths → ¬ after
  otherwise : ¬ marks.Exceeded depths → ¬ marks.AllBelow depths → (after ↔ before)

/-- Order and mix of the depths do not mislead the loop, and the consumer does what it has to. `pauses` and `resumes`
    say whether its calls return. If a queue is over the high mark, then either the topic can be paused, and no queue
    below the low mark comes after the last one over the high mark (or none can resume it), or it is paused already
    and no queue is below the low mark (or none can resume it). A paused topic whose depths are all below the low mark
    can be resumed, and some operator has a queue. A paused topic between the two has no queue below the low mark, or
    cannot be resumed. -/
structure Unmistaken (marks : WaterMarks) (depths : List (Option Nat)) (before : Prop) (pauses resumes : Bool) :
    Prop where
  exceeded : marks.Exceeded depths →
    pauses = true ∧ (resumes = false ∨ UpLast marks.Over marks.Below depths) ∨
      before ∧ (resumes = false ∨ ∀ depth ∈ depths, ¬ marks.Below depth)
  allBelow : before → marks.AllBelow depths → resumes = true ∧ ∃ depth ∈ depths, depth ≠ none
  between  : before → ¬ marks.Exceeded depths → ¬ marks.AllBelow depths →
    resumes = false ∨ ∀ depth ∈ depths, ¬ marks.Below depth

variable {marks : WaterMarks} {depths : List (Option Nat)}

/-- A depth below the low mark is that of a queue, or counts as 0. -/
theorem AllBelow.below_iff (h : marks.AllBelow depths) {depth : Option Nat} (hmem : depth ∈ depths) :
    marks.Below depth ↔ depth ≠ none := by
  have hbelow := h depth hmem
  cases depth with
  | none => exact iff_of_false id (fun hne => hne rfl)
  | some depth => exact iff_of_true hbelow (Option.some_ne_none depth)

/-- No depth is beyond both marks. -/
theorem Exceeded.not_allBelow (hmarks : marks.low ≤ marks.high) (h : marks.Exceeded depths) :
    ¬ marks.AllBelow depths := by
  obtain ⟨depth, hmem, hover⟩ := h
  intro hall
  refine hover.not_below hmarks ((hall.below_iff hmem).mpr ?_)
  rintro rfl
  exact hover

/-- **A latch follows the marks exactly where the depths do not mislead it** and its moves work. -/
theorem follows_latch_iff (hmarks : marks.low ≤ marks.high) (pauses resumes raised : Bool)
    (depths : List (Option Nat)) :
    marks.Follows depths (raised = true) (latch marks.Over marks.Below pauses resumes raised depths = true) ↔
      marks.Unmistaken depths (raised = true) pauses resumes := by
  have hlatch := latch_eq_true_iff (fun depth (h : marks.Over depth) => h.not_below hmarks) pauses resumes raised
    depths
  rw [hlatch]
  -- by whether a reading is above the mark: then all that is asked is that the latch goes up and stays
  by_cases hexceeded : marks.Exceeded depths
  · have hall := hexceeded.not_allBelow hmarks
    have hover : ∃ depth ∈ depths, marks.Over depth := hexceeded
    refine ⟨fun h => ⟨fun _ => ?_, fun _ h => absurd h hall, fun _ h => absurd hexceeded h⟩,
      fun h => ⟨fun _ => ?_, fun h => absurd h hall, fun h => absurd hexceeded h⟩⟩
    · rcases h.pauses hexceeded with ⟨hpauses, hlast | ⟨hresumes, -⟩⟩ | hbefore
      · exact Or.inl ⟨hpauses, Or.inr hlast⟩
      · exact Or.inl ⟨hpauses, Or.inl hresumes⟩
      · exact Or.inr hbefore
    · rcases h.exceeded hexceeded with ⟨hpauses, hresumes | hlast⟩ | hbefore
      · exact Or.inl ⟨hpauses, Or.inr ⟨hresumes, hover⟩⟩
      · exact Or.inl ⟨hpauses, Or.inl hlast⟩
      · exact Or.inr hbefore
  · -- no reading takes the latch up, so it is up if it was and nothing took it down
    have hup : ¬ (pauses = true ∧
        (UpLast marks.Over marks.Below depths ∨ resumes = false ∧ ∃ depth ∈ depths, marks.Over depth)) := by
      rintro ⟨-, hlast | ⟨-, hover⟩⟩
      · exact not_upLast (fun depth hmem hover => hexceeded ⟨depth, hmem, hover⟩) hlast
      · exact hexceeded hover
    rw [or_iff_right hup]
    constructor
    · intro h
      refine ⟨fun h => absurd h hexceeded, fun hbefore hall => ?_, fun hbefore _ hall => ?_⟩
      · have hresumed := not_and.mp (h.resumes hall) hbefore
        obtain ⟨hresumes, hbelow⟩ := not_or.mp hresumed
        refine ⟨Bool.not_eq_false _ |>.mp hresumes, ?_⟩
        by_contra hnone
        refine hbelow fun depth hmem hdepth => hnone ⟨depth, hmem, ?_⟩
        exact (hall.below_iff hmem).mp hdepth
      · exact ((h.otherwise hexceeded hall).mpr hbefore).2
    · intro h
      refine ⟨fun h => absurd h hexceeded, fun hall hafter => ?_, fun _ hall => ?_⟩
      · obtain ⟨hresumes, depth, hmem, hqueue⟩ := h.allBelow hafter.1 hall
        rcases hafter.2 with hfails | hnone
        · rw [hresumes] at hfails
          cases hfails
        · exact hnone depth hmem ((hall.below_iff hmem).mpr hqueue)
      · exact ⟨And.left, fun hbefore => ⟨hbefore, h.between hbefore hexceeded hall⟩⟩

end WaterMarks

/-! ## The check

The flag after a check is the position of the latch, so the result about latches is the result about the check. No
assumption on the consumer is needed: whether its calls return is part of the condition. -/

/-- **Backpressure follows its hysteresis exactly where the depths do not mislead the loop** and the consumer's calls
    return where they are needed. For one topic the loop over its operators is a latch that reads one depth after the
    other, and the statement is that of `WaterMarks.follows_latch_iff` about latches. -/
theorem hysteresis_iff (api : ConsumerApi) (e : Engine F σ) (marks : WaterMarks) (hmarks : marks.low ≤ marks.high)
    (topic : String) (p : Paused) :
    marks.Follows (e.depths topic) (topic ∈ p.topics)
        (topic ∈ ((e.checkBackpressure api marks topic).exec p).2.topics) ↔
      marks.Unmistaken (e.depths topic) (topic ∈ p.topics) (e.pauses api topic) (e.resumes api topic) := by
  have hiff := WaterMarks.follows_latch_iff hmarks (e.pauses api topic) (e.resumes api topic)
    (decide (topic ∈ p.topics)) (e.depths topic)
  rw [← e.flag_checkBackpressure, decide_eq_true_iff, decide_eq_true_iff] at hiff
  exact hiff

/-! ### Two operators on one topic

Both are CPU-bound, as the thirty operators that the third workload binds to one topic partly are. -/

/-- Two counting operators. -/
def twoOperators : Nat → OperatorObject ℚ Nat :=
  fun op => ⟨.counting (if op = 0 then "risk-a" else "risk-b"), true, 0⟩

/-- Both are registered on the topic. -/
def registrations : List (Engine.Event ℚ) :=
  [.register "risk-a" 0 ["trades"] [], .register "risk-b" 1 ["trades"] []]

/-- Seven records for each of them. -/
def sevenRecords : List (Engine.Event ℚ) :=
  registrations ++ List.replicate 7 (.consume ⟨⟨"trades", 0, 0⟩, ⟨0, fun _ => 0⟩, ∅⟩)

/-- Seven records, worked off by the second operator only. -/
def oneFallsBehind : List (Engine.Event ℚ) :=
  sevenRecords ++ .work 1 .start :: (List.replicate 7 [.work 1 .take, .work 1 .finish]).flatten

/-- Some run over the labels ends with these depths, and the topic has its consumer. -/
def LeadsToDepths (labels : List (Engine.Event ℚ)) (depths : List (Option Nat)) (e : Engine ℚ Nat) : Prop :=
  (Engine.system (fun _ => true) twoOperators).Run (.started twoOperators) labels e ∧
    e.depths "trades" = depths ∧ "trades" ∈ e.consumers

theorem exists_leadsToDepths {labels : List (Engine.Event ℚ)} {depths : List (Option Nat)}
    (h : (Lts.exec (Engine.step (fun _ => true)) labels (Engine.started twoOperators)).any (fun e =>
      e.depths "trades" = depths && "trades" ∈ e.consumers) = true) : ∃ e, LeadsToDepths labels depths e := by
  obtain ⟨e, hexec, he⟩ := (Option.any_eq_true _ _).mp h
  simp only [Bool.and_eq_true, decide_eq_true_eq] at he
  exact ⟨e, Lts.run_of_exec hexec, he⟩

/-- Both are worked off: the topic is resumed. -/
theorem hysteresis_iff_resumed :
    ∃ e : Engine ℚ Nat, e.depths "trades" = [some 0, some 0] ∧
      "trades" ∉
        ((e.checkBackpressure .accepting .default "trades").exec ⟨{"trades"}, [.pause "trades"]⟩).2.topics := by
  obtain ⟨e, -, hdepths, htopic⟩ : ∃ e, LeadsToDepths registrations [some 0, some 0] e :=
    exists_leadsToDepths (by decide)
  have hresumes : e.resumes .accepting "trades" = true := Engine.resumes_of_ok htopic rfl
  have hiff := hysteresis_iff .accepting e .default (by decide) "trades" ⟨{"trades"}, [.pause "trades"]⟩
  rw [hdepths] at hiff
  have hall : WaterMarks.default.AllBelow [some 0, some 0] := by decide
  have hexceeded : ¬ WaterMarks.default.Exceeded [some 0, some 0] := by decide
  have hfollows := hiff.mpr
    ⟨fun h => absurd h hexceeded, fun _ _ => ⟨hresumes, by decide⟩, fun _ _ h => absurd hall h⟩
  exact ⟨e, hdepths, hfollows.resumes hall⟩

/-- A queue of seven and one that is empty: the topic stays open, whatever the consumer would answer to `pause` if it
    answers to `resume`. Once both operators are gone, a topic that is paused stays paused, whatever the consumer
    answers. And with a consumer that does not take a set, two queues of seven leave the topic open. -/
theorem hysteresis_misled :
    (∃ e : Engine ℚ Nat, LeadsToDepths oneFallsBehind [some 7, some 0] e ∧
      ∀ api : ConsumerApi, api.resume "trades" = .ok () → ¬ WaterMarks.default.Follows (e.depths "trades") False
        ("trades" ∈ ((e.checkBackpressure api .default "trades").exec ⟨∅, []⟩).2.topics)) ∧
    (∃ e : Engine ℚ Nat,
      LeadsToDepths (registrations ++ [.deregister "risk-a", .deregister "risk-b"]) [none, none] e ∧
      ∀ api : ConsumerApi, ¬ WaterMarks.default.Follows (e.depths "trades") True
        ("trades" ∈ ((e.checkBackpressure api .default "trades").exec ⟨{"trades"}, [.pause "trades"]⟩).2.topics)) ∧
    ∃ e : Engine ℚ Nat, LeadsToDepths sevenRecords [some 7, some 7] e ∧
      ¬ WaterMarks.default.Follows (e.depths "trades") False
        ("trades" ∈ ((e.checkBackpressure .perPartition .default "trades").exec ⟨∅, []⟩).2.topics) := by
  have hdisjoint : ∀ depth, WaterMarks.default.Over depth → ¬ WaterMarks.default.Below depth :=
    fun depth h => h.not_below (by decide)
  have hflag (api : ConsumerApi) (e : Engine ℚ Nat) (p : Paused) :=
    Engine.flag_checkBackpressure api e WaterMarks.default "trades" p
  refine ⟨?_, ?_, ?_⟩
  · obtain ⟨e, he⟩ : ∃ e, LeadsToDepths oneFallsBehind [some 7, some 0] e := exists_leadsToDepths (by decide)
    refine ⟨e, he, fun api hresume h => ?_⟩
    rw [he.2.1] at h
    -- the empty queue comes last, and its reading takes the latch down
    have hafter := decide_eq_true (h.pauses (by decide))
    rw [hflag, he.2.1, Engine.resumes_of_ok he.2.2 hresume] at hafter
    have hdown := latch_eq_false hdisjoint [some 7] (x := some 0) (by decide)
      (fun _ hmem => absurd hmem List.not_mem_nil) (e.pauses api "trades") false
    exact Bool.false_ne_true (hdown.symm.trans hafter)
  · obtain ⟨e, he⟩ : ∃ e,
        LeadsToDepths (registrations ++ [.deregister "risk-a", .deregister "risk-b"]) [none, none] e :=
      exists_leadsToDepths (by decide)
    refine ⟨e, he, fun api h => ?_⟩
    rw [he.2.1] at h
    -- no queue is read, so the latch stays where it is
    have hafter := decide_eq_false (h.resumes (by decide))
    rw [hflag, he.2.1] at hafter
    cases hafter
  · obtain ⟨e, he⟩ : ∃ e, LeadsToDepths sevenRecords [some 7, some 7] e := exists_leadsToDepths (by decide)
    refine ⟨e, he, fun h => ?_⟩
    rw [he.2.1] at h
    have hrefused : e.pauses .perPartition "trades" = false := by
      unfold Engine.pauses Engine.consumerCall
      rw [if_pos he.2.2]
      rfl
    -- the first long queue asks for a pause, which raises
    have hafter := decide_eq_true (h.pauses (by decide))
    rw [hflag, he.2.1, hrefused] at hafter
    cases hafter

end Hea
end HybridStream
