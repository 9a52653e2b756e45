import HybridStream.Hea.Correctness.PlacementIndependence
import HybridStream.Lib.Drain

/-!
# `Hea.Correctness.CatchUp` — a pipeline on nodes always catches up

A pipeline whose operators come in stages, each reading only what earlier stages write (`Staged`), catches up with what
it was given: from every state it reaches, whatever its placement and whatever it has been sent, the consumers come to
the end of all partitions of their topics after finitely many steps. This does not depend on what they lose on the way,
on which sends are refused or on where the others go.
-/

namespace HybridStream
namespace Hea

open Lib Py Dataflow

variable {F ω : Type} [PyRuntime F] [DecidableEq ω] {σ : ω → Type} {bridge : BridgeProducer} {mp : MessagePack F}
  {cls : (o : ω) → BaseOperator F (σ o)} {entries : List (Registered ω)} {partitions : String → Nat}
  {node : ω → String} {stage : ω → Nat}

/-- Operators write topics for later stages, and the writers of a topic are of one stage. -/
structure Staged (entries : List (Registered ω)) (stage : ω → Nat) : Prop where
  together : ∀ e ∈ entries, ∀ e' ∈ entries, ∀ t ∈ e.outputTopics, t ∈ e'.outputTopics → stage e.op = stage e'.op
  onward   : ∀ e ∈ entries, ∀ e' ∈ entries, ∀ t ∈ e.outputTopics, t ∈ e'.inputTopics → stage e.op < stage e'.op

/-- Topics no operator writes come first, the others in the order of their writers. -/
def rankOf (entries : List (Registered ω)) (stage : ω → Nat) (t : String) : Nat :=
  ((entries.find? (fun e => t ∈ e.outputTopics)).map (fun e => stage e.op + 1)).getD 0

omit [DecidableEq ω] in
theorem rankOf_written (hstaged : Staged entries stage) {e : Registered ω} (he : e ∈ entries) {t : String}
    (ht : t ∈ e.outputTopics) : rankOf entries stage t = stage e.op + 1 := by
  unfold rankOf
  cases hfind : entries.find? (fun e => t ∈ e.outputTopics) with
  | none =>
      have hnone := List.find?_eq_none.mp hfind e he
      simp only [decide_eq_true_eq] at hnone
      exact absurd ht hnone
  | some e' =>
      have ht' : t ∈ e'.outputTopics := by simpa using List.find?_some hfind
      rw [hstaged.together e he e' (List.mem_of_find?_eq_some hfind) t ht ht']
      rfl

omit [DecidableEq ω] in
/-- What is read comes before what is written. -/
theorem rankOf_lt (hstaged : Staged entries stage) {e : Registered ω} (he : e ∈ entries) {t t' : String}
    (ht : t ∈ e.inputTopics) (ht' : t' ∈ e.outputTopics) : rankOf entries stage t < rankOf entries stage t' := by
  rw [rankOf_written hstaged he ht']
  unfold rankOf
  cases hfind : entries.find? (fun e => t ∈ e.outputTopics) with
  | none    => exact Nat.succ_pos _
  | some e' =>
      have hwrites : t ∈ e'.outputTopics := by simpa using List.find?_some hfind
      exact Nat.succ_lt_succ (hstaged.onward e' (List.mem_of_find?_eq_some hfind) e he t hwrites ht)

/-- No topic comes after this one. -/
def lastRank (entries : List (Registered ω)) (stage : ω → Nat) : Nat := (entries.map (fun e => stage e.op)).sum + 1

omit [DecidableEq ω] in
theorem rankOf_le (t : String) : rankOf entries stage t ≤ lastRank entries stage := by
  unfold rankOf lastRank
  cases hfind : entries.find? (fun e => t ∈ e.outputTopics) with
  | none    => exact Nat.zero_le _
  | some e  =>
      have hmem : stage e.op ∈ entries.map (fun e => stage e.op) :=
        List.mem_map.mpr ⟨e, List.mem_of_find?_eq_some hfind, rfl⟩
      exact Nat.succ_le_succ (List.single_le_sum (fun _ _ => Nat.zero_le _) _ hmem)

/-- What is still to come after a topic. -/
def Before (entries : List (Registered ω)) (stage : ω → Nat) : String → String → Prop :=
  InvImage (· < ·) (fun t => lastRank entries stage - rankOf entries stage t)

theorem layered (hdistinct : (entries.map Registered.op).Nodup) (hstaged : Staged entries stage) :
    Layered (operators bridge mp cls entries) (consumers entries partitions node) (Before entries stage) := by
  intro i o ho t' ht'
  obtain ⟨e, he, rfl, ht⟩ := mem_boundTo ho
  have hmem := (List.mem_filter.mp he).1
  have hroutes : t' ∈ routesOf entries e.op := ht'
  rw [routesOf_eq hdistinct hmem] at hroutes
  have hlt := rankOf_lt hstaged hmem ht hroutes
  have hle : rankOf entries stage t' ≤ lastRank entries stage := rankOf_le t'
  show lastRank entries stage - _ < lastRank entries stage - _
  have hreads : (consumers entries partitions node).reads i = i.2 := rfl
  rw [hreads]
  omega

/-- The deployed operators with nothing coming from outside. -/
def undisturbed (bridge : BridgeProducer) (mp : MessagePack F) (cls : (o : ω) → BaseOperator F (σ o))
    (entries : List (Registered ω)) (partitions : String → Nat) (node : ω → String) (l : (o : ω) → σ o) :
    Lts (Dataflow.State (String × String) String ω σ (List UInt8))
      (Dataflow.Event (String × String) String (Clock F) (List UInt8)) :=
  Dataflow.inner (operators bridge mp cls entries) (consumers entries partitions node) l

/-- **The consumers catch up** from every state that is reached, with nothing more from outside: there is no infinite
    run, and where a run cannot go on all topics have been consumed. Every operator writes topics of later stages, so
    each step leaves less to do. -/
theorem catches_up {l : (o : ω) → σ o} (hdistinct : (entries.map Registered.op).Nodup) (hstaged : Staged entries stage)
    (clock : Clock F) {s : Dataflow.State (String × String) String ω σ (List UInt8)}
    (h : ((consumers entries partitions node).system (operators bridge mp cls entries) l).Reachable s) :
    let M := undisturbed bridge mp cls entries partitions node l
    M.Terminates s ∧ ∀ events s', M.Run s events s' →
      (M.Stuck s' → (consumers entries partitions node).Quiescent s') ∧ (∀ t, s.log t <+: s'.log t) ∧
        ∀ t, (∀ e ∈ entries, t ∉ e.outputTopics) → s'.log t = s.log t := by
  let loops := (entries.flatMap (fun e => e.inputTopics.map (fun t => (node e.op, t)))).toFinset
  have hall : ∀ i, (consumers entries partitions node).runs i = true → i ∈ loops := by
    rintro ⟨name, t⟩ hruns
    have hbound : boundTo (onNode entries node name) t ≠ [] := by
      intro hnone
      have hruns : (!(boundTo (onNode entries node name) t).isEmpty) = true := hruns
      rw [hnone] at hruns
      cases hruns
    obtain ⟨o, ho⟩ := List.exists_mem_of_ne_nil _ hbound
    obtain ⟨e, he, rfl, ht⟩ := mem_boundTo ho
    obtain ⟨hmem, hname⟩ := List.mem_filter.mp he
    rw [decide_eq_true_eq] at hname
    exact List.mem_toFinset.mpr (List.mem_flatMap.mpr ⟨e, hmem, List.mem_map.mpr ⟨t, ht, by rw [hname]⟩⟩)
  have hclock : Inhabited (Clock F) := ⟨clock⟩
  obtain ⟨hterminates, hruns⟩ := settles (l := l) (layered hdistinct hstaged) (InvImage.wf _ Nat.lt_wfRel.wf) hall
    (orderly_of_reachable h)
  refine ⟨hterminates, fun events s' hrun => ?_⟩
  obtain ⟨hquiet, hgrown, hsame⟩ := hruns events s' hrun
  refine ⟨hquiet, hgrown, fun t hnone => hsame t fun o hroutes => ?_⟩
  -- only registered operators have routes
  have hroutes : t ∈ routesOf entries o := hroutes
  by_cases hin : o ∈ entries.map Registered.op
  · obtain ⟨e, he, rfl⟩ := List.mem_map.mp hin
    rw [routesOf_eq hdistinct he] at hroutes
    exact hnone e he hroutes
  · unfold routesOf at hroutes
    rw [foldl_routes entries [] hin] at hroutes
    cases hroutes

end Hea
end HybridStream
