import HybridStream.Hea.Operator

/-!
# `Hea.Lifetime` — an operator over its records and its hand-offs

Between two records of its stream an operator may change hands: another instance of its class restores what
`get_state` exports and goes on in its place. A lifetime is any such history. `live_follows` is the induction:
what a record and a hand-off each carry over holds at the end of every lifetime.

A record and a hand-off each come with the clock they are read by, so results hold for any clocks. Results about
hand-offs that are not between two records, or that go through a schema, are elsewhere
(`Workloads.Correctness.StateTransfer`, `Hea.Handoff`).
-/

namespace HybridStream
namespace Hea

open Lib Py

variable {F σ : Type}

/-- What happens to an operator: a record comes in, or the instance `fresh` takes over. -/
inductive LifeEvent (F σ : Type) where
  | record (clock : Clock F) (record : Record F)
  | handoff (clock : Clock F) (fresh : σ)

/-- The records among the events. -/
def LifeEvent.records : List (LifeEvent F σ) → List (Record F)
  | []                 => []
  | .record _ r :: es  => r :: records es
  | .handoff _ _ :: es => records es

namespace BaseOperator

/-- The attributes after an event, of whichever instance is then in charge. -/
def after (C : BaseOperator F σ) (s : σ) : LifeEvent F σ → σ
  | .record clock record => ((C.process clock record).exec s).2
  | .handoff clock fresh => ((C.restoreState clock (C.getState s)).exec fresh).2

/-- The records an event makes it put out. -/
def emitsAt (C : BaseOperator F σ) (s : σ) : LifeEvent F σ → List (Record F)
  | .record clock record => match ((C.process clock record).exec s).1 with
    | .ok out  => out
    | .error _ => []
  | .handoff _ _ => []

/-- A record that is processed puts out what `process` returns. -/
theorem emitsAt_of_ok {C : BaseOperator F σ} {s s' : σ} {clock : Clock F} {record : Record F} {out : List (Record F)}
    (h : (C.process clock record).exec s = (.ok out, s')) : C.emitsAt s (.record clock record) = out := by
  simp only [emitsAt, h]

/-- A record that is rejected puts out nothing. -/
theorem emitsAt_of_error {C : BaseOperator F σ} {s s' : σ} {clock : Clock F} {record : Record F} {e : PyError}
    (h : (C.process clock record).exec s = (.error e, s')) : C.emitsAt s (.record clock record) = [] := by
  simp only [emitsAt, h]

/-- The attributes are those `process` leaves behind, also where it rejects the record. -/
theorem after_of_exec {C : BaseOperator F σ} {s s' : σ} {clock : Clock F} {record : Record F}
    {r : Except PyError (List (Record F))} (h : (C.process clock record).exec s = (r, s')) :
    C.after s (.record clock record) = s' := by
  simp only [after, h]

/-- The attributes at the end of a lifetime. -/
def live (C : BaseOperator F σ) (s : σ) (events : List (LifeEvent F σ)) : σ := events.foldl C.after s

/-- All records put out in a lifetime. -/
def emissions (C : BaseOperator F σ) : σ → List (LifeEvent F σ) → List (Record F)
  | _, []      => []
  | s, e :: es => C.emitsAt s e ++ emissions C (C.after s e) es

/-- A relation between the records so far, what was put out so far and the attributes, carried over by each record and
    by each hand-off. -/
theorem live_follows_from {C : BaseOperator F σ} {I : List (Record F) → List (Record F) → σ → Prop}
    {events : List (LifeEvent F σ)}
    (hrecord : ∀ past out s clock record, LifeEvent.record clock record ∈ events → I past out s →
      I (past ++ [record]) (out ++ C.emitsAt s (.record clock record)) (C.after s (.record clock record)))
    (hhandoff : ∀ past out s clock fresh, I past out s → I past out (C.after s (.handoff clock fresh)))
    {past out : List (Record F)} {s : σ} (hs : I past out s) :
    I (past ++ LifeEvent.records events) (out ++ C.emissions s events) (C.live s events) := by
  induction events generalizing past out s with
  | nil =>
      show I (past ++ []) (out ++ []) s
      rwa [List.append_nil, List.append_nil]
  | cons e es ih =>
      have hrest : ∀ {past out : List (Record F)} {s : σ}, I past out s →
          I (past ++ LifeEvent.records es) (out ++ C.emissions s es) (C.live s es) :=
        ih fun past out s clock record hmem => hrecord past out s clock record (List.mem_cons_of_mem e hmem)
      show I _ (out ++ (C.emitsAt s e ++ C.emissions (C.after s e) es)) (C.live (C.after s e) es)
      rw [← List.append_assoc]
      cases e with
      | record clock record =>
          have hnext := hrest (hrecord past out s clock record List.mem_cons_self hs)
          rwa [List.append_assoc] at hnext
      | handoff clock fresh =>
          have hnext := hrest (hhandoff past out s clock fresh hs)
          show I _ (out ++ [] ++ _) _
          rwa [List.append_nil]

/-- **The induction over a lifetime**, from its beginning. -/
theorem live_follows {C : BaseOperator F σ} {I : List (Record F) → List (Record F) → σ → Prop}
    {events : List (LifeEvent F σ)}
    (hrecord : ∀ past out s clock record, LifeEvent.record clock record ∈ events → I past out s →
      I (past ++ [record]) (out ++ C.emitsAt s (.record clock record)) (C.after s (.record clock record)))
    (hhandoff : ∀ past out s clock fresh, I past out s → I past out (C.after s (.handoff clock fresh)))
    {s : σ} (hs : I [] [] s) : I (LifeEvent.records events) (C.emissions s events) (C.live s events) :=
  live_follows_from hrecord hhandoff hs

end BaseOperator

end Hea
end HybridStream
