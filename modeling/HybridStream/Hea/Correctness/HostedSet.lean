import HybridStream.Hea.Directives

/-!
# `Hea.Correctness.HostedSet` — what placement directives do to an engine

A directive starts no operator: it takes away those it gives to other tiers, and nothing else (`Applies`). In whatever
order directives, terminations and the coroutines of the engine run, once the directives have returned an operator that
was there is gone if and only if one that was accepted gave it to another tier or its termination was
(`hosted_of_run`). Requests that find no event loop change nothing.
-/

namespace HybridStream
namespace Hea

open Lib Py

variable {F : Type}

namespace Management

/-- The entries give the operator to another tier. -/
def movesAway (nodeId oid : String) (entries : List (String × String)) : Bool :=
  entries.any (fun e => decide (e.1 = oid ∧ e.2 ≠ nodeId))

end Management

/-- The event asks for the operator to be taken away. -/
def ManagementEvent.removes (nodeId oid : String) : ManagementEvent F → Bool
  | .applyPlacement _ operatorToTier eventLoop =>
      eventLoop.isOk && Management.movesAway nodeId oid operatorToTier.entries
  | .terminateOperator oid' eventLoop => eventLoop.isOk && decide (oid' = oid)
  | _ => false

/-- A request whose handler has got the event loop. -/
def ManagementEvent.accepted : ManagementEvent F → Bool
  | .applyPlacement _ _ eventLoop  => eventLoop.isOk
  | .terminateOperator _ eventLoop => eventLoop.isOk
  | _ => false

def ManagementEvent.registers (oid : String) : ManagementEvent F → Bool
  | .engine (.register oid' _ _) => decide (oid' = oid)
  | _                            => false

namespace Management

variable {nodeId oid : String} {st st' : Tasks F} {s s' s₀ : Management F} {event : ManagementEvent F}
  {events : List (ManagementEvent F)}

/-! ## One directive

The loop over the entries of a directive by its recursion. An entry takes its operator away or has nothing to do, and
an operator without a queue and one with it go different ways. -/

@[simp] theorem movesAway_nil : movesAway nodeId oid [] = false := rfl

theorem movesAway_cons {e : String × String} {entries : List (String × String)} :
    movesAway nodeId oid (e :: entries) = true ↔ (e.1 = oid ∧ e.2 ≠ nodeId) ∨ movesAway nodeId oid entries = true := by
  simp only [movesAway, List.any_cons, Bool.or_eq_true, decide_eq_true_eq]

/-- From `st` to `st'`, with `rest` still to come, the entries took away what they give to another tier, or will. -/
structure Applies (nodeId oid : String) (entries : List (String × String)) (st st' : Tasks F)
    (rest : List (String × String)) : Prop where
  kept  : st'.operators.get oid = st.operators.get oid ∨
            (st'.operators.get oid = none ∧ movesAway nodeId oid entries = true)
  taken : movesAway nodeId oid entries = true → st'.operators.get oid = none ∨ movesAway nodeId oid rest = true
  asked : movesAway nodeId oid rest = true → movesAway nodeId oid entries = true

/-- An entry that has nothing to do, before the others. -/
theorem Applies.skip {entries rest : List (String × String)} {e : String × String}
    (h : Applies nodeId oid entries st st' rest) (he : e.2 = nodeId ∨ st.operators.contains e.1 = false) :
    Applies nodeId oid (e :: entries) st st' rest where
  kept := h.kept.imp_right fun hgone => ⟨hgone.1, movesAway_cons.mpr (Or.inr hgone.2)⟩
  taken hmoves := by
    rcases movesAway_cons.mp hmoves with ⟨rfl, hne⟩ | hmoves
    · -- it was not there
      have hnone : st.operators.get e.1 = none := by
        have hcontains := he.resolve_left hne
        rwa [Dict.contains, Option.isSome_eq_false_iff, Option.isNone_iff_eq_none] at hcontains
      rcases h.kept with hkept | ⟨hgone, -⟩
      · exact Or.inl (hkept.trans hnone)
      · exact Or.inl hgone
    · exact h.taken hmoves
  asked hrest := movesAway_cons.mpr (Or.inr (h.asked hrest))

/-- An operator is taken away, before the others. -/
theorem Applies.deregister {entries rest : List (String × String)} {e : String × String}
    (h : Applies nodeId oid entries (st.deregister e.1) st' rest) (he : e.2 ≠ nodeId) :
    Applies nodeId oid (e :: entries) st st' rest := by
  have hget : (st.deregister e.1).operators.get oid = if oid = e.1 then none else st.operators.get oid := by
    rw [operators_deregister, Dict.get_pop]
  by_cases heq : oid = e.1
  · have hmoves : movesAway nodeId oid (e :: entries) = true := movesAway_cons.mpr (Or.inl ⟨heq.symm, he⟩)
    rw [if_pos heq] at hget
    have hgone : st'.operators.get oid = none := h.kept.elim (fun hkept => hkept.trans hget) And.left
    exact ⟨Or.inr ⟨hgone, hmoves⟩, fun _ => Or.inl hgone, fun _ => hmoves⟩
  · rw [if_neg heq] at hget
    refine ⟨?_, ?_, fun hrest => movesAway_cons.mpr (Or.inr (h.asked hrest))⟩
    · rcases h.kept with hkept | ⟨hgone, hmoves⟩
      · exact Or.inl (hkept.trans hget)
      · exact Or.inr ⟨hgone, movesAway_cons.mpr (Or.inr hmoves)⟩
    · intro hmoves
      exact h.taken ((movesAway_cons.mp hmoves).resolve_left fun h => heq h.1.symm)

theorem applies_applyEntries (entries : List (String × String)) (st : Tasks F) : Applies nodeId oid entries st
    (applyEntries nodeId entries st).1 (applyEntries nodeId entries st).2.entries := by
  induction entries generalizing st with
  | nil => exact ⟨Or.inl rfl, nofun, id⟩
  | cons e entries ih =>
      obtain ⟨operatorId, tierId⟩ := e
      unfold applyEntries
      split
      · rename_i htier
        exact (ih st).skip (Or.inl htier)
      · rename_i htier
        split
        · split
          · -- it waits for the queue, with the other entries to come
            have hwait : Applies nodeId oid entries (st.deregister operatorId) (st.deregister operatorId) entries :=
              ⟨Or.inl rfl, Or.inr, id⟩
            exact hwait.deregister (e := (operatorId, tierId)) htier
          · exact (ih _).deregister (e := (operatorId, tierId)) htier
        · rename_i hcontains
          exact (ih st).skip (Or.inr (Bool.not_eq_true _ ▸ hcontains))

/-! ## All runs

What is known of one operator while directives overlap: it is where it was, or its removal has been asked for and
either done or still to come in a directive that has not returned. -/

/-- An operator that was there is there, or gone and its removal asked for; where it was asked for, it is gone or a
    directive has it still to come. -/
structure Hosting (nodeId oid : String) (s₀ : Management F) (events : List (ManagementEvent F)) (s : Management F) :
    Prop where
  kept  : s.tasks.operators.get oid = s₀.tasks.operators.get oid ∨
            (s.tasks.operators.get oid = none ∧ events.any (·.removes nodeId oid) = true)
  taken : events.any (·.removes nodeId oid) = true → s.tasks.operators.get oid = none ∨
            ∃ directive ∈ s.directives, movesAway nodeId oid directive.entries = true
  asked : ∀ directive ∈ s.directives, movesAway nodeId oid directive.entries = true →
            events.any (·.removes nodeId oid) = true

theorem accepted_of_removes (h : event.removes nodeId oid = true) : event.accepted = true := by
  cases event with
  | engine | proceed => cases h
  | applyPlacement directiveId operatorToTier eventLoop => exact (Bool.and_eq_true_iff.mp h).1
  | terminateOperator oid' eventLoop => exact (Bool.and_eq_true_iff.mp h).1

theorem any_removes_concat : (events ++ [event]).any (·.removes nodeId oid) = true ↔
    events.any (·.removes nodeId oid) = true ∨ event.removes nodeId oid = true := by
  simp only [List.any_append, List.any_cons, List.any_nil, Bool.or_false, Bool.or_eq_true]

/-- A step that does not concern the operator. -/
theorem Hosting.quiet (h : Hosting nodeId oid s₀ events s) (hquiet : event.removes nodeId oid = false)
    (hget : s'.tasks.operators.get oid = s.tasks.operators.get oid) (hdirectives : s'.directives = s.directives) :
    Hosting nodeId oid s₀ (events ++ [event]) s' := by
  have hany : (events ++ [event]).any (·.removes nodeId oid) = events.any (·.removes nodeId oid) := by
    simp only [List.any_append, List.any_cons, List.any_nil, Bool.or_false, hquiet]
  refine ⟨?_, ?_, ?_⟩
  · rw [hget, hany]
    exact h.kept
  · rw [hget, hany, hdirectives]
    exact h.taken
  · rw [hdirectives, hany]
    exact h.asked

/-- **Every step keeps what has been asked for and what has been done of it together.** -/
theorem Hosting.step (h : Hosting nodeId oid s₀ events s) (hnew : event.registers oid = false)
    (hstep : step nodeId s event = some s') : Hosting nodeId oid s₀ (events ++ [event]) s' := by
  cases event with
  | engine event =>
      obtain ⟨hderegister, tasks, htasks, rfl⟩ := engine_eq_some hstep
      rcases operators_of_engine htasks with ⟨oid', cpuBound, outputTopics, rfl, heq⟩ | ⟨oid', rfl, -⟩ | ⟨-, -, heq⟩
      -- a registration of another id leaves the entry alone; one of this id is excluded
      · have hne : oid' ≠ oid := of_decide_eq_false hnew
        refine h.quiet rfl ?_ rfl
        rw [heq]
        exact Dict.get_set_ne _ (Ne.symm hne) _
      -- a deregistration of the engine is no step of its own here: it comes from a request
      · exact absurd rfl (hderegister oid')
      · exact h.quiet rfl (by rw [heq]) rfl
  | terminateOperator oid' eventLoop =>
      cases hstep
      cases eventLoop with
      -- no event loop, so the handler refuses and nothing has happened
      | error e => exact h.quiet rfl rfl rfl
      | ok answer =>
          have hget : (s.tasks.deregister oid').operators.get oid =
              if oid = oid' then none else s.tasks.operators.get oid := by
            rw [operators_deregister, Dict.get_pop]
          by_cases hsame : oid = oid'
          -- the termination of the operator itself: the entry is gone as soon as the request is in
          · rw [if_pos hsame] at hget
            have hremoves : ManagementEvent.removes nodeId oid
                (.terminateOperator oid' (.ok answer) : ManagementEvent F) = true := decide_eq_true hsame.symm
            have hasked := any_removes_concat.mpr (Or.inr hremoves : events.any (·.removes nodeId oid) = true ∨ _)
            exact ⟨Or.inr ⟨hget, hasked⟩, fun _ => Or.inl hget, fun _ _ _ => hasked⟩
          · rw [if_neg hsame] at hget
            exact h.quiet (decide_eq_false (Ne.symm hsame)) hget rfl
  | applyPlacement directiveId operatorToTier eventLoop =>
      cases hstep
      cases eventLoop with
      | error e => exact h.quiet rfl rfl rfl
      | ok answer =>
          -- an accepted directive has taken nothing yet, but what it will take stands among its entries
          refine ⟨?_, ?_, ?_⟩
          · exact h.kept.imp_right fun hgone => ⟨hgone.1, any_removes_concat.mpr (Or.inl hgone.2)⟩
          · intro hasked
            rcases any_removes_concat.mp hasked with hasked | hasked
            · refine (h.taken hasked).imp_right ?_
              rintro ⟨directive, hmem, hmoves⟩
              exact ⟨directive, List.mem_append_left _ hmem, hmoves⟩
            · exact Or.inr ⟨⟨operatorToTier.entries, none⟩, List.mem_append_right _ (List.mem_singleton_self _), hasked⟩
          · intro directive hmem hmoves
            rcases List.mem_append.mp hmem with hold | hnew
            · exact any_removes_concat.mpr (Or.inl (h.asked directive hold hmoves))
            · rw [List.mem_singleton.mp hnew] at hmoves
              exact any_removes_concat.mpr (Or.inr hmoves)
  | proceed i =>
      obtain ⟨directive, tasks, directive', hi, -, -, happly, rfl⟩ := proceed_eq_some hstep
      have hmem : directive ∈ s.directives := List.mem_of_getElem? hi
      have happlies : Applies nodeId oid directive.entries s.tasks _ _ := applies_applyEntries directive.entries s.tasks
      rw [happly] at happlies
      have hself : (s.directives.set i directive')[i]? = some directive' :=
        (getElem?_set_eq_some hi).mpr (Or.inl ⟨rfl, rfl⟩)
      -- a directive goes on over its entries: `Applies` says what has become of the operator in between
      refine ⟨?_, ?_, ?_⟩
      · rcases happlies.kept with hkept | ⟨hgone, hmoves⟩
        · rcases h.kept with hold | ⟨hgone, hasked⟩
          · exact Or.inl (hkept.trans hold)
          · exact Or.inr ⟨hkept.trans hgone, any_removes_concat.mpr (Or.inl hasked)⟩
        · exact Or.inr ⟨hgone, any_removes_concat.mpr (Or.inl (h.asked directive hmem hmoves))⟩
      · intro hasked
        have hasked := (any_removes_concat.mp hasked).resolve_right nofun
        rcases h.taken hasked with hgone | ⟨directive₁, hmem₁, hmoves⟩
        · exact Or.inl (happlies.kept.elim (fun hkept => hkept.trans hgone) And.left)
        · obtain ⟨j, hj⟩ := List.getElem?_of_mem hmem₁
          by_cases hsame : j = i
          · -- this directive has done it or has it still to come
            subst hsame
            rw [hi] at hj
            cases hj
            exact (happlies.taken hmoves).imp_right fun hrest => ⟨directive', List.mem_of_getElem? hself, hrest⟩
          · exact Or.inr ⟨directive₁, List.mem_of_getElem? ((getElem?_set_eq_some hi).mpr (Or.inr ⟨hsame, hj⟩)),
              hmoves⟩
      · intro directive₁ hmem₁ hmoves
        obtain ⟨j, hj⟩ := List.getElem?_of_mem hmem₁
        rcases (getElem?_set_eq_some hi).mp hj with ⟨-, rfl⟩ | ⟨-, hold⟩
        · exact any_removes_concat.mpr (Or.inl (h.asked directive hmem (happlies.asked hmoves)))
        · exact any_removes_concat.mpr (Or.inl (h.asked directive₁ (List.mem_of_getElem? hold) hmoves))

theorem hosting_of_run (hidle : ∀ directive ∈ s₀.directives, directive.done = true)
    (hrun : (system nodeId).Run s₀ events s) (hnew : ∀ event ∈ events, event.registers oid = false) :
    Hosting nodeId oid s₀ events s := by
  induction hrun with
  | refl =>
      refine ⟨Or.inl rfl, nofun, fun directive hmem hmoves => ?_⟩
      have hnil : directive.entries = [] := List.isEmpty_iff.mp (Bool.and_eq_true_iff.mp (hidle directive hmem)).1
      rw [hnil] at hmoves
      cases hmoves
  | tail hrun hstep ih =>
      exact (ih fun event hmem => hnew event (List.mem_append_left _ hmem)).step
        (hnew _ (List.mem_append_right _ (List.mem_singleton_self _))) hstep

/-- **A directive only takes away.** In every interleaving of directives, terminations and the coroutines of the engine,
    an operator that is not registered anew is where it was or gone; once the directives have returned, it is gone if
    and only if one that was accepted gave it to another tier or its termination was accepted; and where no request
    finds the event loop it is where it was.

    The proof carries `Hosting` along the run, by a case for each kind of request: what is asked for is either done or
    stands among the entries of a directive that has not returned. -/
theorem hosted_of_run (oid : String) (hidle : ∀ directive ∈ s₀.directives, directive.done = true)
    (hrun : (system nodeId).Run s₀ events s) (hnew : ∀ event ∈ events, event.registers oid = false) :
    (s.tasks.operators.get oid = s₀.tasks.operators.get oid ∨ s.tasks.operators.get oid = none) ∧
      ((∀ directive ∈ s.directives, directive.done = true) → s.tasks.operators.get oid =
        if events.any (·.removes nodeId oid) then none else s₀.tasks.operators.get oid) ∧
      ((∀ event ∈ events, event.accepted = false) →
        s.tasks.operators.get oid = s₀.tasks.operators.get oid) := by
  have hhosting := hosting_of_run hidle hrun hnew
  refine ⟨hhosting.kept.imp_right And.left, fun hdone => ?_, fun hrefused => ?_⟩
  · split
    · rename_i hasked
      refine (hhosting.taken hasked).elim id ?_
      rintro ⟨directive, hmem, hmoves⟩
      have hnil : directive.entries = [] := List.isEmpty_iff.mp (Bool.and_eq_true_iff.mp (hdone directive hmem)).1
      rw [hnil] at hmoves
      cases hmoves
    · rename_i hasked
      exact hhosting.kept.elim id fun hgone => absurd hgone.2 hasked
  · refine hhosting.kept.elim id fun hgone => ?_
    obtain ⟨event, hmem, hremoves⟩ := List.any_eq_true.mp hgone.2
    -- only an accepted request removes
    have haccepted := hrefused event hmem
    rw [accepted_of_removes hremoves] at haccepted
    cases haccepted

/-- Two operators, one with a record under way; a directive that moves both away is overtaken by one that keeps them. -/
def overtaken : List (ManagementEvent Rat) :=
  [.applyPlacement "d-1" (Dict.ofList [("a", "cloud"), ("b", "cloud")]) (.ok ()), .proceed 0,
    .applyPlacement "d-2" (Dict.ofList [("a", "hea-1"), ("b", "hea-1"), ("c", "hea-1")]) (.ok ()), .proceed 1,
    .terminateOperator "c" (.error ⟨.runtimeError, "There is no current event loop in thread"⟩),
    .engine (.processed 0 (.ok [])), .engine (.taskDone 0), .engine (.joined 0), .proceed 0]

/-- The engine with the two operators. -/
def hostingTwo : List (ManagementEvent Rat) :=
  [.engine (.register "a" true []), .engine (.makeQueue 0), .engine (.register "b" false []), .engine (.dispatch "a"),
    .engine (.startWorker 0), .engine (.takeItem 0)]

/-- Both are gone, and the third is not there. -/
theorem hosted_of_run_overtaken : ∃ s₀ s : Management Rat, (system "hea-1").Run s₀ overtaken s ∧
    s₀.tasks.operators.keys = ["a", "b"] ∧ s.tasks.operators.get "a" = none ∧ s.tasks.operators.get "c" = none := by
  have hrun : ((Lts.exec (step "hea-1") hostingTwo started).bind fun s₀ =>
      (Lts.exec (step "hea-1") overtaken s₀).map fun s => (s₀.tasks.operators.keys, s₀.tasks.operators.get "c",
        s₀.directives, s.directives.all Directive.done)) = some (["a", "b"], none, [], true) := by decide +kernel
  obtain ⟨s₀, -, hrun⟩ := Option.bind_eq_some_iff.mp hrun
  obtain ⟨s, hs, hrun⟩ := Option.map_eq_some_iff.mp hrun
  simp only [Prod.mk.injEq] at hrun
  obtain ⟨hkeys, hnone, hidle, hdone⟩ := hrun
  have hrun : (system "hea-1").Run s₀ overtaken s := Lts.run_of_exec hs
  have hnothing : ∀ directive ∈ s₀.directives, directive.done = true := by rw [hidle]; nofun
  refine ⟨s₀, s, hrun, hkeys, ?_, ?_⟩
  · exact (hosted_of_run "a" hnothing hrun (by decide)).2.1 (List.all_eq_true.mp hdone)
  · exact (hosted_of_run "c" hnothing hrun (by decide)).1.elim (fun h => h.trans hnone) id

end Management

end Hea
end HybridStream
