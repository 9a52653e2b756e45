import HybridStream.Aode.CollectionLoops
import HybridStream.Py.Exact

/-!
# `Aode.Correctness.TelemetryOrder` — when telemetry goes back in time

Two loops may await the same HEA at once, and the response that was produced first may be stored last. `NeverBack` says
that the reachable samples of an HEA are stored with timestamps that do not decrease. It holds in the runs in which no
response is stored after one that the HEA produced later (`InOrder`), and so in all runs of a single loop; with both
loops it fails.
-/

namespace HybridStream
namespace Aode
namespace CollectionLoops

open Lib Py

variable {F : Type} [PyRuntime F] {getStub : String → Option HEAClient} {loop : CollectionLoop}
  {c c' : CollectionLoops F} {a : CollectionEvent F}

/-! ## The property

For what is stored over one HEA as reachable, the time of its own clock does not go back. The condition is on the
order in which responses are stored, which is the order in which they arrive. -/

/-- Of two reachable samples of an HEA the one stored later is not older. -/
def NeverBack (c : CollectionLoops F) : Prop :=
  c.stored.Pairwise fun e e' => e.heaId = e'.heaId → e.sample.reachable = true → e'.sample.reachable = true →
    e.sample.timestampMs ≤ e'.sample.timestampMs

/-- A response that is delivered and reports its HEA reachable is stored after none that the HEA produced later and that
    did so too. -/
def InOrder (c : CollectionLoops F) : CollectionEvent F → Prop
  | .deliver loop _ _ =>
      match c.loops loop with
      | .awaiting heaId _ (some n) =>
          (c.produced heaId)[n]?.any (fun response => response.reachable) = true →
            ∀ e ∈ c.stored, e.heaId = heaId → e.sample.reachable = true → ∀ k ∈ e.number, k < n
      | _ => True
  | _ => True

instance (c : CollectionLoops F) (a : CollectionEvent F) : Decidable (InOrder c a) :=
  match a with
  | .deliver loop _ _ => by
      dsimp only [InOrder]
      split <;> infer_instance
  | .wake _ _         => isTrue trivial
  | .produce _ _      => isTrue trivial
  | .fail _ _         => isTrue trivial

/-! ## What a step does

Between two suspensions a loop stores samples without a response only; a response is stored by the step that delivers
it. -/

/-- From `c` to `c'` the loop has gone on to its next suspension, storing samples without a response only. -/
structure Proceeds (loop : CollectionLoop) (c c' : CollectionLoops F) : Prop where
  produced : c'.produced = c.produced
  stored   : ∃ es, c'.stored = c.stored ++ es ∧ ∀ e ∈ es, e.number = none ∧ e.sample.reachable = false
  loops    : ∀ loop' heaId rest n, c'.loops loop' = .awaiting heaId rest (some n) →
    loop' ≠ loop ∧ c.loops loop' = .awaiting heaId rest (some n)

omit [PyRuntime F] in
theorem proceeds_suspend {state : LoopState} (h : ∀ heaId rest n, state ≠ .awaiting heaId rest (some n)) :
    Proceeds loop c (c.suspend loop state) where
  produced := rfl
  stored   := ⟨[], (List.append_nil _).symm, nofun⟩
  loops loop' heaId rest n hloop := by
    have hloop : Function.update c.loops loop state loop' = .awaiting heaId rest (some n) := hloop
    by_cases hsame : loop' = loop
    · rw [hsame, Function.update_self] at hloop
      exact absurd hloop (h heaId rest n)
    · rw [Function.update_of_ne hsame] at hloop
      exact ⟨hsame, hloop⟩

omit [PyRuntime F] in
theorem Proceeds.store {heaId : String} {sample : TimedTelemetry F}
    (h : Proceeds loop (c.store heaId none sample) c') (hsample : sample.reachable = false) : Proceeds loop c c' where
  produced := h.produced
  stored := by
    obtain ⟨es, hstored, hes⟩ := h.stored
    refine ⟨⟨heaId, none, sample⟩ :: es, ?_, fun e he => ?_⟩
    · rw [hstored]
      exact List.append_assoc _ _ _
    · rcases List.mem_cons.mp he with rfl | he
      · exact ⟨rfl, hsample⟩
      · exact hes e he
  loops := h.loops

theorem proceeds_proceed (nowMs : String → Int) (heaIds : List String) (c : CollectionLoops F) :
    Proceeds loop c (c.proceed getStub loop nowMs heaIds) := by
  induction heaIds generalizing c with
  | nil => exact proceeds_suspend nofun
  | cons heaId rest ih =>
      unfold proceed
      split
      · exact proceeds_suspend nofun
      · exact (ih _).store (TimedTelemetry.reachable_unreached _)

/-- **What a step does.** A loop goes on without a response, or an HEA produces one, or one is stored and its loop
    goes on. -/
theorem step_eq_some (h : step getStub c a = some c') :
    Proceeds a.loop c c' ∨
    (∃ heaId rest response, c.loops a.loop = .awaiting heaId rest none ∧
      (∀ r ∈ c.produced heaId, r.timestampMs ≤ response.timestampMs) ∧
      c' = { c.suspend a.loop (.awaiting heaId rest (some (c.produced heaId).length)) with
        produced := Function.update c.produced heaId (c.produced heaId ++ [response]) }) ∨
    (∃ latency nowMs heaId rest n response sample, a = .deliver a.loop latency nowMs ∧
      c.loops a.loop = .awaiting heaId rest (some n) ∧ (c.produced heaId)[n]? = some response ∧
      (sample.reachable = true → response.reachable = true ∧ sample.timestampMs = response.timestampMs) ∧
      Proceeds a.loop (c.store heaId (some n) sample) c') := by
  cases a with
  | wake loop nowMs =>
      -- a loop that is woken goes on to what it awaits next
      dsimp only [step] at h
      split at h
      · cases h
        exact Or.inl (proceeds_proceed nowMs _ c)
      · cases h
  | produce loop response =>
      dsimp only [step] at h
      split at h
      · rename_i heaId rest hloop
        -- the response is not older than those the HEA has produced
        split_ifs at h with hclock
        · cases h
          refine Or.inr (Or.inl ⟨heaId, rest, response, hloop, fun r hr => ?_, rfl⟩)
          exact of_decide_eq_true (List.all_eq_true.mp hclock r hr)
      · cases h
  | deliver loop latency nowMs =>
      dsimp only [step] at h
      split at h
      · rename_i heaId rest n hloop
        obtain ⟨response, hresponse, rfl⟩ := Option.map_eq_some_iff.mp h
        refine Or.inr (Or.inr ⟨latency, nowMs, heaId, rest, n, response, _, rfl, hloop, hresponse, fun hreachable => ?_,
          proceeds_proceed nowMs rest _⟩)
        -- without a client what is stored counts as not reached, whatever the response says
        cases hstub : getStub heaId with
        | none =>
            rw [hstub] at hreachable
            cases hreachable
        | some client =>
            rw [hstub] at hreachable
            exact ⟨hreachable, rfl⟩
      · cases h
  | fail loop nowMs =>
      dsimp only [step] at h
      split at h
      · cases h
        exact Or.inl ((proceeds_proceed nowMs _ _).store (TimedTelemetry.reachable_unreached _))
      · cases h

/-! ## The log of the HEAs

The responses of an HEA are numbered as it produced them, with the times of a clock that does not go back. A response
is stored under its number, so the order of the times is the order of the numbers. -/

/-- The responses of an HEA are numbered as its clock goes, and what is stored as reachable was read from one. -/
structure Logged (c : CollectionLoops F) : Prop where
  clocks  : ∀ heaId, (c.produced heaId).Pairwise fun r r' => r.timestampMs ≤ r'.timestampMs
  numbers : ∀ e ∈ c.stored, ∀ k ∈ e.number, k < (c.produced e.heaId).length
  samples : ∀ e ∈ c.stored, e.sample.reachable = true →
    ∃ n response, e.number = some n ∧ (c.produced e.heaId)[n]? = some response ∧
      e.sample.timestampMs = response.timestampMs

theorem logged_new (heaEndpoints : List String) : Logged (new heaEndpoints : CollectionLoops F) :=
  ⟨fun _ => List.Pairwise.nil, nofun, nofun⟩

omit [PyRuntime F] in
theorem Logged.proceeds (h : Logged c) (hproceeds : Proceeds loop c c') : Logged c' := by
  obtain ⟨hproduced, ⟨es, hstored, hes⟩, -⟩ := hproceeds
  refine ⟨?_, ?_, ?_⟩
  · rw [hproduced]
    exact h.clocks
  · rw [hproduced, hstored]
    intro e he k hk
    rcases List.mem_append.mp he with he | he
    · exact h.numbers e he k hk
    · rw [(hes e he).1] at hk
      cases hk
  · rw [hproduced, hstored]
    intro e he hreachable
    rcases List.mem_append.mp he with he | he
    · exact h.samples e he hreachable
    · rw [(hes e he).2] at hreachable
      cases hreachable

omit [PyRuntime F] in
/-- A response is stored under its number. -/
theorem Logged.store (h : Logged c) {heaId : String} {n : Nat} {response : Hea.TelemetryResponse F}
    {sample : TimedTelemetry F} (hresponse : (c.produced heaId)[n]? = some response)
    (hsample : sample.reachable = true → sample.timestampMs = response.timestampMs) :
    Logged (c.store heaId (some n) sample) where
  clocks := h.clocks
  numbers := by
    intro e he k hk
    rcases List.mem_append.mp he with he | he
    · exact h.numbers e he k hk
    · obtain rfl := List.mem_singleton.mp he
      cases hk
      exact (List.getElem?_eq_some_iff.mp hresponse).1
  samples := by
    intro e he hreachable
    rcases List.mem_append.mp he with he | he
    · exact h.samples e he hreachable
    · obtain rfl := List.mem_singleton.mp he
      exact ⟨n, response, rfl, hresponse, hsample hreachable⟩

omit [PyRuntime F] in
/-- An HEA whose clock has not gone back produces one more. -/
theorem Logged.produce (h : Logged c) {heaId : String} {response : Hea.TelemetryResponse F} {state : LoopState}
    (hclock : ∀ r ∈ c.produced heaId, r.timestampMs ≤ response.timestampMs) :
    Logged { c.suspend loop state with
      produced := Function.update c.produced heaId (c.produced heaId ++ [response]) } := by
  -- the log of an HEA only grows at its end
  have hgrown : ∀ heaId', c.produced heaId' <+:
      Function.update c.produced heaId (c.produced heaId ++ [response]) heaId' := by
    intro heaId'
    by_cases hsame : heaId' = heaId
    · subst hsame
      rw [Function.update_self]
      exact List.prefix_append _ _
    · simp only [Function.update_of_ne hsame, List.prefix_rfl]
  refine ⟨fun heaId' => ?_, fun e he k hk => ?_, fun e he hreachable => ?_⟩
  · show (Function.update c.produced heaId (c.produced heaId ++ [response]) heaId').Pairwise _
    by_cases hsame : heaId' = heaId
    · subst hsame
      rw [Function.update_self, List.pairwise_append]
      refine ⟨h.clocks heaId', List.pairwise_singleton _ _, fun r hr r' hr' => ?_⟩
      rw [List.mem_singleton.mp hr']
      exact hclock r hr
    · rw [Function.update_of_ne hsame]
      exact h.clocks heaId'
  · exact (h.numbers e he k hk).trans_le (hgrown e.heaId).length_le
  · obtain ⟨n, r, hn, hr, htime⟩ := h.samples e he hreachable
    obtain ⟨hlt, hget⟩ := List.getElem?_eq_some_iff.mp hr
    exact ⟨n, r, hn, (List.prefix_iff_getElem?.mp (hgrown e.heaId) n hlt).trans (congrArg some hget), htime⟩

theorem Logged.step (h : Logged c) (hstep : CollectionLoops.step getStub c a = some c') : Logged c' := by
  rcases step_eq_some hstep with hproceeds | ⟨heaId, rest, response, -, hclock, rfl⟩ |
    ⟨_, _, heaId, rest, n, response, sample, -, -, hresponse, hsample, hproceeds⟩
  · exact h.proceeds hproceeds
  · exact h.produce hclock
  · exact (h.store hresponse fun hreachable => (hsample hreachable).2).proceeds hproceeds

/-! ## Runs in order

Responses stored in the order of their production: their numbers increase, hence their times do. -/

omit [PyRuntime F] in
/-- A sample without a response changes nothing. -/
theorem NeverBack.proceeds (h : NeverBack c) (hproceeds : Proceeds loop c c') : NeverBack c' := by
  obtain ⟨-, ⟨es, hstored, hes⟩, -⟩ := hproceeds
  unfold NeverBack
  rw [hstored, List.pairwise_append]
  refine ⟨h, List.pairwise_of_forall_mem_list fun e _ e' he' _ _ hreachable' => ?_,
    fun e _ e' he' _ _ hreachable' => ?_⟩
  · rw [(hes e' he').2] at hreachable'
    cases hreachable'
  · rw [(hes e' he').2] at hreachable'
    cases hreachable'

/-- **What a step in order keeps**: the responses of an HEA that are stored have increasing numbers, and their
    timestamps follow. -/
theorem NeverBack.step (h : NeverBack c) (hlogged : Logged c) (hguard : InOrder c a)
    (hstep : CollectionLoops.step getStub c a = some c') : NeverBack c' := by
  rcases step_eq_some hstep with hproceeds | ⟨heaId, rest, response, -, -, rfl⟩ |
    ⟨latency, nowMs, heaId, rest, n, response, sample, ha, hloop, hresponse, hsample, hproceeds⟩
  · exact h.proceeds hproceeds
  · exact h
  · refine NeverBack.proceeds ?_ hproceeds
    unfold NeverBack CollectionLoops.store
    rw [List.pairwise_append]
    refine ⟨h, List.pairwise_singleton _ _, ?_⟩
    intro e he e' he' hsame hreachable hreachable'
    obtain rfl := List.mem_singleton.mp he'
    obtain ⟨hreports, htime⟩ := hsample hreachable'
    -- the sample before was read from an earlier response
    obtain ⟨k, r, hk, hr, hbefore⟩ := hlogged.samples e he hreachable
    have hlt : k < n := by
      rw [ha] at hguard
      dsimp only [InOrder] at hguard
      rw [hloop] at hguard
      exact hguard (by rw [hresponse]; exact hreports) e he hsame hreachable k hk
    have hid : e.heaId = heaId := hsame
    rw [hid] at hr
    obtain ⟨hkbound, rfl⟩ := List.getElem?_eq_some_iff.mp hr
    obtain ⟨hnbound, rfl⟩ := List.getElem?_eq_some_iff.mp hresponse
    calc e.sample.timestampMs
        = (c.produced heaId)[k].timestampMs := hbefore
      _ ≤ (c.produced heaId)[n].timestampMs :=
          List.pairwise_iff_getElem.mp (hlogged.clocks heaId) k n hkbound hnbound hlt
      _ = sample.timestampMs := htime.symm

variable {clients : HeaClients} {heaEndpoints : List String}

/-- **Telemetry does not go back** in the runs that store the responses of an HEA in the order it produced them. Every
    stored sample is a response in the log of its HEA (`Logged`), so a response that comes in order is later than all
    that were stored. -/
theorem neverBack_of_inOrder (h : ((system clients heaEndpoints).restrict InOrder).Reachable c) : NeverBack c := by
  suffices hboth : Logged c ∧ NeverBack c from hboth.2
  apply h.invariant (I := fun c => Logged c ∧ NeverBack c)
  · rintro _ rfl
    exact ⟨logged_new heaEndpoints, List.Pairwise.nil⟩
  · rintro s b s' ⟨hlogged, hnever⟩ ⟨hstep, hguard⟩
    exact ⟨hlogged.step hstep, hnever.step hlogged hguard hstep⟩

/-! ## One loop

A loop asks for the next response when it has stored the last one, so a single loop is in order by itself. -/

/-- Nothing that is stored was produced after the response the loop awaits. -/
def Ahead (loop : CollectionLoop) (c : CollectionLoops F) : Prop :=
  ∀ heaId rest n, c.loops loop = .awaiting heaId rest (some n) →
    ∀ e ∈ c.stored, e.heaId = heaId → ∀ k ∈ e.number, k < n

/-- **One step of the only loop** is in order, and leaves the loop ahead of what is stored. -/
theorem Ahead.step (h : Ahead a.loop c) (hlogged : Logged c) (hstep : CollectionLoops.step getStub c a = some c') :
    InOrder c a ∧ Ahead a.loop c' := by
  constructor
  · cases a with
    | deliver loop latency nowMs =>
        dsimp only [InOrder]
        split
        · rename_i heaId rest n hloop
          exact fun _ e he hid _ => h heaId rest n hloop e he hid
        · trivial
    | _ => trivial
  · rcases step_eq_some hstep with hproceeds | ⟨heaId, rest, response, -, -, rfl⟩ |
      ⟨_, _, _, _, _, _, _, -, -, -, -, hproceeds⟩
    · exact fun heaId rest n hloop => absurd rfl (hproceeds.loops _ _ _ _ hloop).1
    · intro heaId' rest' n hloop e he hid k hk
      have hloop : Function.update c.loops a.loop (.awaiting heaId rest (some (c.produced heaId).length)) a.loop =
          .awaiting heaId' rest' (some n) := hloop
      rw [Function.update_self] at hloop
      cases hloop
      exact hid ▸ hlogged.numbers e he k hk
    · exact fun heaId rest n hloop => absurd rfl (hproceeds.loops _ _ _ _ hloop).1

/-- **A single loop** never takes telemetry back. -/
theorem neverBack_of_single_loop
    (h : ((system clients heaEndpoints).restrict fun _ a => a.loop = loop).Reachable c) : NeverBack c := by
  suffices hall : ((system clients heaEndpoints).restrict InOrder).Reachable c ∧ Logged c ∧ Ahead loop c from
    neverBack_of_inOrder hall.1
  apply h.invariant (I := fun c =>
    ((system clients heaEndpoints).restrict InOrder).Reachable c ∧ Logged c ∧ Ahead loop c)
  · rintro _ rfl
    exact ⟨Lts.Reachable.of_init rfl, logged_new heaEndpoints, fun _ _ _ hloop => absurd hloop nofun⟩
  · rintro s b s' ⟨hreachable, hlogged, hahead⟩ ⟨hstep, rfl⟩
    obtain ⟨hguard, hahead'⟩ := hahead.step hlogged hstep
    exact ⟨hreachable.tail ⟨hstep, hguard⟩, hlogged.step hstep, hahead'⟩

/-! ## Two loops

The two loops of `main.run` over one HEA: both ask, and the answers arrive in either order. -/

/-- A response of an HEA. -/
def response (timestampMs : Int) : Hea.TelemetryResponse ℚ := ⟨"hea-node-1", 0, 0, 0, ∅, timestampMs, true⟩

/-- Both loops begin a round, and the HEA answers the first loop, then the second. -/
def bothAsked : List (CollectionEvent ℚ) :=
  [ .wake .collectionTask fun _ => 0, .wake .telTask fun _ => 0, .produce .collectionTask (response 100),
    .produce .telTask (response 200) ]

/-- The clients of a deployment with one HEA. -/
def endpoints : List String := ["hea-node-1:50051"]

/-- The responses are stored as they were produced. -/
theorem neverBack_of_inOrder_both :
    ∃ c : CollectionLoops ℚ, ((system (Main.heaClients endpoints) endpoints).restrict InOrder).Reachable c ∧
      c.stored.map (fun e => e.sample.timestampMs) = [100, 200] ∧ NeverBack c := by
  have hexec : Lts.exec (Lts.guardStep (step (Main.getStub (Main.heaClients endpoints))) InOrder)
      (bothAsked ++ [.deliver .collectionTask 1 fun _ => 0, .deliver .telTask 1 fun _ => 0]) (new endpoints) =
        some _ := rfl
  have hreach : ((system (Main.heaClients endpoints) endpoints).restrict InOrder).Reachable _ :=
    Lts.restrict_reachable_of_exec rfl hexec
  exact ⟨_, hreach, rfl, neverBack_of_inOrder hreach⟩

/-- **The second response arrives first**, and the older sample replaces the younger one. -/
theorem back_in_time :
    ∃ c : CollectionLoops ℚ, (system (Main.heaClients endpoints) endpoints).Reachable c ∧ ¬ NeverBack c := by
  have hexec : Lts.exec (step (Main.getStub (Main.heaClients endpoints)))
      (bothAsked ++ [.deliver .telTask 1 fun _ => 0, .deliver .collectionTask 1 fun _ => 0]) (new endpoints) =
        some _ := rfl
  refine ⟨_, Lts.reachable_of_exec rfl hexec, ?_⟩
  intro h
  have hback : (200 : Int) ≤ 100 := List.rel_of_pairwise_cons h List.mem_cons_self rfl rfl rfl
  exact absurd hback (by decide)

end CollectionLoops
end Aode
end HybridStream
