import HybridStream.Aode.Pctr
import HybridStream.Hea.Snapshot
import HybridStream.Py.Exact
import HybridStream.Workloads.W1

/-!
# `Hea.Correctness.SnapshotSignal` — when phase 3 has a snapshot to restore from

`TriggerSnapshot` reports a failure by a non-empty `error_msg`, and the text of an exception may be empty.
Phase 2 then takes the response for a success, and phase 3 restores from the empty object key. That is the
only hole: a response that passes and whose handler has raised nothing names an object with the serialized
state (`restore_backed_iff`).
-/

namespace HybridStream
namespace Hea

open Lib Py Common Aode

variable {F σ : Type} [PyRuntime F]

/-- The response as `trigger_snapshot` returns it. -/
def SnapshotResponse.received (response : SnapshotResponse) : Aode.SnapshotResponse :=
  ⟨response.objectKey, response.byteSize, response.errorMsg⟩

/-- If phase 2 lets the migration go on, the bucket has the operator's serialized state under the key phase 3
    will restore from. -/
def RestoreBacked (mp : MessagePack F) (registry : SchemaRegistry) (C : BaseOperator F σ) (operator : Option σ)
    (request : SnapshotRequest) (m : PCTRMigration) (response : SnapshotResponse) (store : ObjectStore) : Prop :=
  ∀ m', m.phase2Snapped response.received = .ok m' →
    ∃ s drainOffsets bytes key, operator = some s ∧ request.drainOffsets = .ok drainOffsets ∧
      serialize mp registry C.operatorType (stateWithOffsets C s drainOffsets) = .ok bytes ∧
      m'.snapshotObjectKey = some key ∧ store.get key = some bytes

/-- No exception with an empty text is raised in the handler. -/
def SpeakingErrors (mp : MessagePack F) (registry : SchemaRegistry) (C : BaseOperator F σ) (operator : Option σ)
    (loop : Except PyError Unit) (upload : Upload) (store : ObjectStore) (request : SnapshotRequest) : Prop :=
  ∀ s e, operator = some s → (snapshotBody mp registry C s loop upload store request).1 = .error e →
    e.text ≠ ""

variable {mp : MessagePack F} {registry : SchemaRegistry} {C : BaseOperator F σ} {operator : Option σ}
  {loop : Except PyError Unit} {upload : Upload} {store store' : ObjectStore} {request : SnapshotRequest}
  {m m' : PCTRMigration} {response : SnapshotResponse} {s : σ}

theorem phase2Snapped_eq_ok {r : Aode.SnapshotResponse} :
    m.phase2Snapped r = .ok m' ↔
      r.errorMsg = "" ∧ m' = { m with snapshotObjectKey := some r.objectKey, snapshotSize := r.byteSize } := by
  unfold PCTRMigration.phase2Snapped
  by_cases h : r.errorMsg = ""
  · simp [h, eq_comm]
  · simp [h]

theorem objectKey_ne_empty (operatorId : String) (migrationSeq : Int) : objectKey operatorId migrationSeq ≠ "" := by
  intro h
  unfold objectKey at h
  exact absurd (String.append_eq_empty_iff.mp h).2 (by decide)

/-- **A migration goes on with a snapshot behind it, if and only if no exception with an empty text is raised in the
    handler.** The bucket has no object with an empty key to begin with: S3 keys are not empty. By cases on how the body
    of the handler ends: phase 2 tells success from failure by the text alone, so an empty one passes for a success,
    with the empty key. -/
theorem restore_backed_iff (hstore : store.get "" = none)
    (hhandled : triggerSnapshot mp registry C operator loop upload store request = (response, store')) :
    RestoreBacked mp registry C operator request m response store' ↔
      SpeakingErrors mp registry C operator loop upload store request := by
  cases operator with
  | none =>
      -- the response says that the operator is missing, and the migration ends
      cases hhandled
      refine iff_of_true (fun m' h => ?_) (fun _ _ h => by cases h)
      have hmsg := (phase2Snapped_eq_ok.mp h).1
      exact absurd (String.append_eq_empty_iff.mp hmsg).2 (by decide)
  | some s =>
      unfold triggerSnapshot at hhandled
      dsimp only at hhandled
      rcases snapshotBody_cases mp registry C s loop upload store request with
        ⟨e, stored, hbody, hstored⟩ | ⟨drainOffsets, bytes, hoffsets, hser, hbody⟩
      · rw [hbody] at hhandled
        cases hhandled
        -- whatever a failed upload has stored, it is not under the empty key
        have hnone : store'.get "" = none := by
          rcases hstored with rfl | ⟨bytes, rfl⟩
          · exact hstore
          · rw [Dict.get_set_ne _ (objectKey_ne_empty _ _).symm]
            exact hstore
        constructor
        · intro hbacked s' e' hs' hraised htext
          cases hs'
          rw [hbody] at hraised
          cases hraised
          -- an empty text passes for a success, with the empty key
          obtain ⟨_, _, bytes, key, -, -, -, hkey, hget⟩ := hbacked _ (phase2Snapped_eq_ok.mpr ⟨htext, rfl⟩)
          cases hkey
          change store'.get "" = some bytes at hget
          rw [hnone] at hget
          cases hget
        · -- a text that is not empty ends phase 2
          intro hspeaking m' h
          exact absurd (phase2Snapped_eq_ok.mp h).1 (hspeaking s e rfl (by rw [hbody]))
      · -- the body returned: the key in the response is the key of the object
        rw [hbody] at hhandled
        cases hhandled
        refine iff_of_true (fun m' h => ?_) (fun s' e' hs' hraised => ?_)
        · obtain ⟨-, rfl⟩ := phase2Snapped_eq_ok.mp h
          exact ⟨s, drainOffsets, bytes, _, rfl, hoffsets, hser, rfl, Dict.get_set_self _ _ _⟩
        · cases hs'
          rw [hbody] at hraised
          cases hraised

/-- A normalizer that has processed nothing. -/
def unusedNormalizer : Workloads.NormalizerOperator ℚ := .new "normalizer-zone_1" "zone_1" 0.01

/-- The request of a migration that has drained nothing. -/
def plainRequest : SnapshotRequest := ⟨"normalizer-zone_1", 7, some (.obj [])⟩

/-- What its HEA answers, and the bucket afterwards. -/
def answer (upload : Upload) : SnapshotResponse × ObjectStore :=
  triggerSnapshot Exact.messagePack registryV1 Workloads.NormalizerOperator.operator
    (some unusedNormalizer) (.ok ()) upload ∅ plainRequest

theorem answer_eq (upload : Upload) :
    triggerSnapshot Exact.messagePack registryV1 Workloads.NormalizerOperator.operator
      (some unusedNormalizer) (.ok ()) upload ∅ plainRequest = ((answer upload).1, (answer upload).2) := rfl

/-- The migration, once in phase 2. -/
def edgeToCloud : PCTRMigration := .new "migration-0001" "normalizer-zone_1" "edge-node-1" "cloud"

theorem restore_backed_iff_returned :
    (edgeToCloud.phase2Snapped (answer .returned).1.received).toOption.isSome = true ∧
    RestoreBacked Exact.messagePack registryV1 Workloads.NormalizerOperator.operator (some unusedNormalizer)
      plainRequest edgeToCloud (answer .returned).1 (answer .returned).2 := by
  refine ⟨by decide, (restore_backed_iff rfl (answer_eq .returned)).mpr fun s e hs hraised => ?_⟩
  cases hs
  have hok : ∃ x, (snapshotBody Exact.messagePack registryV1 Workloads.NormalizerOperator.operator
      unusedNormalizer (.ok ()) .returned ∅ plainRequest).1 = .ok x := ⟨_, rfl⟩
  obtain ⟨x, hx⟩ := hok
  rw [hx] at hraised
  cases hraised

/-- The upload takes more than thirty seconds: phase 2 takes the answer for a success, and phase 3 gets the
    empty key. -/
theorem restore_without_snapshot :
    ∃ m', edgeToCloud.phase2Snapped (answer (.timedOut true)).1.received = .ok m' ∧
      m'.snapshotObjectKey = some "" ∧ (answer (.timedOut true)).2.get "" = none ∧
      ¬ RestoreBacked Exact.messagePack registryV1 Workloads.NormalizerOperator.operator
        (some unusedNormalizer) plainRequest edgeToCloud (answer (.timedOut true)).1
        (answer (.timedOut true)).2 := by
  refine ⟨_, rfl, rfl, rfl, fun hbacked => ?_⟩
  obtain ⟨_, _, bytes, key, -, -, -, hkey, hget⟩ := hbacked _ rfl
  cases hkey
  change (answer (.timedOut true)).2.get "" = some bytes at hget
  have hnone : (answer (.timedOut true)).2.get "" = none := rfl
  rw [hnone] at hget
  cases hget

end Hea
end HybridStream
