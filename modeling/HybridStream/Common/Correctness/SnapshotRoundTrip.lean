import HybridStream.Common.SchemaCache
import HybridStream.Py.Exact

/-!
# `Common.Correctness.SnapshotRoundTrip` — decoding a snapshot undoes encoding it

The writer looks its schema up under version 1, the reader under the version the header carries, which is the one
the schema declares. Nothing is assumed about the schema files but that the two look-ups find the same schema, of a
version that fits into the header, whose fields are not called like the entries of the envelope.
-/

namespace HybridStream
namespace Common
namespace CachedRegistry

open Lib Py

variable {F : Type} [PyRuntime F]

/-- A version that fits is packed, most significant byte first. -/
theorem packUint16_ok {n : Int} (h₀ : 0 ≤ n) (h₁ : n ≤ 65535) :
    ∃ high low, packUint16 n = .ok [high, low] ∧ unpackUint16 high low = n := by
  have hpack : packUint16 n = .ok [UInt8.ofNat (n.toNat / 256), UInt8.ofNat (n.toNat % 256)] :=
    if_pos ⟨h₀, by omega⟩
  obtain ⟨high, low, heq, hunpack⟩ := unpackUint16_packUint16 hpack
  exact ⟨high, low, heq ▸ hpack, hunpack⟩

/-- **Decoding undoes encoding**, whatever the cache holds already: the schema's fields come back, each as the state had
    it, tuples as lists, or as `None` where the state lacks it; and the bytes start with the magic and the version. What
    was packed is taken apart again by `unpack_pack`, and a cache that agrees with its source answers as the source does
    (`getSchema_spec`). -/
theorem snapshot_roundtrip (mp : MessagePack F) (r : CachedRegistry Schema) (cls : String) (schema : Schema)
    (state : Record F) (hr : r.Agrees) (hcls : cls ≠ "") (hwriter : r.load cls 1 = .ok (some schema))
    (hreader : r.load cls schema.schemaVersion = .ok (some schema)) (h₀ : 0 ≤ schema.schemaVersion)
    (h₁ : schema.schemaVersion ≤ 65535) (hdistinct : schema.fields.Nodup)
    (hclash : ∀ name ∈ envelope, name ∉ schema.fields)
    (hpackable : ∀ name ∈ schema.fields, (state.getD name .none).packable = true)
    (hencodes : ∃ payload, mp.packb (document schema cls state).toValue = .ok payload) :
    ∃ bytes r' result r'', (serialize mp cls state).exec r = (.ok bytes, r') ∧
      (deserialize mp bytes).exec r' = (.ok result, r'') ∧
      result.keys = schema.fields ∧
      (∀ name ∈ schema.fields, result.get name = some (match state.get name with
        | some v => v.untuple
        | none   => .none)) ∧
      ∃ high low, bytes.take 6 = magic ++ [high, low] ∧ unpackUint16 high low = schema.schemaVersion := by
  obtain ⟨payload, hpayload⟩ := hencodes
  obtain ⟨high, low, hversion, hunpack⟩ := packUint16_ok h₀ h₁
  have hpack : pack mp schema cls state = .ok (magic ++ [high, low] ++ payload) := by
    unfold pack
    rw [hpayload]
    show packUint16 schema.schemaVersion >>= _ = _
    rw [hversion]
    rfl
  obtain ⟨u, hread, hclass, hnumber, hselect⟩ := unpack_pack hcls (hclash _ (by simp [envelope])) hpackable hpack
  -- the two look-ups: the class at version 1 for the writer, and what the bytes say for the reader
  obtain ⟨r', hwrote, hload', hr'⟩ := getSchema_spec hr cls 1
  rw [hwriter] at hwrote
  obtain ⟨r'', hlooked, -, -⟩ := getSchema_spec hr' cls schema.schemaVersion
  rw [hload', hreader] at hlooked
  refine ⟨magic ++ [high, low] ++ payload, r', u.select schema, r'', ?_, ?_, ?_, fun name hname => ?_, high, low,
    rfl, hunpack⟩
  · unfold serialize
    rw [Proc.exec_bind_ok hwrote, hpack]
    rfl
  · unfold deserialize deserializeBy
    rw [hread, Proc.exec_bind, Proc.exec_lift]
    dsimp only
    rw [hclass, hnumber]
    show ((getSchema cls schema.schemaVersion >>= _) : Proc PyError (CachedRegistry Schema) (Record F)).exec r' = _
    rw [Proc.exec_bind_ok hlooked]
    rfl
  -- the fields of the schema, in its order; and each with what the state had for it
  · rw [hselect]
    unfold Dict.keys
    rw [Dict.entries_ofList (by simpa [Function.comp_def] using hdistinct)]
    simp [Function.comp_def]
  · rw [hselect, Dict.ofList, Dict.get_update_map_of_mem _ _ hname]
    unfold Dict.getD
    cases state.get name with
    | none => simp
    | some v => rfl

/-- A schema of version 258, found under versions 1 and 258. -/
def riskCheckV258 : Schema := ⟨258, "RiskCheck", ["rule_id", "position_cache", "watermark_ms"]⟩

def registry258 : CachedRegistry Schema :=
  ⟨∅, fun cls v => .ok (if cls = "RiskCheck" ∧ (v = 1 ∨ v = 258) then some riskCheckV258 else none)⟩

/-- A state with a tuple, without a watermark, and with an entry the schema does not name. -/
def riskCheckState : Record ℚ :=
  Dict.ofList [("position_cache", .tuple [.int 1, .str "AAPL"]), ("rule_id", .str "credit"), ("extra", .int 7)]

theorem snapshot_roundtrip_riskCheck : ∃ bytes r' result r'',
    (serialize Exact.messagePack "RiskCheck" riskCheckState).exec registry258 = (.ok bytes, r') ∧
    (deserialize Exact.messagePack bytes).exec r' = (.ok result, r'') ∧
    result.keys = ["rule_id", "position_cache", "watermark_ms"] ∧
    result.get "position_cache" = some (.list [.int 1, .str "AAPL"]) ∧ result.get "watermark_ms" = some .none := by
  obtain ⟨bytes, r', result, r'', hwrote, hread, hkeys, hfields, -⟩ :=
    snapshot_roundtrip Exact.messagePack registry258 "RiskCheck" riskCheckV258 riskCheckState (agrees_new _) (by decide)
      rfl rfl (by decide) (by decide) (by decide) (by decide) (by decide) ⟨_, rfl⟩
  exact ⟨bytes, r', result, r'', hwrote, hread, hkeys, hfields "position_cache" (by decide),
    hfields "watermark_ms" (by decide)⟩

end CachedRegistry
end Common
end HybridStream
