import HybridStream.Common.Snapshot
import HybridStream.Lib.Decimal

/-!
# `Common.SchemaCache` — the schema registry with its cache

`hybridstream/common/schema_registry.py` once more, with the cache `get_schema` keeps and look-ups that may raise, and
`serialize` and `deserialize` through it. `get_schema` hands out what `_load` has parsed and looks at nothing in it, so
the registry is over any type of documents: schemas here, any JSON at all in `Common.SchemaDocuments`. The cache is a
dictionary under one key put together from class and version; as the two are read back from the key
(`cacheKey_injective`), the cache answers as `_load` does (`getSchema_spec`). This is what `Common.Schema` takes for
granted, with promises about the schema files that are not made here.
-/

namespace HybridStream
namespace Common

open Lib Py

variable {F δ : Type} [PyRuntime F]

/-- `SchemaRegistry` with its cache; `load` is what `_load` finds. A class name that is no file name, text that is no
    JSON and a store that is away raise. -/
structure CachedRegistry (δ : Type) where
  cache : Dict String δ
  load  : String → Int → Except PyError (Option δ)

/-- `f"{operator_class}:v{version}"` -/
def cacheKey (operatorClass : String) (version : Int) : String := operatorClass ++ ":v" ++ toString version

namespace CachedRegistry

/-- `get_schema` -/
def getSchema (operatorClass : String) (version : Int) : Proc PyError (CachedRegistry δ) δ := do
  let registry ← get
  match registry.cache.get (cacheKey operatorClass version) with
  | some document => return document
  | none =>
      let document ← Proc.lift (ending operatorClass version (registry.load operatorClass version))
      modify fun r => { r with cache := r.cache.set (cacheKey operatorClass version) document }
      return document

/-- `serialize` -/
def serialize (mp : MessagePack F) (operatorClass : String) (state : Record F) :
    Proc PyError (CachedRegistry Schema) (List UInt8) := do
  let schema ← getSchema operatorClass 1
  Proc.lift (pack mp schema operatorClass state)

/-- `deserialize`, with what its comprehension makes of the document. -/
def deserializeBy {ρ : Type} (select : Unpacked F → δ → Except PyError ρ) (mp : MessagePack F) (data : List UInt8) :
    Proc PyError (CachedRegistry δ) ρ := do
  let u ← Proc.lift (unpack mp data)
  let document ← getSchema u.operatorClass.toStr u.schemaVersion
  Proc.lift (select u document)

/-- `deserialize`, where the documents are schemas. -/
def deserialize (mp : MessagePack F) (data : List UInt8) : Proc PyError (CachedRegistry Schema) (Record F) :=
  deserializeBy (fun u schema => .ok (u.select schema)) mp data

/-- A registry after some look-ups. -/
def asked (load : String → Int → Except PyError (Option δ)) (lookups : List (String × Int)) : CachedRegistry δ :=
  lookups.foldl (fun r e => ((getSchema e.1 e.2).exec r).2) ⟨∅, load⟩

/-! ## The cache answers as `_load` does

What is cached was loaded, and no look-up changes that: by induction over the look-ups made before. -/

theorem cacheKey_injective {cls cls' : String} {v v' : Int} (h : cacheKey cls v = cacheKey cls' v') :
    cls = cls' ∧ v = v' := by
  have hv : ∀ i : Int, 'v' ∉ (toString i).toList := fun i => not_mem_decimal (by decide) (by decide)
  have hchars := congrArg String.toList h
  simp only [cacheKey, String.toList_append] at hchars
  have hsplit : ∀ xs ys : List Char, xs ++ [':', 'v'] ++ ys = (xs ++ [':']) ++ 'v' :: ys := by simp
  have hsep : ":v".toList = [':', 'v'] := rfl
  rw [hsep, hsplit, hsplit, append_separator_inj (hv v) (hv v')] at hchars
  exact ⟨String.toList_inj.mp (List.append_cancel_right hchars.1),
    decimal_injective (String.toList_inj.mp hchars.2)⟩

/-- What is cached was loaded. -/
def Agrees (r : CachedRegistry δ) : Prop :=
  ∀ cls v document, r.cache.get (cacheKey cls v) = some document → r.load cls v = .ok (some document)

/-- A registry that has answered nothing yet. -/
theorem agrees_new (load : String → Int → Except PyError (Option δ)) : Agrees ⟨∅, load⟩ :=
  fun _ _ _ h => absurd h (by simp)

/-- A look-up that is entered into the cache. -/
theorem Agrees.set {r : CachedRegistry δ} (hr : r.Agrees) {cls : String} {v : Int} {document : δ}
    (hload : r.load cls v = .ok (some document)) :
    Agrees { r with cache := r.cache.set (cacheKey cls v) document } := by
  intro cls' v' document' hget
  dsimp only at hget ⊢
  rw [Dict.get_set] at hget
  split at hget
  · rename_i hkey
    obtain ⟨rfl, rfl⟩ := cacheKey_injective hkey
    rwa [← Option.some.inj hget]
  · exact hr cls' v' document' hget

theorem ending_eq_ok {cls : String} {v : Int} {found : Except PyError (Option δ)} {document : δ} :
    ending cls v found = .ok document ↔ found = .ok (some document) := by
  rcases found with e | _ | document' <;> simp [ending]

/-- A look-up ends as `_load` does. -/
theorem getSchema_spec {r : CachedRegistry δ} (hr : r.Agrees) (cls : String) (v : Int) :
    ∃ r', (getSchema cls v).exec r = (ending cls v (r.load cls v), r') ∧ r'.load = r.load ∧ r'.Agrees := by
  unfold getSchema
  rw [Proc.exec_get_bind]
  cases hcache : r.cache.get (cacheKey cls v) with
  | some document =>
      rw [hr cls v document hcache]
      exact ⟨r, rfl, rfl, hr⟩
  | none =>
      dsimp only
      rw [Proc.exec_bind, Proc.exec_lift]
      cases hload : ending cls v (r.load cls v) with
      | error e     => exact ⟨r, rfl, rfl, hr⟩
      | ok document => exact ⟨_, rfl, rfl, hr.set (ending_eq_ok.mp hload)⟩

/-- Look-ups keep the cache in agreement with what they look at. -/
theorem asked_spec (load : String → Int → Except PyError (Option δ)) (lookups : List (String × Int)) :
    (asked load lookups).load = load ∧ (asked load lookups).Agrees := by
  have hrun : ∀ (lookups : List (String × Int)) (r : CachedRegistry δ), r.load = load → r.Agrees →
      (lookups.foldl (fun r e => ((getSchema e.1 e.2).exec r).2) r).load = load ∧
        (lookups.foldl (fun r e => ((getSchema e.1 e.2).exec r).2) r).Agrees := by
    intro lookups
    induction lookups with
    | nil => exact fun r hload hr => ⟨hload, hr⟩
    | cons e lookups ih =>
        intro r hload hr
        obtain ⟨r', hexec, hload', hr'⟩ := getSchema_spec hr e.1 e.2
        rw [List.foldl_cons, hexec]
        exact ih r' (hload'.trans hload) hr'
  exact hrun lookups ⟨∅, load⟩ rfl (agrees_new load)

/-! ## Snapshots through the cache

Writing and reading a snapshot look a schema up once. With a cache that agrees with what is looked up, the bytes and
the record are the ones of the registry without it. -/

section Bytes

variable {ρ : Type} {mp : MessagePack F} {select : Unpacked F → δ → Except PyError ρ} {r : CachedRegistry δ}
  {data : List UInt8}

/-- What cannot be unpacked is not looked up. -/
theorem exec_deserializeBy_error {e : PyError} (h : unpack mp data = .error e) :
    ((deserializeBy select mp data).exec r).1 = .error e := by
  unfold deserializeBy
  rw [Proc.exec_bind, Proc.exec_lift, h]

/-- Once unpacked, the look-up and then the document decide. -/
theorem exec_deserializeBy_ok {u : Unpacked F} (h : unpack mp data = .ok u) (hr : r.Agrees) :
    ((deserializeBy select mp data).exec r).1 =
      ending u.operatorClass.toStr u.schemaVersion (r.load u.operatorClass.toStr u.schemaVersion) >>= select u := by
  obtain ⟨r', hexec, -, -⟩ := getSchema_spec hr u.operatorClass.toStr u.schemaVersion
  unfold deserializeBy
  rw [Proc.exec_bind, Proc.exec_lift, h]
  dsimp only
  rw [Proc.exec_bind, hexec]
  cases ending u.operatorClass.toStr u.schemaVersion (r.load u.operatorClass.toStr u.schemaVersion) <;> rfl

end Bytes

/-- Through the cache, snapshots are written and read as without it. -/
theorem exec_serialize (mp : MessagePack F) (registry : SchemaRegistry) {r : CachedRegistry Schema} (hr : r.Agrees)
    (hload : ∀ cls v, r.load cls v = .ok (registry.load cls v)) (cls : String) (state : Record F) :
    ((serialize mp cls state).exec r).1 = Common.serialize mp registry cls state := by
  obtain ⟨r', hexec, -, -⟩ := getSchema_spec hr cls 1
  unfold serialize Common.serialize SchemaRegistry.getSchema
  rw [Proc.exec_bind, hexec, hload]
  cases ending cls 1 (.ok (registry.load cls 1)) <;> rfl

theorem exec_deserialize (mp : MessagePack F) (registry : SchemaRegistry) {r : CachedRegistry Schema} (hr : r.Agrees)
    (hload : ∀ cls v, r.load cls v = .ok (registry.load cls v)) (data : List UInt8) :
    ((deserialize mp data).exec r).1 = Common.deserialize mp registry data := by
  unfold deserialize Common.deserialize
  cases hunpack : unpack mp data with
  | error e => exact exec_deserializeBy_error hunpack
  | ok u =>
      rw [exec_deserializeBy_ok hunpack hr, hload]
      rfl

end CachedRegistry

end Common
end HybridStream
