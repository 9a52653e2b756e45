import HybridStream.Common.SchemaCache
import HybridStream.Connector.SnapshotDeserializer

/-!
# `Connector.Correctness.CrossLanguage` — Python snapshots read by Java

What `serialize` writes, `deserialize` takes apart by its header alone (`deserialize_pack`): the operator class in
the payload is looked at by nobody (`throws_iff_unreadable`), and an integer field arrives as a long, so the upper
half of the unsigned range wraps (`int_unchanged_iff`).

Both sides are the models of their own sources; what connects them is the bytes. The mapper of the Java side is a
parameter, of which the result about integers assumes what its documentation says about documents of MessagePack, and
of which the other one assumes nothing.
-/

namespace HybridStream
namespace Connector
namespace CrossLanguage

open Lib Py Common

variable {F : Type}

/-! ## The header

Python writes two magic bytes, the version in two bytes and the payload; Java reads them in the same order and goes on
to the payload if the type it was asked for supports the version. -/

section Header

variable [PyRuntime F]

/-- The bytes are a header with the version, and the payload after it. -/
def Layout (bytes : List UInt8) (version : Int) (payload : List UInt8) : Prop :=
  ∃ high low, bytes = magic ++ [high, low] ++ payload ∧ unpackUint16 high low = version

/-- Packing writes the schema's version and the document. -/
theorem layout_of_pack {mp : MessagePack F} {schema : Schema} {cls : String} {state : Record F} {bytes : List UInt8}
    (h : pack mp schema cls state = .ok bytes) :
    ∃ payload, mp.packb (document schema cls state).toValue = .ok payload ∧
      Layout bytes schema.schemaVersion payload := by
  obtain ⟨payload, hpayload, h⟩ := bind_eq_ok.mp h
  obtain ⟨version, hversion, h⟩ := bind_eq_ok.mp h
  obtain ⟨high, low, rfl, hunpack⟩ := unpackUint16_packUint16 hversion
  cases h
  exact ⟨payload, hpayload, high, low, rfl, hunpack⟩

/-- Serializing packs with the schema it has looked up. -/
theorem pack_of_serialize {mp : MessagePack F} {cls : String} {state : Record F} {r r' : CachedRegistry Schema}
    {bytes : List UInt8} (h : (CachedRegistry.serialize mp cls state).exec r = (.ok bytes, r')) :
    ∃ schema, (CachedRegistry.getSchema cls 1).exec r = (.ok schema, r') ∧ pack mp schema cls state = .ok bytes := by
  unfold CachedRegistry.serialize at h
  rw [Proc.exec_bind] at h
  rcases hlook : (CachedRegistry.getSchema cls 1).exec r with ⟨e | schema, r''⟩
  · rw [hlook] at h
    cases h
  · rw [hlook] at h
    obtain ⟨hpack, rfl⟩ := Prod.mk.inj h
    exact ⟨schema, rfl, hpack⟩

end Header

/-- A document the Jackson mapper gave back; `null` has no size to log. -/
def stateOf : Option (Record F) → Except JavaException (Record F)
  | some state => .ok state
  | none       => .error .nullPointer

/-- **What `deserialize` does with a supported version**: it reads the payload. -/
theorem deserialize_layout (readValue : SnapshotDeserializer.Mapper F) {registry : SchemaRegistry F}
    {bytes payload : List UInt8} {version : Int} (h : Layout bytes version payload) {operatorType : String}
    (hsupported : registry.isVersionSupported operatorType version = true) :
    SnapshotDeserializer.deserialize readValue registry bytes operatorType = readValue payload >>= stateOf := by
  obtain ⟨high, low, rfl, rfl⟩ := h
  have hversion : registry.isVersionSupported operatorType (high.toNat * 256 + low.toNat : Int) = true := hsupported
  show SnapshotDeserializer.deserialize readValue registry (0x48 :: 0x53 :: 0x4d :: 0x50 :: high :: low :: payload)
    operatorType = _
  unfold SnapshotDeserializer.deserialize
  simp only [SnapshotDeserializer.magic, ne_eq, not_true_eq_false, if_false, hversion, Bool.not_true,
    Bool.false_eq_true, bind, Except.bind]
  cases readValue payload with
  | error e => rfl
  | ok state => cases state <;> rfl

variable [JavaRuntime F] {mp : MessagePack F} {readValue : SnapshotDeserializer.Mapper F}
  {registry : SchemaRegistry F} {cls operatorType : String} {schema : Schema} {state : Record F}
  {r r' : CachedRegistry Schema} {bytes : List UInt8}

/-- A snapshot Python wrote, as Java reads it under a type that supports its version. -/
theorem deserialize_serialized (readValue : SnapshotDeserializer.Mapper F)
    (hschema : (CachedRegistry.getSchema cls 1).exec r = (.ok schema, r'))
    (hserialize : (CachedRegistry.serialize mp cls state).exec r = (.ok bytes, r'))
    (hsupported : registry.isVersionSupported operatorType schema.schemaVersion = true) :
    ∃ payload, mp.packb (document schema cls state).toValue = .ok payload ∧
      SnapshotDeserializer.deserialize readValue registry bytes operatorType = readValue payload >>= stateOf := by
  obtain ⟨schema', hschema', hpack⟩ := pack_of_serialize hserialize
  rw [hschema] at hschema'
  cases hschema'
  obtain ⟨payload, hpayload, hlayout⟩ := layout_of_pack hpack
  exact ⟨payload, hpayload, deserialize_layout readValue hlayout hsupported⟩

/-! ## The class in the payload

The payload names the class it was written for. Java never looks at it, so what decides is whether the version is
supported under the type that was asked for, and whether the mapper can read the payload. -/

/-- **A snapshot is restored as whatever operator is asked for.** Under every type that supports the version, the class
    in the payload or another, `deserialize` throws only if the payload cannot be read as a map, and else returns that
    map. Bytes that were serialized pass the checks of the header, and behind those there is only the mapper. -/
theorem throws_iff_unreadable (readValue : SnapshotDeserializer.Mapper F)
    (hschema : (CachedRegistry.getSchema cls 1).exec r = (.ok schema, r'))
    (hserialize : (CachedRegistry.serialize mp cls state).exec r = (.ok bytes, r'))
    (hsupported : registry.isVersionSupported operatorType schema.schemaVersion = true) :
    ∃ payload, mp.packb (document schema cls state).toValue = .ok payload ∧
      ((∃ e, SnapshotDeserializer.deserialize readValue registry bytes operatorType = .error e) ↔
        ∀ raw, readValue payload ≠ .ok (some raw)) ∧
      ∀ raw, readValue payload = .ok (some raw) →
        SnapshotDeserializer.deserialize readValue registry bytes operatorType = .ok raw := by
  obtain ⟨payload, hpayload, hread⟩ := deserialize_serialized readValue hschema hserialize hsupported
  refine ⟨payload, hpayload, ?_, fun raw hraw => by rw [hread, hraw]; rfl⟩
  rw [hread]
  constructor
  · rintro ⟨e, he⟩ raw hraw
    rw [hraw] at he
    cases he
  · intro hunreadable
    cases hresult : readValue payload with
    | error e => exact ⟨e, rfl⟩
    | ok result =>
        cases result with
        | none     => exact ⟨.nullPointer, rfl⟩
        | some raw => exact absurd hresult (hunreadable raw)

/-- A mapper that reads what the codec wrote. -/
def readDocument (mp : MessagePack F) : SnapshotDeserializer.Mapper F := fun payload =>
  match mp.unpackb payload with
  | .ok (.dict kvs) => .ok (some (SchemaRegistry.mapOf kvs))
  | .ok .none       => .ok none
  | .ok _           => .error (.other "com.fasterxml.jackson.databind.exc.MismatchedInputException" none)
  | .error e        => .error (.io e.text)

/-- A Python schema of two fields. -/
def limitSchema : Schema := ⟨1, "RiskCheck", ["rule_id", "watermark_ms"]⟩

def limitRegistry : CachedRegistry Schema :=
  ⟨∅, fun cls v => .ok (if cls = "RiskCheck" ∧ v = 1 then some limitSchema else none)⟩

/-- The registry after the look-up. -/
def limitLooked : CachedRegistry Schema := ((CachedRegistry.getSchema "RiskCheck" 1).exec limitRegistry).2

/-- A state of a risk check. -/
def limitState (watermark : Int) : Record ℚ :=
  Dict.ofList [("rule_id", .str "credit"), ("watermark_ms", .int watermark)]

/-- Its snapshot. -/
def limitSnapshot (watermark : Int) : List UInt8 :=
  (((CachedRegistry.serialize Exact.messagePack "RiskCheck" (limitState watermark)).exec limitRegistry).1.toOption).getD
    []

theorem getSchema_limit :
    (CachedRegistry.getSchema "RiskCheck" 1).exec limitRegistry = (.ok limitSchema, limitLooked) := rfl

theorem serialize_limit : (CachedRegistry.serialize Exact.messagePack "RiskCheck" (limitState 41)).exec limitRegistry =
    (.ok (limitSnapshot 41), limitLooked) := rfl

/-- Two schema files of the Java side, which share a field. -/
def javaFiles : List (String × Record ℚ) :=
  [ ("RiskCheck.json", Dict.ofList
      [ ("operator_type", .str "RiskCheck"), ("schema_version", .int 1),
        ("fields", .dict [(.str "rule_id", .str "str"), (.str "watermark_ms", .str "int")]) ]),
    ("PatternDetector.json", Dict.ofList
      [ ("operator_type", .str "PatternDetector"), ("schema_version", .int 1),
        ("fields", .dict [(.str "pattern", .str "list"), (.str "watermark_ms", .str "int")]) ]) ]

/-- The Java registry of the two files. -/
def javaRegistry : SchemaRegistry ℚ :=
  ((SchemaRegistry.loadFromDirectory "schemas" (some javaFiles)).exec SchemaRegistry.new).2

theorem patternDetector_supported :
    javaRegistry.isVersionSupported "PatternDetector" limitSchema.schemaVersion = true := by decide

/-- What the mapper reads of its payload. -/
theorem readDocument_payload {watermark : Int} {payload : List UInt8}
    (h : Exact.messagePack.packb (document limitSchema "RiskCheck" (limitState watermark)).toValue = .ok payload) :
    readDocument Exact.messagePack payload = .ok (some (document limitSchema "RiskCheck" (limitState watermark))) := by
  have hpackable : ∀ name ∈ limitSchema.fields, ((limitState watermark).getD name .none).packable = true := by
    intro name hname
    rcases List.mem_cons.mp hname with rfl | hname
    · exact Value.packable_str _
    · rw [List.mem_singleton.mp hname]
      exact Value.packable_int _
  unfold readDocument
  rw [Exact.messagePack.unpackb_packb (packable_document hpackable) h]
  rfl

/-- Java with a mapper that reads nothing. -/
theorem throws_iff_unreadable_limit :
    ∃ e, SnapshotDeserializer.deserialize (fun _ => .ok none) javaRegistry (limitSnapshot 41) "PatternDetector" =
      .error e := by
  obtain ⟨payload, -, hiff, -⟩ :=
    throws_iff_unreadable (fun _ => .ok none) getSchema_limit serialize_limit patternDetector_supported
  exact hiff.mpr fun _ => nofun

/-- A snapshot of a risk check is restored as a pattern detector, with a part of its state. -/
theorem restored_as_patternDetector :
    (CachedRegistry.serialize Exact.messagePack "RiskCheck" (limitState 41)).exec limitRegistry =
      (.ok (limitSnapshot 41), limitLooked) ∧
    javaRegistry.isVersionSupported "PatternDetector" limitSchema.schemaVersion = true ∧
    ∃ raw, SnapshotDeserializer.deserialize (readDocument Exact.messagePack) javaRegistry
        (limitSnapshot 41) "PatternDetector" = .ok raw ∧
      raw.get "operator_class" = some (.str "RiskCheck") ∧
      ∃ flinkState, SnapshotDeserializer.translateToFlinkState javaRegistry raw "PatternDetector" = .ok flinkState ∧
        flinkState.get "watermark_ms" = some (.int 41) := by
  obtain ⟨payload, hpayload, hread⟩ := deserialize_serialized (readDocument Exact.messagePack) getSchema_limit
    serialize_limit patternDetector_supported
  rw [readDocument_payload hpayload] at hread
  exact ⟨serialize_limit, patternDetector_supported, _, hread, rfl, _, rfl, rfl⟩

/-! ## Integers

An integer of Python has any size and a `long` has 64 bits. What MessagePack can carry goes up to `2 ^ 64`, so there
are integers that arrive and are others. -/

/-- What Jackson's mapper is taken to do with a document of msgpack: it reads a map, whose integers are `Integer`,
    `Long` or `BigInteger` by their magnitude, of the same value. -/
def ReadsIntegers (mp : MessagePack F) (readValue : SnapshotDeserializer.Mapper F) (doc : Record F) : Prop :=
  ∀ payload, mp.packb doc.toValue = .ok payload →
    ∃ raw, readValue payload = .ok (some raw) ∧ ∀ name i, doc.get name = some (.int i) → raw.get name = some (.int i)

/-- A long is read from every integer. -/
theorem translateValue_int (i : Int) :
    SnapshotDeserializer.translateValue (.int i : Value F) (.str "int") = .ok (.int (narrow 64 i)) := rfl

/-- **An integer field arrives unchanged exactly below `2 ^ 63`.** The snapshot is read; the translation throws only
    where a value of another field does; and what it has for the field is the integer narrowed to a long, the one with
    the same low 64 bits, which is the integer itself unless a long cannot hold it. -/
theorem int_unchanged_iff (hreads : ReadsIntegers mp readValue (document schema cls state))
    (hschema : (CachedRegistry.getSchema cls 1).exec r = (.ok schema, r'))
    (hserialize : (CachedRegistry.serialize mp cls state).exec r = (.ok bytes, r'))
    (hsupported : registry.isVersionSupported operatorType schema.schemaVersion = true) {fields : Record F}
    (hfields : registry.getSchema operatorType = .ok fields) {name : String} {i : Int} (hname : name ∈ schema.fields)
    (hint : fields.get name = some (.str "int")) (hstate : state.get name = some (.int i)) (hlow : -2 ^ 63 ≤ i) :
    ∃ raw, SnapshotDeserializer.deserialize readValue registry bytes operatorType = .ok raw ∧
      ((∀ e ∈ raw.entries, e.1 ≠ name → fields.contains e.1 = true →
          ∃ v, SnapshotDeserializer.translateValue e.2 (fields.getD e.1 .none) = .ok v) →
        ∃ result, SnapshotDeserializer.translateToFlinkState registry raw operatorType = .ok result) ∧
      ∀ result, SnapshotDeserializer.translateToFlinkState registry raw operatorType = .ok result →
        (result.get name = some (.int i) ↔ i < 2 ^ 63) ∧
        result.get name = some (.int (narrow 64 i)) ∧ narrow 64 i % 2 ^ 64 = i % 2 ^ 64 := by
  obtain ⟨payload, hpayload, hread⟩ := deserialize_serialized readValue hschema hserialize hsupported
  obtain ⟨raw, hraw, hints⟩ := hreads payload hpayload
  -- the integer stands in the document, so in what the mapper reads
  have hdoc : (document schema cls state).get name = some (.int i) := by
    unfold document
    rw [Dict.get_update_map_of_mem _ _ hname, Dict.getD, hstate]
    rfl
  have hvalue : raw.get name = some (.int i) := hints name i hdoc
  have hcontains : fields.contains name = true := by rw [Dict.contains, hint]; rfl
  have htype : fields.getD name .none = .str "int" := by rw [Dict.getD, hint]; rfl
  have htranslate : SnapshotDeserializer.translateToFlinkState registry raw operatorType =
      SnapshotDeserializer.translateWith fields raw := by
    rw [SnapshotDeserializer.translateToFlinkState_eq, hfields]
    rfl
  refine ⟨raw, by rw [hread, hraw]; rfl, fun hothers => ?_, fun result hresult => ?_⟩
  · rw [htranslate]
    -- an entry is the integer's, which converts, or another one, of which that is assumed
    refine SnapshotDeserializer.exists_translateWith fun e he hcontains' => ?_
    by_cases hsame : e.1 = name
    · have hentry : e.2 = .int i := by
        have hget := Dict.get_eq_some_iff.mpr he
        rw [hsame, hvalue] at hget
        exact (Option.some.inj hget).symm
      rw [hsame, hentry, htype]
      exact ⟨_, translateValue_int i⟩
    · exact hothers e he hsame hcontains'
  · rw [htranslate] at hresult
    -- what the translation has for the field is the integer narrowed to 64 bits
    have hget : result.get name = some (.int (narrow 64 i)) := by
      rw [SnapshotDeserializer.get_translateWith hresult, hvalue]
      show (if fields.contains name = true then _ else _) = _
      rw [if_pos hcontains, htype, translateValue_int]
      rfl
    refine ⟨?_, hget, narrow_long_emod i⟩
    rw [hget, Option.some.injEq, Value.int.injEq, narrow_long_eq_iff]
    exact ⟨fun h => h.2, fun h => ⟨hlow, h⟩⟩

theorem readsIntegers_limit (watermark : Int) : ReadsIntegers Exact.messagePack (readDocument Exact.messagePack)
    (document limitSchema "RiskCheck" (limitState watermark)) :=
  fun _ hpayload => ⟨_, readDocument_payload hpayload, fun _ _ hget => hget⟩

theorem riskCheck_supported : javaRegistry.isVersionSupported "RiskCheck" limitSchema.schemaVersion = true := by decide

/-- The field map of the risk check. -/
def riskCheckFields : Record ℚ := Dict.ofList [("rule_id", .str "str"), ("watermark_ms", .str "int")]

theorem getSchema_riskCheck : javaRegistry.getSchema "RiskCheck" = .ok riskCheckFields := rfl

theorem int_unchanged_iff_limit :
    ∃ raw, SnapshotDeserializer.deserialize (readDocument Exact.messagePack) javaRegistry (limitSnapshot 41)
        "RiskCheck" = .ok raw ∧
      ∀ result, SnapshotDeserializer.translateToFlinkState javaRegistry raw "RiskCheck" = .ok result →
        result.get "watermark_ms" = some (.int 41) := by
  obtain ⟨raw, hraw, -, hiff⟩ := int_unchanged_iff (readsIntegers_limit 41) getSchema_limit serialize_limit
    riskCheck_supported getSchema_riskCheck (i := 41) (show "watermark_ms" ∈ limitSchema.fields by decide) rfl rfl
    (by decide)
  exact ⟨raw, hraw, fun result hresult => (hiff result hresult).1.mpr (by decide)⟩

/-- The watermark `2 ^ 63`, which msgpack packs as an unsigned integer, arrives as `-2 ^ 63`. -/
theorem int_wraps :
    (CachedRegistry.serialize Exact.messagePack "RiskCheck" (limitState (2 ^ 63))).exec limitRegistry =
      (.ok (limitSnapshot (2 ^ 63)), limitLooked) ∧
    ∃ raw result, SnapshotDeserializer.deserialize (readDocument Exact.messagePack) javaRegistry
        (limitSnapshot (2 ^ 63)) "RiskCheck" = .ok raw ∧
      raw.get "watermark_ms" = some (.int (2 ^ 63)) ∧
      SnapshotDeserializer.translateToFlinkState javaRegistry raw "RiskCheck" = .ok result ∧
      result.get "watermark_ms" = some (.int (-2 ^ 63)) := by
  have hserialize : (CachedRegistry.serialize Exact.messagePack "RiskCheck" (limitState (2 ^ 63))).exec limitRegistry =
      (.ok (limitSnapshot (2 ^ 63)), limitLooked) := rfl
  obtain ⟨payload, hpayload, hread⟩ :=
    deserialize_serialized (readDocument Exact.messagePack) getSchema_limit hserialize riskCheck_supported
  rw [readDocument_payload hpayload] at hread
  exact ⟨hserialize, _, _, hread, rfl, rfl, rfl⟩

end CrossLanguage
end Connector
end HybridStream
