import Mathlib.Data.List.Induction
import HybridStream.Connector.Correctness.CrossLanguage

/-!
# `Connector.Correctness.SchemaVersions` — several versions of one operator type

The registry keeps all versions of a type and one field map, that of the file loaded last. `KeepsApart` says that
every order of loading supports what the files declare and translates a snapshot with the fields of its version;
`keepsApart_iff` says for which files: all files of a type convert alike, and no version is changed by `intValue`.

Orders of loading are permutations of the files, and each file may come last, so the condition is one on all files of
a type. A version beyond what a header can carry is never asked for, and is only counted among those that are
supported.
-/

namespace HybridStream
namespace Connector

open Lib Py

variable {F : Type}

/-! ## Conversions

What a declared type does to a value. Several texts stand for one conversion, and a text that is unknown leaves the
value as it is, so files are compared by their conversions. -/

/-- What a declared field type makes of a value. -/
inductive Conversion where
  | float
  | int
  | bool
  | str
  /-- Any other text: the value is passed through. -/
  | asIs
  /-- A JSON `null`. -/
  | null
  /-- No text, on which the cast throws. -/
  | notText
  deriving DecidableEq

/-- The conversion of a declared type. -/
def conversionOfText (s : String) : Conversion :=
  if s = "float" then .float
  else if s = "int" then .int
  else if s = "bool" ∨ s = "boolean" then .bool
  else if s = "str" ∨ s = "string" then .str
  else .asIs

/-- The conversion of a declared type, which a file need not give as text. -/
def conversionOf : Value F → Conversion
  | .str s => conversionOfText s
  | .none  => .null
  | _      => .notText

namespace Conversion

variable [JavaRuntime F]

/-- The converted value, or what the conversion throws. -/
def apply (value : Value F) : Conversion → Except JavaException (Value F)
  | .notText => .error .classCast
  | c => match value, c with
    | .none, _    => .ok .none
    | _, .null    => .error .nullPointer
    | v, .float   => match doubleValue v with
      | some x => .ok (.float x)
      | none   => match JavaRuntime.parseDouble (textOf v) with
        | some x => .ok (.float x)
        | none   => .error .numberFormat
    | v, .int     => match wholeValue 64 v with
      | some i => .ok (.int i)
      | none   => match JavaRuntime.parseLong F (textOf v) with
        | some i => .ok (.int i)
        | none   => .error .numberFormat
    | .bool b, .bool => .ok (.bool b)
    | v, .bool    => .ok (.bool (parseBoolean (textOf v)))
    | v, .str     => .ok (.str (textOf v))
    | v, _        => .ok v

end Conversion

/-- The type matters by its conversion only. -/
theorem translateValue_eq [JavaRuntime F] (value schemaType : Value F) :
    SnapshotDeserializer.translateValue value schemaType = (conversionOf schemaType).apply value := by
  cases schemaType with
  | str s =>
      show _ = (conversionOfText s).apply value
      unfold conversionOfText
      split_ifs with hfloat hint hbool hstr
      · subst hfloat
        cases value <;> rfl
      · subst hint
        cases value <;> rfl
      · rcases hbool with rfl | rfl <;> cases value <;> rfl
      · rcases hstr with rfl | rfl <;> cases value <;> rfl
      · -- none of the names the `switch` has a case for
        simp only [SnapshotDeserializer.translateValue, castString, bind, Except.bind]
        split <;> simp_all [Conversion.apply]
  | none => cases value <;> rfl
  | _ => cases value <;> rfl

/-! ## Loading

After loading, a type has the field map of the file of it that was loaded last, and the versions of all its files. -/

section Loading

variable [PyRuntime F]

/-- A schema file that `loadSchema` accepts, whose `schema_version` is an integer. -/
structure SchemaFile (F : Type) [PyRuntime F] where
  fileName     : String
  raw          : Record F
  operatorType : String
  version      : Int
  fields       : Record F
  declared     : raw.get "schema_version" = some (.int version)
  accepted     : SchemaRegistry.parseSchema fileName raw = .ok (operatorType, narrow 32 version, fields)

/-- The file as the directory has it. -/
def SchemaFile.entry (file : SchemaFile F) : String × Record F := (file.fileName, file.raw)

theorem SchemaFile.version_pos (file : SchemaFile F) : 0 < narrow 32 file.version :=
  (SchemaRegistry.parseSchema_eq_ok file.accepted).2.2.1

/-- What loading a file adds: its field map in the place of the last one, and its version. -/
def SchemaFile.addTo (file : SchemaFile F) (r : SchemaRegistry F) : SchemaRegistry F where
  schemas           := r.schemas.set file.operatorType file.fields
  supportedVersions := r.supportedVersions.set file.operatorType
    (narrow 32 file.version :: (r.supportedVersions.getD file.operatorType []).erase (narrow 32 file.version))

/-- The registry after `loadFromDirectory`, where the directory lists the files in this order. -/
def loaded (files : List (SchemaFile F)) : SchemaRegistry F :=
  ((SchemaRegistry.loadFromDirectory "schemas" (some (files.map SchemaFile.entry))).exec .new).2

/-- Accepted files are loaded without an exception, one after the other. -/
theorem exec_loadFromDirectory (schemaDir : String) (files : List (SchemaFile F)) :
    (SchemaRegistry.loadFromDirectory schemaDir (some (files.map SchemaFile.entry))).exec .new =
      (.ok ⟨⟩, files.foldl (fun r file => file.addTo r) .new) := by
  suffices hrun : ∀ r : SchemaRegistry F,
      ((files.map SchemaFile.entry).forM fun file => SchemaRegistry.loadSchema file.1 file.2).exec r =
        (.ok ⟨⟩, files.foldl (fun r file => file.addTo r) r) from hrun .new
  induction files with
  | nil => exact fun _ => rfl
  | cons file files ih =>
      intro r
      have hfirst : (SchemaRegistry.loadSchema file.fileName file.raw).exec r = (.ok ⟨⟩, file.addTo r) := by
        unfold SchemaRegistry.loadSchema
        rw [file.accepted]
        rfl
      show ((SchemaRegistry.loadSchema file.fileName file.raw >>= fun _ =>
        (files.map SchemaFile.entry).forM fun file => SchemaRegistry.loadSchema file.1 file.2)).exec r = _
      rw [Proc.exec_bind_ok hfirst]
      exact ih (file.addTo r)

theorem loaded_nil : loaded ([] : List (SchemaFile F)) = .new := by
  unfold loaded
  rw [exec_loadFromDirectory]
  rfl

theorem loaded_concat (files : List (SchemaFile F)) (file : SchemaFile F) :
    loaded (files ++ [file]) = file.addTo (loaded files) := by
  unfold loaded
  rw [exec_loadFromDirectory, exec_loadFromDirectory]
  exact List.foldl_append

/-- **The field map of a type** is that of a file of the type, -/
theorem schemas_loaded {files : List (SchemaFile F)} {operatorType : String} {fields : Record F}
    (h : (loaded files).schemas.get operatorType = some fields) :
    ∃ file ∈ files, file.operatorType = operatorType ∧ file.fields = fields := by
  induction files using List.reverseRecOn with
  | nil =>
      rw [loaded_nil] at h
      cases h
  | append_singleton files file ih =>
      rw [loaded_concat] at h
      have hset : ((loaded files).schemas.set file.operatorType file.fields).get operatorType = some fields := h
      rw [Dict.get_set] at hset
      split_ifs at hset with htype
      · exact ⟨file, by simp, htype.symm, Option.some.inj hset⟩
      · obtain ⟨file', hmem, hfile'⟩ := ih hset
        exact ⟨file', List.mem_append_left _ hmem, hfile'⟩

/-- and every type of a file has one. -/
theorem exists_schemas_loaded {files : List (SchemaFile F)} {file : SchemaFile F} (h : file ∈ files) :
    ∃ fields, (loaded files).schemas.get file.operatorType = some fields := by
  induction files using List.reverseRecOn with
  | nil => exact absurd h List.not_mem_nil
  | append_singleton files last ih =>
      rw [loaded_concat]
      show ∃ fields, ((loaded files).schemas.set last.operatorType last.fields).get file.operatorType = some fields
      rw [Dict.get_set]
      split_ifs with htype
      · exact ⟨_, rfl⟩
      · rcases List.mem_append.mp h with h | h
        · exact ih h
        · rw [List.mem_singleton.mp h] at htype
          exact absurd rfl htype

/-- **The versions of a type** are those of all its files, as integers of 32 bits. -/
theorem mem_supported_loaded {files : List (SchemaFile F)} {operatorType : String} {version : Int} :
    version ∈ (loaded files).getSupportedVersions operatorType ↔
      ∃ file ∈ files, file.operatorType = operatorType ∧ narrow 32 file.version = version := by
  induction files using List.reverseRecOn with
  | nil => simp [loaded_nil, SchemaRegistry.new, SchemaRegistry.getSupportedVersions, Dict.getD]
  | append_singleton files file ih =>
      have hstep : version ∈ (loaded (files ++ [file])).getSupportedVersions operatorType ↔
          version ∈ (loaded files).getSupportedVersions operatorType ∨
            (file.operatorType = operatorType ∧ narrow 32 file.version = version) := by
        rw [loaded_concat]
        show version ∈ ((loaded files).supportedVersions.set _ _).getD operatorType [] ↔ _
        rw [Dict.getD_set]
        split_ifs with htype
        · subst htype
          show version ∈ narrow 32 file.version :: ((loaded files).getSupportedVersions file.operatorType).erase _ ↔ _
          by_cases hsame : narrow 32 file.version = version
          · simp [hsame]
          · rw [List.mem_cons, List.mem_erase_of_ne (Ne.symm hsame)]
            simp [hsame, Ne.symm hsame]
        · simp only [Ne.symm htype, false_and, or_false]
          rfl
      rw [hstep, ih]
      constructor
      · rintro (⟨file', hmem, h⟩ | h)
        · exact ⟨file', List.mem_append_left _ hmem, h⟩
        · exact ⟨file, by simp, h⟩
      · rintro ⟨file', hmem, h⟩
        rcases List.mem_append.mp hmem with hmem | hmem
        · exact Or.inl ⟨file', hmem, h⟩
        · rw [List.mem_singleton.mp hmem] at h
          exact Or.inr h

theorem isVersionSupported_loaded {files : List (SchemaFile F)} {operatorType : String} {version : Int} :
    (loaded files).isVersionSupported operatorType version = true ↔
      ∃ file ∈ files, file.operatorType = operatorType ∧ narrow 32 file.version = version := by
  have hmem : (loaded files).isVersionSupported operatorType version = true ↔
      0 < version ∧ version ∈ (loaded files).getSupportedVersions operatorType := by
    unfold SchemaRegistry.isVersionSupported SchemaRegistry.getSupportedVersions Dict.getD
    split_ifs with hpos
    · simp [hpos]
    · cases (loaded files).supportedVersions.get operatorType <;> simp [not_le.mp hpos]
  rw [hmem, mem_supported_loaded]
  constructor
  · exact fun h => h.2
  · rintro ⟨file, hfile, htype, hversion⟩
    exact ⟨hversion ▸ file.version_pos, file, hfile, htype, hversion⟩

end Loading

/-! ## Keeping versions apart

What it means that a snapshot of a version is read as its own file says, whatever other files there are and in
whatever order they were loaded. -/

section KeepsApart

variable [JavaRuntime F] {readValue : SnapshotDeserializer.Mapper F} {files : List (SchemaFile F)}

/-- `deserialize`, then `translateToFlinkState`, as a restore does. -/
def restoreState (readValue : SnapshotDeserializer.Mapper F) (registry : SchemaRegistry F) (bytes : List UInt8)
    (operatorType : String) : Except JavaException (Record F) :=
  SnapshotDeserializer.deserialize readValue registry bytes operatorType >>= fun rawState =>
    SnapshotDeserializer.translateToFlinkState registry rawState operatorType

/-- In whatever order the files are loaded: a version of a type is supported exactly if a file declares it, and a
    snapshot with the version of a file is read and translated with the field map of that file. -/
def KeepsApart (readValue : SnapshotDeserializer.Mapper F) (files : List (SchemaFile F)) : Prop :=
  ∀ order : List (SchemaFile F), order.Perm files →
    (∀ operatorType version, -2 ^ 31 ≤ version → version < 2 ^ 31 →
      ((loaded order).isVersionSupported operatorType version = true ↔
        ∃ file ∈ files, file.operatorType = operatorType ∧ file.version = version)) ∧
    ∀ file ∈ files, ∀ bytes payload, CrossLanguage.Layout bytes file.version payload →
      restoreState readValue (loaded order) bytes file.operatorType =
        readValue payload >>= CrossLanguage.stateOf >>= SnapshotDeserializer.translateWith file.fields

/-- A version that `intValue` changes is declared as it comes out. -/
def VersionsDeclared (files : List (SchemaFile F)) : Prop :=
  ∀ file ∈ files, ∃ file' ∈ files, file'.operatorType = file.operatorType ∧ file'.version = narrow 32 file.version

/-- Two field maps have the same names, with types of the same conversions. -/
def Interchangeable (fields fields' : Record F) : Prop :=
  ∀ name, (fields.get name).map conversionOf = (fields'.get name).map conversionOf

/-- A file whose version a header can carry converts as all files of its type. -/
def TypesAgree (files : List (SchemaFile F)) : Prop :=
  ∀ file ∈ files, ∀ file' ∈ files, file'.operatorType = file.operatorType → 0 ≤ file.version →
    file.version < 2 ^ 16 → Interchangeable file'.fields file.fields

/-- Jackson's mapper can give back a map with one of the declared fields, `null`, zero or true. -/
def ReadsProbes (readValue : SnapshotDeserializer.Mapper F) (files : List (SchemaFile F)) : Prop :=
  ∀ file ∈ files, ∀ name, file.fields.contains name = true → ∀ v ∈ [.none, .int 0, .bool true],
    ∃ payload, readValue payload = .ok (some (Dict.ofList [(name, v)]))

/-! ### Field maps that translate alike

Two field maps translate every document alike exactly if they have the same names and conversions: three probes tell
the conversions apart. -/

omit [JavaRuntime F] in
theorem contains_eq_isSome_conversion (fields : Record F) (name : String) :
    fields.contains name = ((fields.get name).map conversionOf).isSome := by
  rw [Dict.contains, Option.isSome_map]

omit [JavaRuntime F] in
theorem conversionOf_getD (fields : Record F) (name : String) :
    conversionOf (fields.getD name .none) = ((fields.get name).map conversionOf).getD .null := by
  unfold Dict.getD
  cases fields.get name <;> rfl

/-- Interchangeable field maps translate alike, every state. -/
theorem translateWith_congr {fields fields' : Record F} (h : Interchangeable fields fields') (rawState : Record F) :
    SnapshotDeserializer.translateWith fields rawState = SnapshotDeserializer.translateWith fields' rawState := by
  have hcontains : (fun e : String × Value F => fields.contains e.1) = fun e => fields'.contains e.1 := by
    funext e
    rw [contains_eq_isSome_conversion, contains_eq_isSome_conversion, h e.1]
  have hvalue : ∀ (name : String) (v : Value F), SnapshotDeserializer.translateValue v (fields.getD name .none) =
      SnapshotDeserializer.translateValue v (fields'.getD name .none) := by
    intro name v
    rw [translateValue_eq, translateValue_eq, conversionOf_getD, conversionOf_getD, h name]
  unfold SnapshotDeserializer.translateWith
  rw [hcontains]
  simp only [hvalue]

/-- A single field, translated: by its conversion if it is declared, and left out if not. -/
theorem translateWith_single (fields : Record F) (name : String) (v : Value F) :
    SnapshotDeserializer.translateWith fields (Dict.ofList [(name, v)]) =
      match fields.get name with
      | some schemaType => (conversionOf schemaType).apply v >>= fun v' => .ok (Dict.ofList [(name, v')])
      | none            => .ok ∅ := by
  unfold SnapshotDeserializer.translateWith Dict.contains Dict.getD
  rw [show (Dict.ofList [(name, v)]).entries = [(name, v)] from rfl, List.filter_singleton]
  cases hget : fields.get name with
  | none => rfl
  | some schemaType =>
      show ([(name, v)].mapM fun e => do
        Except.ok (e.1, ← SnapshotDeserializer.translateValue e.2 ((fields.get e.1).getD .none))) >>= _ = _
      rw [List.mapM_cons, List.mapM_nil]
      dsimp only
      rw [hget, Option.getD_some, translateValue_eq]
      cases (conversionOf schemaType).apply v <;> rfl

/-- The conversion that makes these of `null`, zero and true. -/
def conversionOfProbes : (onNull onZero onTrue : Except JavaException (Value F)) → Conversion
  | .error _, _, _             => .notText
  | _, .error _, _             => .null
  | _, .ok (.float _), _       => .float
  | _, .ok (.bool _), _        => .bool
  | _, .ok (.str _), _         => .str
  | _, _, .ok (.bool _)        => .asIs
  | _, _, _                    => .int

/-- The three probes tell the conversions apart. -/
theorem conversionOfProbes_apply (c : Conversion) :
    conversionOfProbes (c.apply (.none : Value F)) (c.apply (.int 0)) (c.apply (.bool true)) = c := by
  cases c with
  | int =>
      -- the text `true` is a number to `parseLong` or none, but no boolean
      show conversionOfProbes (.ok (.none : Value F)) (.ok (.int (narrow 64 0)))
        (match JavaRuntime.parseLong F (textOf (.bool true : Value F)) with
          | some i => .ok (.int i)
          | none   => .error .numberFormat) = .int
      cases JavaRuntime.parseLong F (textOf (.bool true : Value F)) <;> rfl
  | _ => rfl

omit [JavaRuntime F] in
/-- A field that is translated is there. -/
theorem bind_single_ne_empty (x : Except JavaException (Value F)) (name : String) :
    x >>= (fun v => .ok (Dict.ofList [(name, v)])) ≠ .ok (∅ : Record F) := by
  cases x with
  | error e => exact nofun
  | ok v => exact fun heq => Dict.set_ne_empty _ _ _ (Except.ok.inj heq)

omit [JavaRuntime F] in
theorem bind_single_inj {x y : Except JavaException (Value F)} {name : String}
    (h : x >>= (fun v => .ok (Dict.ofList [(name, v)])) = y >>= fun v => .ok (Dict.ofList [(name, v)])) : x = y := by
  cases x with
  | error e =>
      cases y with
      | error e' => exact congrArg Except.error (Except.error.inj h)
      | ok w => cases h
  | ok v =>
      cases y with
      | error e' => cases h
      | ok w =>
          have hentries := (Dict.ofList_inj (by simp) (by simp)).mp (Except.ok.inj h)
          simp only [List.cons.injEq, Prod.mk.injEq, true_and, and_true] at hentries
          rw [hentries]

/-- Field maps that translate the probes alike are interchangeable. -/
theorem interchangeable_of_translateWith {fields fields' : Record F}
    (h : ∀ name, (fields.contains name = true ∨ fields'.contains name = true) → ∀ v ∈ [.none, .int 0, .bool true],
      SnapshotDeserializer.translateWith fields (Dict.ofList [(name, v)]) =
        SnapshotDeserializer.translateWith fields' (Dict.ofList [(name, v)])) : Interchangeable fields fields' := by
  intro name
  have hname := h name
  simp only [Dict.contains, translateWith_single] at hname
  cases hget : fields.get name with
  | none =>
      cases hget' : fields'.get name with
      | none => rfl
      | some t' =>
          rw [hget, hget'] at hname
          exact absurd (hname (Or.inr rfl) .none List.mem_cons_self).symm (bind_single_ne_empty _ name)
  | some t =>
      cases hget' : fields'.get name with
      | none =>
          rw [hget, hget'] at hname
          exact absurd (hname (Or.inl rfl) .none List.mem_cons_self) (bind_single_ne_empty _ name)
      | some t' =>
          rw [hget, hget'] at hname
          have hprobe : ∀ v ∈ [.none, .int 0, .bool true], (conversionOf t).apply v = (conversionOf t').apply v :=
            fun v hv => bind_single_inj (hname (Or.inl rfl) v hv)
          rw [Option.map_some, Option.map_some, ← conversionOfProbes_apply (F := F) (conversionOf t),
            ← conversionOfProbes_apply (F := F) (conversionOf t'), hprobe _ List.mem_cons_self,
            hprobe _ (List.mem_cons_of_mem _ List.mem_cons_self),
            hprobe _ (List.mem_cons_of_mem _ (List.mem_cons_of_mem _ List.mem_cons_self))]

/-! ### The condition

As the last file that was loaded decides, and each may be the last, all files of a type have to convert alike, as far
as a header can tell them apart. -/

/-- A snapshot with the version of a loaded file, read under a registry whose field map for the type is known. -/
theorem restoreState_loaded {file : SchemaFile F} (hfile : file ∈ files) (hlow : 0 ≤ file.version)
    (hhigh : file.version < 2 ^ 16) {fields : Record F}
    (hfields : (loaded files).schemas.get file.operatorType = some fields) {bytes payload : List UInt8}
    (hlayout : CrossLanguage.Layout bytes file.version payload) :
    restoreState readValue (loaded files) bytes file.operatorType =
      readValue payload >>= CrossLanguage.stateOf >>= SnapshotDeserializer.translateWith fields := by
  have hsupported : (loaded files).isVersionSupported file.operatorType file.version = true :=
    isVersionSupported_loaded.mpr ⟨file, hfile, rfl, narrow_int_eq_iff.mpr ⟨by omega, by omega⟩⟩
  have hschema : (loaded files).getSchema file.operatorType = .ok fields := by
    unfold SchemaRegistry.getSchema
    rw [hfields]
  unfold restoreState
  rw [CrossLanguage.deserialize_layout readValue hlayout hsupported]
  congr 1
  funext rawState
  rw [SnapshotDeserializer.translateToFlinkState_eq, hschema]
  rfl

omit [JavaRuntime F] in
/-- A version a header carries has sixteen bits. -/
theorem version_range {bytes payload : List UInt8} {version : Int}
    (h : CrossLanguage.Layout bytes version payload) : 0 ≤ version ∧ version < 2 ^ 16 := by
  obtain ⟨high, low, -, rfl⟩ := h
  have hhigh := high.toNat_lt
  have hlow := low.toNat_lt
  unfold Common.unpackUint16
  omega

omit [JavaRuntime F] in
/-- Every version of sixteen bits can be in a header. -/
theorem exists_layout {version : Int} (hlow : 0 ≤ version) (hhigh : version < 2 ^ 16) (payload : List UInt8) :
    ∃ bytes, CrossLanguage.Layout bytes version payload := by
  have hpack : Common.packUint16 version = .ok _ := if_pos ⟨hlow, by omega⟩
  obtain ⟨high, low, -, hunpack⟩ := Common.unpackUint16_packUint16 hpack
  exact ⟨_, high, low, rfl, hunpack⟩

theorem KeepsApart.versionsDeclared (h : KeepsApart readValue files) : VersionsDeclared files := by
  intro file hfile
  obtain ⟨hlow, hhigh⟩ := narrow_int_range file.version
  obtain ⟨file', hfile', htype, hversion⟩ := ((h files (.refl _)).1 file.operatorType _ hlow hhigh).mp
    (isVersionSupported_loaded.mpr ⟨file, hfile, rfl, rfl⟩)
  exact ⟨file', hfile', htype, hversion⟩

/-- Each file of a type may be the last one that is loaded. -/
theorem KeepsApart.typesAgree (hreads : ReadsProbes readValue files) (h : KeepsApart readValue files) :
    TypesAgree files := by
  intro file hfile file' hfile' htype hlow hhigh
  obtain ⟨before, after, hsplit⟩ := List.append_of_mem hfile'
  have hperm : (before ++ after ++ [file']).Perm files := by
    rw [hsplit]
    exact (List.perm_append_singleton file' (before ++ after)).trans (List.perm_middle.symm)
  have hlast : (loaded (before ++ after ++ [file'])).schemas.get file.operatorType = some file'.fields := by
    rw [loaded_concat, ← htype]
    exact Dict.get_set_self _ _ _
  -- a snapshot of `file` with one field of either
  refine interchangeable_of_translateWith fun name hname v hv => ?_
  have hpayload : ∃ payload, readValue payload = .ok (some (Dict.ofList [(name, v)])) :=
    hname.elim (fun hname => hreads file' hfile' name hname v hv) fun hname => hreads file hfile name hname v hv
  obtain ⟨payload, hpayload⟩ := hpayload
  obtain ⟨bytes, hlayout⟩ := exists_layout hlow hhigh payload
  have hdeclared := (h _ hperm).2 file hfile bytes payload hlayout
  rw [restoreState_loaded (hperm.mem_iff.mpr hfile) hlow hhigh hlast hlayout, hpayload] at hdeclared
  exact hdeclared

/-- Versions that are declared as they are loaded are supported as they are declared. -/
theorem VersionsDeclared.supported_iff {order : List (SchemaFile F)} (h : VersionsDeclared files)
    (hperm : order.Perm files) {operatorType : String} {version : Int} (hlow : -2 ^ 31 ≤ version)
    (hhigh : version < 2 ^ 31) : (loaded order).isVersionSupported operatorType version = true ↔
      ∃ file ∈ files, file.operatorType = operatorType ∧ file.version = version := by
  rw [isVersionSupported_loaded]
  constructor
  · rintro ⟨file, hfile, rfl, rfl⟩
    exact h file (hperm.mem_iff.mp hfile)
  · rintro ⟨file, hfile, rfl, rfl⟩
    exact ⟨file, hperm.mem_iff.mpr hfile, rfl, narrow_int_eq_iff.mpr ⟨hlow, hhigh⟩⟩

/-- Whichever file of the type was loaded last. -/
theorem TypesAgree.restoreState_eq {order : List (SchemaFile F)} (h : TypesAgree files) (hperm : order.Perm files)
    {file : SchemaFile F} (hfile : file ∈ files) {bytes payload : List UInt8}
    (hlayout : CrossLanguage.Layout bytes file.version payload) :
    restoreState readValue (loaded order) bytes file.operatorType =
      readValue payload >>= CrossLanguage.stateOf >>= SnapshotDeserializer.translateWith file.fields := by
  obtain ⟨hlow, hhigh⟩ := version_range hlayout
  have hloaded := hperm.mem_iff.mpr hfile
  obtain ⟨fields, hfields⟩ := exists_schemas_loaded hloaded
  obtain ⟨last, hlast, htype, rfl⟩ := schemas_loaded hfields
  rw [restoreState_loaded hloaded hlow hhigh hfields hlayout]
  congr 1
  funext rawState
  exact translateWith_congr (h file hfile last (hperm.mem_iff.mp hlast) htype hlow hhigh) rawState

/-- **Which schema files are kept apart**: all files of a type convert alike where a header can tell them apart, and a
    version that does not fit into an int is declared as the int it becomes. Each file may be the one that is loaded
    last, so its field map is what every snapshot of the type is read with; versions are only added. -/
theorem keepsApart_iff (hreads : ReadsProbes readValue files) :
    KeepsApart readValue files ↔ VersionsDeclared files ∧ TypesAgree files := by
  constructor
  · exact fun h => ⟨h.versionsDeclared, h.typesAgree hreads⟩
  · rintro ⟨hversions, htypes⟩ order hperm
    exact ⟨fun _ _ hlow hhigh => hversions.supported_iff hperm hlow hhigh,
      fun file hfile _ _ hlayout => htypes.restoreState_eq hperm hfile hlayout⟩

end KeepsApart

/-! ## Two versions of one type

Two versions that differ in a name for one type, which is harmless, and two that differ in a type. -/

/-- A schema file of a risk check with one field. -/
def limitFile (version : Int) (type : String) : Record ℚ := Dict.ofList
  [("operator_type", .str "RiskCheck"), ("schema_version", .int version), ("fields", .dict [(.str "limit", .str type)])]

/-- Version 1, in which the limit is a text. -/
def limitV1 : SchemaFile ℚ :=
  ⟨"v1.json", limitFile 1 "str", "RiskCheck", 1, Dict.ofList [("limit", .str "str")], rfl, rfl⟩

/-- Version 2, with another name for the same type. -/
def limitV2 : SchemaFile ℚ :=
  ⟨"v2.json", limitFile 2 "string", "RiskCheck", 2, Dict.ofList [("limit", .str "string")], rfl, rfl⟩

/-- Version 2, with another type for the limit. -/
def limitV2Int : SchemaFile ℚ :=
  ⟨"v2.json", limitFile 2 "int", "RiskCheck", 2, Dict.ofList [("limit", .str "int")], rfl, rfl⟩

/-- A mapper that reads MessagePack, as the real one does. -/
def readLimit : SnapshotDeserializer.Mapper ℚ := CrossLanguage.readDocument Exact.messagePack

/-- A packed limit, the only entry of its document. -/
def limitDoc (v : Value ℚ) : Record ℚ := Dict.ofList [("limit", v)]

/-- What the mapper reads of it. -/
theorem readLimit_packed {v : Value ℚ} {payload : List UInt8} (hpackable : (limitDoc v).toValue.packable = true)
    (huntuple : (limitDoc v).toValue.untuple = (limitDoc v).toValue)
    (hpack : Exact.messagePack.packb (limitDoc v).toValue = .ok payload) :
    readLimit payload = .ok (some (limitDoc v)) := by
  unfold readLimit CrossLanguage.readDocument
  rw [Exact.messagePack.unpackb_packb hpackable hpack, huntuple]
  rfl

theorem readLimit_zero : ∃ payload, readLimit payload = .ok (some (limitDoc (.int 0))) :=
  ⟨_, readLimit_packed rfl rfl rfl⟩

theorem readsProbes_limit {files : List (SchemaFile ℚ)}
    (hfiles : ∀ file ∈ files, ∃ type, file.fields = Dict.ofList [("limit", type)]) :
    ReadsProbes readLimit files := by
  intro file hfile name hname v hv
  obtain ⟨type, htype⟩ := hfiles file hfile
  have hlimit : name = "limit" := by
    rw [htype, Dict.contains, Dict.ofList] at hname
    by_contra hne
    rw [Dict.get_update_singleton, if_neg hne] at hname
    cases hname
  subst hlimit
  simp only [List.mem_cons, List.not_mem_nil, or_false] at hv
  rcases hv with rfl | rfl | rfl
  · exact ⟨_, readLimit_packed rfl rfl rfl⟩
  · exact readLimit_zero
  · exact ⟨_, readLimit_packed rfl rfl rfl⟩

/-- Two versions with the same types under two names. -/
theorem keepsApart_iff_limit : KeepsApart readLimit [limitV1, limitV2] := by
  have hfields : ∀ file ∈ [limitV1, limitV2], ∃ type, file.fields = Dict.ofList [("limit", type)] := by
    simp only [List.forall_mem_cons]
    exact ⟨⟨_, rfl⟩, ⟨_, rfl⟩, fun _ h => absurd h List.not_mem_nil⟩
  refine (keepsApart_iff (readsProbes_limit hfields)).mpr ⟨?_, ?_⟩
  · simp only [VersionsDeclared, List.forall_mem_cons]
    exact ⟨⟨limitV1, by simp, rfl, rfl⟩, ⟨limitV2, by simp, rfl, rfl⟩, fun _ h => absurd h List.not_mem_nil⟩
  · have hsame : ∀ file ∈ [limitV1, limitV2], ∀ name,
        (file.fields.get name).map conversionOf = if name = "limit" then some .str else none := by
      intro file hfile name
      have hget : file.fields.get name = if name = "limit" then file.fields.get "limit" else none := by
        obtain ⟨type, htype⟩ := hfields file hfile
        rw [htype, Dict.ofList, Dict.get_update_singleton, Dict.get_update_singleton]
        rfl
      rw [hget]
      split_ifs with hname
      · simp only [List.mem_cons, List.not_mem_nil, or_false] at hfile
        rcases hfile with rfl | rfl <;> rfl
      · rfl
    intro file hfile file' hfile' _ _ _ name
    rw [hsame file hfile, hsame file' hfile']

/-- A snapshot of version 1 is translated with the field map of version 2, which was loaded later. -/
theorem versions_mixed :
    ∃ bytes payload, CrossLanguage.Layout bytes limitV1.version payload ∧
      restoreState readLimit (loaded [limitV1, limitV2Int]) bytes "RiskCheck" = .ok (limitDoc (.int 0)) ∧
      (readLimit payload >>= CrossLanguage.stateOf >>= SnapshotDeserializer.translateWith limitV1.fields) =
        .ok (limitDoc (.str "0")) ∧
      ¬ KeepsApart readLimit [limitV1, limitV2Int] := by
  obtain ⟨payload, hpayload⟩ := readLimit_zero
  obtain ⟨bytes, hlayout⟩ := exists_layout (show 0 ≤ limitV1.version by decide) (by decide) payload
  have hrestored : restoreState readLimit (loaded [limitV1, limitV2Int]) bytes "RiskCheck" =
      .ok (limitDoc (.int 0)) := by
    have hmem : limitV1 ∈ [limitV1, limitV2Int] := List.mem_cons_self
    refine (restoreState_loaded hmem (by decide) (by decide) rfl hlayout).trans ?_
    rw [hpayload]
    rfl
  have hdeclared : (readLimit payload >>= CrossLanguage.stateOf >>= SnapshotDeserializer.translateWith limitV1.fields) =
      .ok (limitDoc (.str "0")) := by
    rw [hpayload]
    rfl
  refine ⟨bytes, payload, hlayout, hrestored, hdeclared, fun h => ?_⟩
  have heq := (h _ (.refl _)).2 limitV1 List.mem_cons_self bytes payload hlayout
  rw [hdeclared, show limitV1.operatorType = "RiskCheck" from rfl, hrestored] at heq
  cases heq

end Connector
end HybridStream
