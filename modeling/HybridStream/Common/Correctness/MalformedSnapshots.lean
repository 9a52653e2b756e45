import HybridStream.Common.SchemaDocuments
import HybridStream.Py.Exact

/-!
# `Common.Correctness.MalformedSnapshots` — what `deserialize` makes of any bytes

For every byte string and every registry `deserialize` returns the fields of the schema it names or raises a
`ValueError` or a `KeyError`, with three exceptions (`clean_iff`): a payload that is MessagePack of something else than
a map, of which `doc.get` is asked all the same; a class whose look-up raises something of its own; and a document that
is found but is no schema, in which `f["name"] for f in schema["fields"]` stumbles. The proof follows the call: bytes
that do not decode are rejected, then the map is asked for a class, the registry for the document, and the document for
its names; each step is one of the three conditions, or cannot raise anything else.
-/

namespace HybridStream
namespace Common

open Lib Py

variable {F : Type} [PyRuntime F]

/-! ## Bytes

The payload is looked at once the magic is right, and what it decodes to is unique; everything else is a
`ValueError`. -/

section Bytes

variable {mp : MessagePack F} {data : List UInt8} {high low : UInt8} {doc : Value F}

/-- The bytes are a header and MessagePack of `doc`. -/
def Decodes (mp : MessagePack F) (data : List UInt8) (high low : UInt8) (doc : Value F) : Prop :=
  ∃ payload, data = magic ++ [high, low] ++ payload ∧ mp.unpackb payload = .ok doc

theorem decodes_unique {high' low' : UInt8} {doc' : Value F} (h : Decodes mp data high low doc)
    (h' : Decodes mp data high' low' doc') : high' = high ∧ low' = low ∧ doc' = doc := by
  obtain ⟨payload, rfl, hunpack⟩ := h
  obtain ⟨payload', heq, hunpack'⟩ := h'
  simp only [magic, List.cons_append, List.nil_append, List.cons.injEq, true_and] at heq
  obtain ⟨rfl, rfl, rfl⟩ := heq
  rw [hunpack] at hunpack'
  exact ⟨rfl, rfl, (Except.ok.inj hunpack').symm⟩

omit [PyRuntime F] in
/-- What is no map has no `get`. -/
theorem fieldsOf_eq_error (h : ∀ kvs, doc ≠ .dict kvs) :
    fieldsOf doc = .error ⟨.attributeError, "object has no attribute 'get'"⟩ := by
  unfold fieldsOf
  split
  · exact absurd rfl (h _)
  · rfl

/-- Such bytes are asked for their class. -/
theorem unpack_of_decodes (h : Decodes mp data high low doc) :
    unpack mp data = fieldsOf doc >>= fun kvs =>
      if !(Record.lookup kvs "operator_class").truthy then
        .error ⟨.valueError, "Missing operator_class in snapshot payload"⟩
      else .ok ⟨Record.lookup kvs "operator_class", unpackUint16 high low, kvs⟩ := by
  obtain ⟨payload, rfl, hunpack⟩ := h
  have hne : payload ≠ [] := fun hnil => mp.unpackb_nil _ (hnil ▸ hunpack)
  show unpack mp (0x48 :: 0x53 :: 0x4d :: 0x50 :: high :: low :: payload) = _
  simp only [unpack, magic, ne_eq, not_true_eq_false, if_false, hne, hunpack]

/-- All others are rejected. -/
theorem unpack_of_not_decodes (h : ∀ high low doc, ¬ Decodes mp data high low doc) :
    ∃ text, unpack mp data = .error ⟨.valueError, text⟩ := by
  unfold unpack
  split
  · rename_i m₀ m₁ m₂ m₃ high low payload
    split_ifs with hmagic hempty
    · exact ⟨_, rfl⟩
    · exact ⟨_, rfl⟩
    · cases hunpack : mp.unpackb payload with
      | error e => exact ⟨_, rfl⟩
      | ok doc =>
          refine absurd ⟨payload, ?_, hunpack⟩ (h high low doc)
          rw [← not_not.mp hmagic]
          rfl
  · exact ⟨_, rfl⟩

end Bytes

/-! ## Documents

The comprehension goes through the items in order and stops at the first that raises. A `KeyError` there is one of the
two exceptions allowed, so an item without a name makes the items behind it irrelevant. -/

/-- `ValueError` or `KeyError`. -/
def Expected (e : PyError) : Prop := e.kind = .valueError ∨ e.kind = .keyError

/-- Up to the first item without a name, the items are objects whose names can be keys. -/
def Listable : List (Value F) → Prop
  | []                  => True
  | .dict kvs :: items  => match lookupEntry (.str "name") kvs with
      | some name => name.hashable = true ∧ Listable items
      | none      => True
  | _ :: _              => False

/-- The document is an object, and its fields, if it has any, can be listed. -/
def ReadsAsSchema (document : Value F) : Prop :=
  ∃ kvs, document = .dict kvs ∧ ∀ fields, lookupEntry (.str "fields") kvs = some fields →
    ∃ items, fields.iterate = .ok items ∧ Listable items

/-- Items can be listed where that raises nothing but a `KeyError`. -/
theorem names_expected_iff (items : List (Value F)) :
    (∀ e, items.mapM fieldName = .error e → Expected e) ↔ Listable items := by
  induction items with
  | nil => exact iff_of_true nofun trivial
  | cons item items ih =>
      rw [List.mapM_cons]
      cases item with
      | dict kvs =>
          unfold Listable fieldName
          -- no name is a `KeyError`, and a name that is no key a `TypeError`
          cases hname : lookupEntry (.str "name") kvs with
          | none =>
              rw [Value.subscript_dict_none hname]
              refine iff_of_true (fun e he => ?_) trivial
              cases he
              exact Or.inr rfl
          | some name =>
              rw [Value.subscript_dict hname, ← ih]
              show (∀ e, (name.asKey >>= _) = .error e → _) ↔ name.hashable = true ∧ _
              by_cases hhash : name.hashable = true
              · have hkey : name.asKey = .ok name := if_pos hhash
                rw [hkey, and_iff_right hhash]
                show (∀ e, (items.mapM fieldName >>= fun names => Except.ok (name :: names)) = .error e → _) ↔ _
                cases items.mapM fieldName with
                | error e' => exact Iff.rfl
                | ok names => exact iff_of_true nofun nofun
              · have hkey : name.asKey = .error ⟨.typeError, "unhashable type"⟩ := if_neg hhash
                rw [hkey]
                refine iff_of_false (fun h => ?_) fun h => hhash h.1
                rcases h _ rfl with h | h <;> cases h
      | none | bool | int | float | str | bytes | list | tuple =>
          unfold Listable
          refine iff_of_false (fun h => ?_) id
          rcases h _ rfl with h | h <;> cases h

/-- A document that is no schema is found out by a `TypeError`. -/
theorem fieldNames_expected_iff (document : Value F) :
    (∀ e, fieldNames document = .error e → Expected e) ↔ ReadsAsSchema document := by
  unfold fieldNames ReadsAsSchema
  cases document with
  -- a map is read by its fields, anything else is no schema
  | dict kvs =>
      cases hfields : lookupEntry (.str "fields") kvs with
      | none =>
          refine iff_of_true (fun e he => ?_) ⟨kvs, rfl, fun fields h => by rw [hfields] at h; cases h⟩
          rw [Value.subscript_dict_none hfields] at he
          cases he
          exact Or.inr rfl
      | some fields =>
          rw [Value.subscript_dict hfields]
          cases hitems : fields.iterate with
          | error e =>
              -- the fields cannot be iterated: a `TypeError`, which is not among the expected ones
              refine iff_of_false (fun h => ?_) ?_
              · have hkind : e.kind = .typeError := by
                  cases fields <;> cases hitems
                  all_goals rfl
                rcases h e (by simp only [bind, Except.bind, hitems]) with h | h <;> rw [hkind] at h <;> cases h
              · rintro ⟨kvs', heq, h⟩
                cases heq
                obtain ⟨items, hok, -⟩ := h fields hfields
                rw [hitems] at hok
                cases hok
          | ok items =>
              have hnames : (Except.ok fields >>= fun v : Value F => v.iterate >>= fun fields =>
                  fields.mapM fieldName) = items.mapM fieldName := by
                show (fields.iterate >>= _) = _
                rw [hitems]
                rfl
              rw [hnames, names_expected_iff]
              constructor
              · intro h
                refine ⟨kvs, rfl, fun fields' hfields' => ?_⟩
                rw [hfields] at hfields'
                cases hfields'
                exact ⟨items, hitems, h⟩
              · rintro ⟨kvs', heq, h⟩
                cases heq
                obtain ⟨items', hitems', h⟩ := h fields hfields
                rw [hitems] at hitems'
                cases hitems'
                exact h
  | none | bool | int | float | str | bytes | list | tuple =>
      refine iff_of_false (fun h => ?_) nofun
      rcases h _ rfl with h | h <;> cases h

/-! ## Clean endings

What the call should end with, said without the code: the fields of a document that was found, or one of the two
exceptions that are expected. The condition is on the three inputs (the bytes, what is found for the class, the
document that is found), each of which can spoil it in one way. -/

/-- The keys are exactly the names: no others, and each of them or one equal to it. -/
def KeysAre (result : Dict (Value F) (Value F)) (names : List (Value F)) : Prop :=
  (∀ k ∈ result.keys, k ∈ names) ∧ ∀ name ∈ names, name ∈ result.keys ∨ ∃ k ∈ result.keys, (k == name) = true

/-- The call returned the fields of the document stored for the class in the payload and the version in the header, or
    raised an expected error. -/
def CleanEnding (mp : MessagePack F) (load : String → Int → Except PyError (Option (Value F))) (data : List UInt8) :
    Except PyError (Dict (Value F) (Value F)) → Prop
  | .error e   => Expected e
  | .ok result => ∃ high low kvs document names, Decodes mp data high low (.dict kvs) ∧
      load (Record.lookup kvs "operator_class").toStr (unpackUint16 high low) = .ok (some document) ∧
      fieldNames document = .ok names ∧ KeysAre result names

/-- What the payload decodes to, if it does, is a map. -/
def PayloadIsMap (mp : MessagePack F) (data : List UInt8) : Prop :=
  ∀ high low doc, Decodes mp data high low doc → ∃ kvs, doc = .dict kvs

/-- Looking up the class the payload names, if it names one, raises nothing of its own. -/
def LooksUp (mp : MessagePack F) (load : String → Int → Except PyError (Option (Value F))) (data : List UInt8) : Prop :=
  ∀ high low kvs e, Decodes mp data high low (.dict kvs) → (Record.lookup kvs "operator_class").truthy = true →
    load (Record.lookup kvs "operator_class").toStr (unpackUint16 high low) = .error e → Expected e

/-- What is found for the class the payload names can be read as a schema. -/
def FindsSchema (mp : MessagePack F) (load : String → Int → Except PyError (Option (Value F))) (data : List UInt8) :
    Prop :=
  ∀ high low kvs document, Decodes mp data high low (.dict kvs) →
    (Record.lookup kvs "operator_class").truthy = true →
    load (Record.lookup kvs "operator_class").toStr (unpackUint16 high low) = .ok (some document) →
      ReadsAsSchema document

theorem KeysAre.set {d : Dict (Value F) (Value F)} {names : List (Value F)} (h : KeysAre d names) (name v : Value F) :
    KeysAre (d.set name v) (names ++ [name]) := by
  obtain ⟨hkeys, hnames⟩ := h
  rcases keys_setEntry name v d.entries with ⟨hsame, hequal⟩ | hnew
  · -- the key that is equal to the name stays
    have hsame : (d.set name v).keys = d.keys := hsame
    unfold KeysAre
    rw [hsame]
    refine ⟨fun k hk => List.mem_append_left _ (hkeys k hk), fun name' hname' => ?_⟩
    rcases List.mem_append.mp hname' with hname' | hname'
    · exact hnames name' hname'
    · rw [List.mem_singleton.mp hname']
      exact Or.inr hequal
  · have hnew : (d.set name v).keys = d.keys ++ [name] := hnew
    unfold KeysAre
    rw [hnew]
    constructor
    · intro k hk
      rcases List.mem_append.mp hk with hk | hk
      · exact List.mem_append_left _ (hkeys k hk)
      · exact List.mem_append_right _ hk
    · intro name' hname'
      rcases List.mem_append.mp hname' with hname' | hname'
      · exact (hnames name' hname').imp (List.mem_append_left _)
          fun ⟨k, hk, hequal⟩ => ⟨k, List.mem_append_left _ hk, hequal⟩
      · exact Or.inl (List.mem_append_right _ hname')

/-- Setting the names one after the other, each is a key or is equal to one. -/
theorem keysAre_ofList (names : List (Value F)) (f : Value F → Value F) :
    KeysAre (Dict.ofList (names.map (fun name => (name, f name)))) names := by
  have hrun : ∀ (names before : List (Value F)) (d : Dict (Value F) (Value F)), KeysAre d before →
      KeysAre (d.update (names.map (fun name => (name, f name)))) (before ++ names) := by
    intro names
    induction names with
    | nil =>
        intro before d h
        rwa [List.append_nil]
    | cons name names ih =>
        intro before d h
        have hset := h.set name (f name)
        have hrest := ih (before ++ [name]) (d.set name (f name)) hset
        rwa [List.append_assoc] at hrest
  exact hrun names [] ∅ ⟨fun k hk => absurd hk List.not_mem_nil, fun name hname => absurd hname List.not_mem_nil⟩

section Ending

variable {mp : MessagePack F} {data : List UInt8}

/-- Once the class is to be looked up, the look-up and the document decide. -/
theorem cleanEnding_found {load : String → Int → Except PyError (Option (Value F))} {high low : UInt8}
    {kvs : List (Value F × Value F)} (hdoc : Decodes mp data high low (.dict kvs))
    (htruthy : (Record.lookup kvs "operator_class").truthy = true) :
    CleanEnding mp load data
      (ending (Record.lookup kvs "operator_class").toStr (unpackUint16 high low)
        (load (Record.lookup kvs "operator_class").toStr (unpackUint16 high low)) >>=
          Unpacked.comprehension ⟨Record.lookup kvs "operator_class", unpackUint16 high low, kvs⟩) ↔
      LooksUp mp load data ∧ FindsSchema mp load data := by
  -- both conditions are about the one look-up that is made
  have hlooksUp : LooksUp mp load data ↔
      ∀ e, load (Record.lookup kvs "operator_class").toStr (unpackUint16 high low) = .error e → Expected e := by
    constructor
    · exact fun h e he => h high low kvs e hdoc htruthy he
    · intro h high' low' kvs' e hdoc' _ he
      obtain ⟨rfl, rfl, heq⟩ := decodes_unique hdoc hdoc'
      cases heq
      exact h e he
  have hfinds : FindsSchema mp load data ↔ ∀ document,
      load (Record.lookup kvs "operator_class").toStr (unpackUint16 high low) = .ok (some document) →
        ReadsAsSchema document := by
    constructor
    · exact fun h document hload => h high low kvs document hdoc htruthy hload
    · intro h high' low' kvs' document hdoc' _ hload
      obtain ⟨rfl, rfl, heq⟩ := decodes_unique hdoc hdoc'
      cases heq
      exact h document hload
  rw [hlooksUp, hfinds]
  cases hfound : load (Record.lookup kvs "operator_class").toStr (unpackUint16 high low) with
  | error e =>
      constructor
      · intro h
        refine ⟨fun e' he => ?_, nofun⟩
        cases he
        exact h
      · exact fun h => h.1 e rfl
  | ok found =>
      cases found with
      | none => exact iff_of_true (Or.inr rfl) ⟨nofun, nofun⟩
      | some document =>
          have honly : (∀ document', Except.ok (some document) = (.ok (some document') : Except PyError _) →
              ReadsAsSchema document') ↔ ReadsAsSchema document :=
            ⟨fun h => h document rfl, fun h document' heq => by cases heq; exact h⟩
          rw [honly, ← fieldNames_expected_iff]
          show CleanEnding mp load data (Unpacked.comprehension _ document) ↔ _
          unfold Unpacked.comprehension
          cases hnames : fieldNames document with
          | error e =>
              constructor
              · intro h
                refine ⟨nofun, fun e' he => ?_⟩
                cases he
                exact h
              · exact fun h => h.2 e rfl
          | ok names =>
              refine iff_of_true ?_ ⟨nofun, nofun⟩
              exact ⟨high, low, kvs, document, names, hdoc, hfound, hnames, keysAre_ofList names _⟩

end Ending

/-- **When bytes are handled cleanly**, for every byte string, every registry and whatever has been looked up in it
    before. By cases on what the bytes are, in the order in which the code looks: a header, a payload, a map, a class,
    and what the look-up of the class has brought. -/
theorem clean_iff (mp : MessagePack F) (load : String → Int → Except PyError (Option (Value F)))
    (lookups : List (String × Int)) (data : List UInt8) :
    CleanEnding mp load data ((deserializeDocument mp data).exec (.asked load lookups)).1 ↔
      PayloadIsMap mp data ∧ LooksUp mp load data ∧ FindsSchema mp load data := by
  obtain ⟨hload, hagrees⟩ := CachedRegistry.asked_spec load lookups
  unfold deserializeDocument
  by_cases hdecodes : ∃ high low doc, Decodes mp data high low doc
  · obtain ⟨high, low, doc, hdoc⟩ := hdecodes
    have hunpack := unpack_of_decodes hdoc
    by_cases hmap : ∃ kvs, doc = .dict kvs
    · obtain ⟨kvs, rfl⟩ := hmap
      have hpayload : PayloadIsMap mp data := fun high' low' doc' h => ⟨kvs, (decodes_unique hdoc h).2.2⟩
      rw [and_iff_right hpayload]
      by_cases htruthy : (Record.lookup kvs "operator_class").truthy = true
      · have hread : unpack mp data = .ok ⟨Record.lookup kvs "operator_class", unpackUint16 high low, kvs⟩ := by
          rw [hunpack]
          simp only [fieldsOf, bind, Except.bind, htruthy, Bool.not_true, Bool.false_eq_true, if_false]
        rw [CachedRegistry.exec_deserializeBy_ok hread hagrees, hload]
        exact cleanEnding_found hdoc htruthy
      · -- the payload names no class
        have hread : unpack mp data = .error ⟨.valueError, "Missing operator_class in snapshot payload"⟩ := by
          rw [hunpack]
          simp only [fieldsOf, bind, Except.bind, htruthy, Bool.not_false, if_true]
        have hnone : ∀ high' low' kvs', Decodes mp data high' low' (.dict kvs') →
            ¬ (Record.lookup kvs' "operator_class").truthy = true := by
          intro high' low' kvs' h
          cases (decodes_unique hdoc h).2.2
          exact htruthy
        rw [CachedRegistry.exec_deserializeBy_error hread]
        exact iff_of_true (Or.inl rfl) ⟨fun _ _ _ _ h htruthy' _ => absurd htruthy' (hnone _ _ _ h),
          fun _ _ _ _ h htruthy' _ => absurd htruthy' (hnone _ _ _ h)⟩
    -- what was packed is no map, so `get` raises an `AttributeError`
    · have hraises := fieldsOf_eq_error fun kvs heq => hmap ⟨kvs, heq⟩
      rw [CachedRegistry.exec_deserializeBy_error (hunpack.trans (by rw [hraises]; rfl))]
      refine iff_of_false ?_ fun h => hmap (h.1 high low doc hdoc)
      rintro (h | h) <;> cases h
  -- nothing is decoded: too short, another magic, or a payload that is no MessagePack
  · have hno : ∀ high low doc, ¬ Decodes mp data high low doc :=
      fun high low doc h => hdecodes ⟨high, low, doc, h⟩
    obtain ⟨text, htext⟩ := unpack_of_not_decodes hno
    rw [CachedRegistry.exec_deserializeBy_error htext]
    exact iff_of_true (Or.inl rfl) ⟨fun _ _ _ h => absurd h (hno _ _ _), fun _ _ _ _ h => absurd h (hno _ _ _),
      fun _ _ _ _ h => absurd h (hno _ _ _)⟩

/-- The bytes of a header of version 1 and the number 1. -/
def numberBytes : List UInt8 := [0x48, 0x53, 0x4d, 0x50, 0x00, 0x01, 0x01]

/-- The bytes of a header of version 1 and the map that names the class `A`. -/
def classBytes : List UInt8 :=
  [0x48, 0x53, 0x4d, 0x50, 0x00, 0x01, 0x81, 0xae, 0x6f, 0x70, 0x65, 0x72, 0x61, 0x74, 0x6f, 0x72, 0x5f, 0x63, 0x6c,
    0x61, 0x73, 0x73, 0xa1, 0x41]

/-- For the class `A` a document is found whose fields are the list of one text. -/
def listedTexts (cls : String) (version : Int) : Except PyError (Option (Value ℚ)) :=
  if cls = "A" ∧ version = 1 then .ok (some (.dict [(.str "fields", .list [.str "a"])])) else .ok none

/-- The number is asked for `get`, and the text for its `name`. -/
theorem number_payload :
    (((deserializeDocument Exact.messagePack numberBytes).exec (.asked listedTexts [])).1 =
        .error ⟨.attributeError, "object has no attribute 'get'"⟩ ∧
      ¬ CleanEnding Exact.messagePack listedTexts numberBytes
        ((deserializeDocument Exact.messagePack numberBytes).exec (.asked listedTexts [])).1) ∧
    ((deserializeDocument Exact.messagePack classBytes).exec (.asked listedTexts [])).1 =
        .error ⟨.typeError, "string indices must be integers"⟩ ∧
      ¬ CleanEnding Exact.messagePack listedTexts classBytes
        ((deserializeDocument Exact.messagePack classBytes).exec (.asked listedTexts [])).1 := by
  have hnumber : ((deserializeDocument Exact.messagePack numberBytes).exec (.asked listedTexts [])).1 =
      .error ⟨.attributeError, "object has no attribute 'get'"⟩ := rfl
  have htext : ((deserializeDocument Exact.messagePack classBytes).exec (.asked listedTexts [])).1 =
      .error ⟨.typeError, "string indices must be integers"⟩ := rfl
  refine ⟨⟨hnumber, ?_⟩, htext, ?_⟩
  · rw [hnumber]
    rintro (h | h) <;> cases h
  · rw [htext]
    rintro (h | h) <;> cases h

end Common
end HybridStream
