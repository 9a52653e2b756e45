import HybridStream.Lib.Dict
import Mathlib.Algebra.Group.Int.Defs

/-!
# `Lib.Protobuf` — proto3 message types and the messages built from them

A message type declares its fields. `build` makes a message from named arguments as the generated classes'
constructors do: a name that is not declared is an error, a value of another type is one, and an argument
that is `none` leaves its field unset. A field that is unset reads as the default of its type.

A `Message` carries the proof that what it holds is declared and typed.
-/

namespace HybridStream
namespace Lib
namespace Protobuf

/-- The field types in use. -/
inductive FieldType where
  | string | int32 | int64 | bool | stringMap
  deriving DecidableEq

/-- What a field holds. -/
inductive FieldValue where
  | string (s : String)
  | int (i : Int)
  | bool (b : Bool)
  | stringMap (m : Dict String String)

/-- Whether a field of the type takes the value. -/
def FieldType.accepts : FieldType → FieldValue → Bool
  | .string,    .string _    => true
  | .int32,     .int i       => -2 ^ 31 ≤ i && i < 2 ^ 31
  | .int64,     .int i       => -2 ^ 63 ≤ i && i < 2 ^ 63
  | .bool,      .bool _      => true
  | .stringMap, .stringMap _ => true
  | _,          _            => false

/-- A message type. -/
structure MessageType where
  name     : String
  fields   : List (String × FieldType)
  distinct : (fields.map Prod.fst).Nodup

/-- The declared type of a field. -/
def MessageType.typeOf (t : MessageType) (name : String) : Option FieldType := lookupEntry name t.fields

/-- A message: the fields that are set, each declared and of its type. -/
structure Message (t : MessageType) where
  fields : Dict String FieldValue
  typed  : ∀ {name v}, fields.get name = some v → ∃ type, t.typeOf name = some type ∧ type.accepts v = true

/-- Why no message is built. -/
inductive BuildError where
  | noField (message field : String)
  | badValue (message field : String)
  | outOfRange (value : Int)

/-- The error for a value that a field of the type does not take: an integer in a field for integers is out of range,
    any other value is of the wrong type. -/
def FieldType.refusal (message field : String) : FieldType → FieldValue → BuildError
  | .int32, .int i => .outOfRange i
  | .int64, .int i => .outOfRange i
  | _,      _      => .badValue message field

namespace Message

variable {t : MessageType}

/-- The message with no field set. -/
def empty : Message t := ⟨∅, fun h => absurd h (by simp)⟩

/-- One named argument of the constructor. -/
def assign (m : Message t) (arg : String × Option FieldValue) : Except BuildError (Message t) :=
  match htype : t.typeOf arg.1 with
  | none => .error (.noField t.name arg.1)
  | some type =>
      match arg.2 with
      | none   => .ok m
      | some v =>
          if haccepts : type.accepts v = true then
            .ok
              { fields := m.fields.set arg.1 v
                typed  := by
                  intro name v' hget
                  by_cases hname : name = arg.1
                  · subst hname
                    rw [Dict.get_set_self] at hget
                    cases hget
                    exact ⟨type, htype, haccepts⟩
                  · rw [Dict.get_set_ne _ hname] at hget
                    exact m.typed hget }
          else .error (type.refusal t.name arg.1 v)

/-- The constructor of the generated class. -/
def build (t : MessageType) (kwargs : List (String × Option FieldValue)) : Except BuildError (Message t) :=
  kwargs.foldlM assign empty

/-- A text field; unset, it is empty. -/
def getString (m : Message t) (name : String) : String :=
  match m.fields.get name with
  | some (.string s) => s
  | _                => ""

theorem assign_of_undeclared (m : Message t) {arg : String × Option FieldValue} (h : t.typeOf arg.1 = none) :
    m.assign arg = .error (.noField t.name arg.1) := by
  unfold assign
  split
  · rfl
  · rename_i type htype
    rw [h] at htype
    cases htype

/-- **An argument whose name the type does not declare is never swallowed**, be its value unset. -/
theorem build_of_undeclared {kwargs : List (String × Option FieldValue)} {arg : String × Option FieldValue}
    (harg : arg ∈ kwargs) (h : t.typeOf arg.1 = none) : ∃ e, build t kwargs = .error e := by
  unfold build
  generalize empty = m
  induction kwargs generalizing m with
  | nil => exact absurd harg List.not_mem_nil
  | cons first rest ih =>
      rw [List.foldlM_cons]
      cases hassign : m.assign first with
      | error e => exact ⟨e, rfl⟩
      | ok m' =>
          have hrest : arg ∈ rest := by
            refine (List.mem_cons.mp harg).resolve_left ?_
            rintro rfl
            rw [assign_of_undeclared m h] at hassign
            cases hassign
          exact ih hrest m'

end Message

end Protobuf
end Lib
end HybridStream
