import HybridStream.Lib.Proc
import HybridStream.Py.Exact

/-!
# `Connector.Jvm` — Java values and the library calls the Flink connector makes

A document is a `Map<String, Object>` to Java. It is modelled by the records of the Python side: `null`,
`Boolean`, `Integer` (or `Long`, `BigInteger`), `Double`, `String`, `List` and `Map` are the constructors of
`Value`. A `Number` is an integer or a double; a `Boolean` is none.

The methods of the language that the connector calls are given by their documented behaviour, exceptions included: an
unboxed `null`, a `Map.of` with a `null`, a cast that fails. The floating-point functions are a parameter with few
laws, as in `Py.Value`.
-/

namespace HybridStream
namespace Connector

open Lib Py

/-! ## Exceptions

The classes that the modelled code throws or lets through; messages are kept where the code sets them. -/

/-- What a method throws, with the message where the code sets one. The texts of the JVM's own messages are
    not modelled; a library's exception is given by its class and its message. -/
inductive JavaException where
  | classCast
  | nullPointer
  | indexOutOfBounds
  | numberFormat
  | illegalArgument (message : String)
  | io (message : String)
  | other (className : String) (message : Option String)
  deriving DecidableEq, Repr

namespace JavaException

/-- `getClass().getName()`: what a text made of an exception begins with. -/
def className : JavaException → String
  | classCast         => "java.lang.ClassCastException"
  | nullPointer       => "java.lang.NullPointerException"
  | indexOutOfBounds  => "java.lang.IndexOutOfBoundsException"
  | numberFormat      => "java.lang.NumberFormatException"
  | illegalArgument _ => "java.lang.IllegalArgumentException"
  | io _              => "java.io.IOException"
  | other name _      => name

/-- `getMessage()`, which is `null` for those that the runtime throws without a text. -/
def message : JavaException → Option String
  | illegalArgument m => some m
  | io m              => some m
  | other _ m         => m
  | _                 => none

end JavaException

/-! ## Numbers

Integers of 32 and 64 bits as integers that are narrowed at each step that may leave the range, and the conversions
between numbers as the language has them. -/

/-- Doubles as Java has them: what `java.lang.Math` and `DoubleStream` compute, and the texts of numbers. -/
class JavaRuntime (F : Type) extends PyRuntime F where
  /-- `DoubleStream.sum()`: the order and the compensation are the library's. -/
  streamSum : List F → F
  /-- `Math.min(x, y)` -/
  mathMin : F → F → F
  /-- `Math.max(x, y)` -/
  mathMax : F → F → F
  /-- `Double.parseDouble(s)`; `none` where it throws `NumberFormatException`. -/
  parseDouble : String → Option F
  /-- `Long.parseLong(s)`; `none` where it throws `NumberFormatException`. -/
  parseLong : String → Option Int
  /-- `Double.toString(x)` -/
  doubleText : F → String
  /-- `toString` of a byte array, which shows its identity. -/
  bytesText : List UInt8 → String

instance : JavaRuntime ℚ where
  streamSum     := List.sum
  mathMin       := min
  mathMax       := max
  parseDouble s := s.toInt?.map (fun i => (i : ℚ))
  parseLong s   := s.toInt?
  doubleText x  := toString x
  bytesText _   := "[B@0"

/-- The value of the low `w` bits, as a signed number. -/
def narrow (w : Nat) (i : Int) : Int := (i + 2 ^ (w - 1)) % 2 ^ w - 2 ^ (w - 1)

/-- Narrowing keeps the low 64 bits. -/
theorem narrow_long_emod (i : Int) : narrow 64 i % 2 ^ 64 = i % 2 ^ 64 := by
  unfold narrow
  omega

/-- A long is what it is within its range, and nothing else is. -/
theorem narrow_long_eq_iff {i : Int} : narrow 64 i = i ↔ -2 ^ 63 ≤ i ∧ i < 2 ^ 63 := by
  unfold narrow
  omega

/-- And so is an int, where it is one of 32 bits. -/
theorem narrow_int_eq_iff {i : Int} : narrow 32 i = i ↔ -2 ^ 31 ≤ i ∧ i < 2 ^ 31 := by
  unfold narrow
  omega

theorem narrow_int_range (i : Int) : -2 ^ 31 ≤ narrow 32 i ∧ narrow 32 i < 2 ^ 31 := by
  unfold narrow
  omega

/-- Counting on in a long: narrowing at each step comes to the same as narrowing once. -/
theorem narrow_long_succ (i : Int) : narrow 64 (narrow 64 i + 1) = narrow 64 (i + 1) := by
  unfold narrow
  omega

theorem narrow_long_idem (i : Int) : narrow 64 (narrow 64 i) = narrow 64 i := by
  unfold narrow
  omega

section Numbers

variable {F : Type} [PyRuntime F]

/-- `(int) x` and `(long) x`: truncated, out of range the nearest bound, NaN zero. -/
def truncate (w : Nat) (x : F) : Int :=
  match PyRuntime.toInt x with
  | .ok i    => max (-2 ^ (w - 1)) (min (2 ^ (w - 1) - 1) i)
  | .error _ =>
      if PyRuntime.lt 0.0 x then 2 ^ (w - 1) - 1 else if PyRuntime.lt x 0.0 then -2 ^ (w - 1) else 0

/-- `(double) i`, which never throws: what is beyond the range of doubles becomes an infinity. -/
def doubleOf (i : Int) : F :=
  match PyRuntime.ofInt i with
  | some x => x
  | none   => if 0 < i then PyRuntime.inf else PyRuntime.negInf

/-- `((Number) v).doubleValue()`, where `v` is a `Number`. -/
def doubleValue : Value F → Option F
  | .int i   => some (doubleOf i)
  | .float x => some x
  | _        => none

/-- `((Number) v).intValue()` and `((Number) v).longValue()`, where `v` is a `Number`. -/
def wholeValue (w : Nat) : Value F → Option Int
  | .int i   => some (narrow w i)
  | .float x => some (truncate w x)
  | _        => none

end Numbers

/-! ## Casts

A cast to a generic type does not look at the elements, so a list of anything is a list of strings until an element is
used. -/

/-- `(String) v`; `null` casts to anything. -/
def castString {F : Type} : Value F → Except JavaException (Option String)
  | .none  => .ok none
  | .str s => .ok (some s)
  | _      => .error .classCast

/-- `new ArrayList<>((List<T>) v)`; the cast does not look at the elements. -/
def copyList {F : Type} : Value F → Except JavaException (List (Value F))
  | .none    => .error .nullPointer
  | .list xs => .ok xs
  | _        => .error .classCast

/-- A `(Map<K, V>) v` that is written to or copied next. -/
def castMap {F : Type} : Value F → Except JavaException (List (Value F × Value F))
  | .none     => .error .nullPointer
  | .dict kvs => .ok kvs
  | _         => .error .classCast

/-- `(boolean) v`: the cast to `Boolean`, and the unboxing, which throws on `null`. -/
def unboxBoolean {F : Type} : Value F → Except JavaException Bool
  | .none   => .error .nullPointer
  | .bool b => .ok b
  | _       => .error .classCast

/-- `(double) v` of a `Double`; an `Integer` is not cast. -/
def unboxDouble {F : Type} : Value F → Except JavaException F
  | .none    => .error .nullPointer
  | .float x => .ok x
  | _        => .error .classCast

/-- The object that is a `String` or `null`. -/
def ofString {F : Type} : Option String → Value F
  | none   => .none
  | some s => .str s

theorem castString_eq_some {F : Type} {v : Value F} {s : String} (h : castString v = .ok (some s)) :
    v = .str s := by
  unfold castString at h
  split at h <;> cases h
  rfl

/-! ## Collections

The collections that the logics use, with what each of them throws. -/

/-- `Map.of(k₁, v₁, …)`, which takes no `null`. -/
def mapOf {F : Type} (es : List (String × Value F)) : Except JavaException (Record F) :=
  if es.any (fun e => match e.2 with | .none => true | _ => false) then .error .nullPointer
  else .ok (Dict.ofList es)

theorem mapOf_of_null {F : Type} {es : List (String × Value F)} (h : ∃ e ∈ es, e.2 = .none) :
    mapOf es = .error .nullPointer := by
  obtain ⟨e, he, hnull⟩ := h
  exact if_pos (List.any_eq_true.mpr ⟨e, he, by rw [hnull]⟩)

theorem mapOf_of_not_null {F : Type} {es : List (String × Value F)} (h : ∀ e ∈ es, e.2 ≠ .none) :
    mapOf es = .ok (Dict.ofList es) := by
  refine if_neg fun hany => ?_
  obtain ⟨⟨k, v⟩, he, hnull⟩ := List.any_eq_true.mp hany
  cases v with
  | none => exact h _ he rfl
  | _ => cases hnull

/-- `while (xs.size() > size) xs.remove(0);`, which throws in the end where the size is negative. -/
def trim {α : Type} (size : Int) : List α → Except JavaException (List α)
  | []      => if size < 0 then .error .indexOutOfBounds else .ok []
  | x :: xs => if size < (x :: xs).length then trim size xs else .ok (x :: xs)

/-- No list is as short as that. -/
theorem trim_of_neg {α : Type} {size : Int} (h : size < 0) (xs : List α) : trim size xs = .error .indexOutOfBounds := by
  induction xs with
  | nil => rw [trim, if_pos h]
  | cons x xs ih =>
      have hlong : size < (x :: xs).length := by
        rw [List.length_cons]
        omega
      rw [trim, if_pos hlong, ih]

/-- The last elements are left, as many as there may be. -/
theorem trim_of_nonneg {α : Type} {size : Int} (h : 0 ≤ size) (xs : List α) :
    trim size xs = .ok (xs.drop (xs.length - size.toNat)) := by
  induction xs with
  | nil => rw [trim, if_neg (not_lt.mpr h), List.drop_nil]
  | cons x xs ih =>
      rw [trim, List.length_cons]
      split_ifs with hlong
      · rw [ih, show xs.length + 1 - size.toNat = xs.length - size.toNat + 1 by omega, List.drop_succ_cons]
      · rw [show xs.length + 1 - size.toNat = 0 by omega, List.drop_zero]

/-- `xs.get(i)`, which throws on an index out of range. -/
def listGet {α : Type} (xs : List α) (i : Nat) : Except JavaException α :=
  match xs[i]? with
  | some x => .ok x
  | none   => .error .indexOutOfBounds

section Streams

variable {F : Type} [JavaRuntime F]

/-- `DoubleStream.min().orElse(0)`: of one element after the other, by `Math.min`. -/
def streamMin : List F → F
  | []      => 0.0
  | x :: xs => xs.foldl JavaRuntime.mathMin x

/-- `DoubleStream.max().orElse(0)`: of one element after the other, by `Math.max`. -/
def streamMax : List F → F
  | []      => 0.0
  | x :: xs => xs.foldl JavaRuntime.mathMax x

end Streams

/-! ## Text

Blank strings, Boolean texts, and what an object is printed as. -/

/-- `Character.isWhitespace(c)`: the separators of Unicode but for the non-breaking ones, and the control characters
    that the documentation lists. -/
def isWhitespace (c : Char) : Bool :=
  c.toNat ∈ [0x9, 0xa, 0xb, 0xc, 0xd, 0x1c, 0x1d, 0x1e, 0x1f, 0x20, 0x1680, 0x2000, 0x2001, 0x2002, 0x2003,
    0x2004, 0x2005, 0x2006, 0x2008, 0x2009, 0x200a, 0x2028, 0x2029, 0x205f, 0x3000]

/-- `s.isBlank()`: the string is empty or nothing but white space. -/
def isBlank (s : String) : Bool := s.toList.all isWhitespace

/-- `Boolean.parseBoolean(s)`: any case of `true`, and nothing else. -/
def parseBoolean (s : String) : Bool := s.toLower = "true"

section Texts

variable {F : Type} [JavaRuntime F]

mutual

/-- `v.toString()`, and `null` inside a collection. -/
def textOf : Value F → String
  | .none     => "null"
  | .bool b   => if b then "true" else "false"
  | .int i    => toString i
  | .float x  => JavaRuntime.doubleText x
  | .str s    => s
  | .bytes bs => JavaRuntime.bytesText F bs
  | .list xs  => "[" ++ ", ".intercalate (textsOf xs) ++ "]"
  | .tuple xs => "[" ++ ", ".intercalate (textsOf xs) ++ "]"
  | .dict kvs => "\x7b" ++ ", ".intercalate (textsOfPairs kvs) ++ "\x7d"

def textsOf : List (Value F) → List String
  | []      => []
  | x :: xs => textOf x :: textsOf xs

def textsOfPairs : List (Value F × Value F) → List String
  | []            => []
  | (k, v) :: kvs => (textOf k ++ "=" ++ textOf v) :: textsOfPairs kvs

end

end Texts

end Connector
end HybridStream
