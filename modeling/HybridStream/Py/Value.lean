import HybridStream.Lib.Dict
import Mathlib.Data.List.Sort

/-!
# `Py.Value` — the Python values the components pass around

Records, operator states and snapshot documents are Python objects made of `None`, booleans, integers,
floats, strings, bytes, lists, tuples and dictionaries. `Value F` is that data type over an arbitrary
float type `F`; `PyRuntime F` is what the interpreter supplies for it (float arithmetic and comparison,
float text, `statistics`, the Unicode table). No law is asked of `PyRuntime`: a result stated for every
`F` holds for IEEE doubles, and a result in exact arithmetic picks an instance with the laws it needs.

The conversions are the built-in ones (`float(v)`, `int(v)`, `bool(v)`, `str(v)`, `sum`), with the
exceptions they raise.
-/

namespace HybridStream
namespace Py

/-- The exception classes the modelled code raises or lets through. -/
inductive ExcKind where
  | valueError | keyError | typeError | attributeError | overflowError | zeroDivisionError | runtimeError
  | structError | other
  deriving DecidableEq, Repr

/-- A raised exception: its class and its text `str(e)`. -/
structure PyError where
  kind : ExcKind
  text : String
  deriving DecidableEq, Repr

/-- What the interpreter supplies for the float type `F`. -/
class PyRuntime (F : Type) extends Add F, Sub F, Mul F, Div F, Neg F, OfScientific F where
  /-- `x < y` -/
  lt : F → F → Bool
  /-- `x <= y` -/
  le : F → F → Bool
  /-- `x == y` -/
  eq : F → F → Bool
  /-- `x == i` for an integer `i` (compared exactly). -/
  eqInt : F → Int → Bool
  /-- `float(i)`; `none` where it overflows. -/
  ofInt : Int → Option F
  /-- `i / j` on integers, `j ≠ 0`; `none` where it overflows. -/
  trueDiv : Int → Int → Option F
  /-- `int(x)`: truncation, an exception on infinities and NaN. -/
  toInt : F → Except PyError Int
  /-- `math.ceil(x)`, an exception on infinities and NaN. -/
  ceil : F → Except PyError Int
  /-- `math.sqrt(x)` for `x` not negative. -/
  sqrt : F → F
  /-- `x ** 2`; `none` where it overflows. -/
  sq : F → Option F
  /-- `round(x, n)` -/
  round : F → Nat → F
  /-- `sum` over floats, from a float start. -/
  fsum : F → List F → F
  /-- `statistics.mean` of a non-empty list. -/
  mean : List F → F
  /-- `statistics.stdev` of a list of at least two; it raises where the sum of squares is infinite or not a number. -/
  stdev : List F → Except PyError F
  /-- `float("inf")` -/
  inf : F
  /-- `float("-inf")` -/
  negInf : F
  /-- `float(s)` on text; `none` where it raises `ValueError`. -/
  parse : String → Option F
  /-- `int(s)` on text; `none` where it raises `ValueError`. -/
  parseInt : String → Option Int
  /-- The text a bytes argument of `float` or `int` stands for. -/
  numberText : List UInt8 → Option String
  /-- `repr(x)` -/
  repr : F → String
  /-- Whether `repr` of a string shows the character as it is. -/
  printable : Char → Bool

/-- A Python value, of those that records and states are made of. -/
inductive Value (F : Type) where
  | none
  | bool (b : Bool)
  | int (i : Int)
  | float (x : F)
  | str (s : String)
  | bytes (bs : List UInt8)
  | list (xs : List (Value F))
  | tuple (xs : List (Value F))
  | dict (kvs : List (Value F × Value F))

variable {F : Type}

/-! ## Floats

The functions of the language on floats, written with the operations that the interpreter supplies, so that each of
them means on doubles what it does in the language and on exact numbers what it says. A division by zero raises;
nothing else here does. -/

section Floats

variable [PyRuntime F]

/-- `max(x, y)`: the first argument unless the second is greater. -/
def pyMax (x y : F) : F := if PyRuntime.lt x y then y else x

/-- `min(x, y)`: the first argument unless the second is smaller. -/
def pyMin (x y : F) : F := if PyRuntime.lt y x then y else x

/-- `max(xs)` of a non-empty list `x :: xs`. -/
def pyMaxOf (x : F) (xs : List F) : F := xs.foldl pyMax x

/-- `min(xs)` of a non-empty list `x :: xs`. -/
def pyMinOf (x : F) (xs : List F) : F := xs.foldl pyMin x

/-- `sorted(xs)`: the stable sort by `<`. -/
def pySorted (xs : List F) : List F := xs.insertionSort (fun x y => ¬ PyRuntime.lt y x = true)

/-- `abs(x)`; both zeros become the positive one. -/
def pyAbs (x : F) : F := if PyRuntime.lt x 0.0 then -x else if PyRuntime.eq x 0.0 then 0.0 else x

/-- `x / y` on floats, which raises for a divisor of zero. -/
def floatDiv (x y : F) : Except PyError F :=
  if PyRuntime.eq y 0.0 then .error ⟨.zeroDivisionError, "float division by zero"⟩ else .ok (x / y)

/-- `float(i)`, which raises where no float is large enough. -/
def floatOfInt (i : Int) : Except PyError F :=
  match PyRuntime.ofInt i with
  | some x => .ok x
  | .none  => .error ⟨.overflowError, "int too large to convert to float"⟩

/-- `x / i` for an integer divisor. -/
def floatDivInt (x : F) (i : Int) : Except PyError F := do floatDiv x (← floatOfInt i)

/-- `i / j` on integers, rounded once, which raises for zero and where the result overflows. -/
def intDiv (i j : Int) : Except PyError F :=
  if j = 0 then .error ⟨.zeroDivisionError, "division by zero"⟩
  else match PyRuntime.trueDiv i j with
    | some x => .ok x
    | .none  => .error ⟨.overflowError, "integer division result too large for a float"⟩

/-- `math.sqrt(x)`, which raises below zero. -/
def pySqrt (x : F) : Except PyError F :=
  if PyRuntime.lt x 0.0 then .error ⟨.valueError, "math domain error"⟩ else .ok (PyRuntime.sqrt x)

/-- `x ** 2`, which raises where it overflows. -/
def pySquare (x : F) : Except PyError F :=
  match PyRuntime.sq x with
  | some y => .ok y
  | .none  => .error ⟨.overflowError, "(34, 'Numerical result out of range')"⟩

/-- `sum(xs)` over floats: the start `0` is an integer and is absorbed by the first float. -/
def sumFloats : List F → F
  | []      => 0.0
  | x :: xs => PyRuntime.fsum (0.0 + x) xs

end Floats

namespace Value

/-! ## Equality of dictionary keys

Keys compare across number types and by content, and only hashable values can be keys. Texts, which are the keys of
almost every dictionary here, are equal where they are the same text. -/

section Equality

variable [PyRuntime F]

/-- The integer a boolean is: one or zero. -/
def intOfBool (b : Bool) : Int := if b then 1 else 0

mutual

/-- `a == b` between hashable values: numbers compare across `bool`, `int` and `float`. -/
def keyEq : Value F → Value F → Bool
  | .none, .none       => true
  | .bool a, .bool b   => a == b
  | .bool a, .int j    => intOfBool a == j
  | .bool a, .float y  => PyRuntime.eqInt y (intOfBool a)
  | .int i, .bool b    => i == intOfBool b
  | .int i, .int j     => i == j
  | .int i, .float y   => PyRuntime.eqInt y i
  | .float x, .bool b  => PyRuntime.eqInt x (intOfBool b)
  | .float x, .int j   => PyRuntime.eqInt x j
  | .float x, .float y => PyRuntime.eq x y
  | .str s, .str t     => s == t
  | .bytes a, .bytes b => a == b
  | .tuple xs, .tuple ys => keysEq xs ys
  | _, _ => false

def keysEq : List (Value F) → List (Value F) → Bool
  | [], []           => true
  | x :: xs, y :: ys => keyEq x y && keysEq xs ys
  | _, _             => false

end

instance : BEq (Value F) := ⟨keyEq⟩

@[simp] theorem beq_str (s t : String) : ((Value.str s : Value F) == .str t) = (s == t) := by
  show keyEq (.str s) (.str t) = _
  rw [keyEq]

/-- As keys, strings are equal where they are the same text. -/
theorem beq_str_eq_decide (s t : String) : ((Value.str s : Value F) == .str t) = decide (s = t) := by
  rw [beq_str]
  rfl

end Equality

mutual

/-- `hash(v)` does not raise: neither a list nor a dictionary is anywhere in it. -/
def hashable : Value F → Bool
  | .list _   => false
  | .dict _   => false
  | .tuple xs => hashableAll xs
  | _         => true

def hashableAll : List (Value F) → Bool
  | []      => true
  | x :: xs => hashable x && hashableAll xs

end

/-- The check every use of `v` as a dictionary key makes. -/
def asKey (v : Value F) : Except PyError (Value F) :=
  if hashable v then .ok v else .error ⟨.typeError, "unhashable type"⟩

/-! ## Tuples read back as lists

The one change that a value undergoes when it is packed and unpacked, at every depth. -/

mutual

/-- Tuples become lists, at every depth: what a MessagePack or JSON round trip does to a value. -/
def untuple : Value F → Value F
  | .list xs  => .list (untupleList xs)
  | .tuple xs => .list (untupleList xs)
  | .dict kvs => .dict (untuplePairs kvs)
  | .none     => .none
  | .bool b   => .bool b
  | .int i    => .int i
  | .float x  => .float x
  | .str s    => .str s
  | .bytes bs => .bytes bs

def untupleList : List (Value F) → List (Value F)
  | []      => []
  | x :: xs => untuple x :: untupleList xs

def untuplePairs : List (Value F × Value F) → List (Value F × Value F)
  | []            => []
  | (k, v) :: kvs => (untuple k, untuple v) :: untuplePairs kvs

end

theorem untuplePairs_eq_map (kvs : List (Value F × Value F)) :
    untuplePairs kvs = kvs.map (fun e => (untuple e.1, untuple e.2)) := by
  induction kvs with
  | nil => rw [untuplePairs, List.map_nil]
  | cons e kvs ih => rw [untuplePairs, ih, List.map_cons]

@[simp] theorem untuple_str (s : String) : untuple (.str s : Value F) = .str s := by rw [untuple]

@[simp] theorem untuple_none : untuple (.none : Value F) = .none := by rw [untuple]

@[simp] theorem untuple_int (i : Int) : untuple (.int i : Value F) = .int i := by rw [untuple]

@[simp] theorem untuple_float (x : F) : untuple (.float x : Value F) = .float x := by rw [untuple]

/-! ## Conversions

`float`, `int`, `bool`, `str` and `sum` on values of any type, with the exceptions they raise: the operators apply
them to whatever a record or a state holds. -/

section Conversions

variable [PyRuntime F]

/-- `float(v)`: of numbers, and of text and bytes that read as one. -/
def toFloat : Value F → Except PyError F
  | .float x => .ok x
  | .int i   => floatOfInt i
  | .bool b  => floatOfInt (intOfBool b)
  | .str s   => match PyRuntime.parse s with
    | some x => .ok x
    | .none  => .error ⟨.valueError, "could not convert string to float"⟩
  | .bytes b => match (PyRuntime.numberText F b).bind PyRuntime.parse with
    | some x => .ok x
    | .none  => .error ⟨.valueError, "could not convert string to float"⟩
  | _        => .error ⟨.typeError, "float() argument must be a string or a real number"⟩

/-- `int(v)`: floats are truncated, and text and bytes are read as a decimal literal. -/
def toInt : Value F → Except PyError Int
  | .int i   => .ok i
  | .bool b  => .ok (intOfBool b)
  | .float x => PyRuntime.toInt x
  | .str s   => match PyRuntime.parseInt F s with
    | some i => .ok i
    | .none  => .error ⟨.valueError, "invalid literal for int() with base 10"⟩
  | .bytes b => match (PyRuntime.numberText F b).bind (PyRuntime.parseInt F) with
    | some i => .ok i
    | .none  => .error ⟨.valueError, "invalid literal for int() with base 10"⟩
  | _        => .error ⟨.typeError, "int() argument must be a string, a bytes-like object or a real number"⟩

@[simp] theorem toFloat_float (x : F) : toFloat (.float x) = .ok x := rfl

@[simp] theorem toInt_int (i : Int) : toInt (.int i : Value F) = .ok i := rfl

/-- `bool(v)`: zero, `None` and whatever is empty are false. -/
def truthy : Value F → Bool
  | .none     => false
  | .bool b   => b
  | .int i    => i != 0
  | .float x  => !PyRuntime.eq x 0.0
  | .str s    => s != ""
  | .bytes bs => !bs.isEmpty
  | .list xs  => !xs.isEmpty
  | .tuple xs => !xs.isEmpty
  | .dict kvs => !kvs.isEmpty

/-- Two lower-case hexadecimal digits, of one byte. -/
def hex2 (n : Nat) : List Char := [Nat.digitChar (n / 16 % 16), Nat.digitChar (n % 16)]

/-- The single quote, the double quote and the backslash. -/
def singleQuote : Char := Char.ofNat 39

def doubleQuote : Char := Char.ofNat 34

def backslash : Char := Char.ofNat 92

/-- A character inside a quoted `repr`; `shown` says which are written as they are. -/
def reprChar (shown : Char → Bool) (quote c : Char) : List Char :=
  if c = quote ∨ c = backslash then [backslash, c]
  else if c = Char.ofNat 10 then [backslash, 'n']
  else if c = Char.ofNat 13 then [backslash, 'r']
  else if c = Char.ofNat 9 then [backslash, 't']
  else if shown c then [c]
  else if c.toNat < 256 then backslash :: 'x' :: hex2 c.toNat
  else if c.toNat < 65536 then backslash :: 'u' :: (hex2 (c.toNat / 256) ++ hex2 c.toNat)
  else backslash :: 'U' :: (hex2 (c.toNat / 16777216) ++ hex2 (c.toNat / 65536)
    ++ hex2 (c.toNat / 256) ++ hex2 c.toNat)

/-- The characters of a quoted `repr`: double quotes only where that saves escaping. -/
def reprChars (shown : Char → Bool) (cs : List Char) : List Char :=
  let quote := if cs.contains singleQuote && !cs.contains doubleQuote then doubleQuote else singleQuote
  quote :: (cs.flatMap (reprChar shown quote) ++ [quote])

/-- `repr` of a bytes object: printable ASCII is written as it is. -/
def reprBytes (bs : List UInt8) : String :=
  "b" ++ String.ofList (reprChars (fun c => 32 ≤ c.toNat ∧ c.toNat < 127)
    (bs.map (fun b => Char.ofNat b.toNat)))

mutual

/-- `repr(v)`: the text by which values are shown, down to their parts. -/
def repr : Value F → String
  | .none     => "None"
  | .bool b   => if b then "True" else "False"
  | .int i    => toString i
  | .float x  => PyRuntime.repr x
  | .str s    => String.ofList (reprChars (PyRuntime.printable F) s.toList)
  | .bytes bs => reprBytes bs
  | .list xs  => "[" ++ ", ".intercalate (reprList xs) ++ "]"
  | .tuple xs => "(" ++ ", ".intercalate (reprList xs) ++ (if xs.length = 1 then ",)" else ")")
  | .dict kvs => "\x7b" ++ ", ".intercalate (reprPairs kvs) ++ "\x7d"

def reprList : List (Value F) → List String
  | []      => []
  | x :: xs => repr x :: reprList xs

def reprPairs : List (Value F × Value F) → List String
  | []            => []
  | (k, v) :: kvs => (repr k ++ ": " ++ repr v) :: reprPairs kvs

end

/-- `str(v)`, also what an f-string interpolates. -/
def toStr : Value F → String
  | .str s => s
  | v      => repr v

/-- A summand, once the total of a `sum` is a float. -/
def numberAsFloat : Value F → Except PyError F
  | .float x => .ok x
  | .int i   => floatOfInt i
  | .bool b  => floatOfInt (intOfBool b)
  | _        => .error ⟨.typeError, "unsupported operand type(s) for +"⟩

/-- `sum(vs, acc)` while the running total is an integer; the first float hands over to float addition. -/
def sumFrom : Int → List (Value F) → Except PyError (Value F)
  | acc, [] => .ok (.int acc)
  | acc, .int i :: vs  => sumFrom (acc + i) vs
  | acc, .bool b :: vs => sumFrom (acc + intOfBool b) vs
  | acc, .float x :: vs => do
      let start ← floatOfInt acc
      let rest ← vs.mapM numberAsFloat
      .ok (.float (PyRuntime.fsum (start + x) rest))
  | _, _ => .error ⟨.typeError, "unsupported operand type(s) for +"⟩

/-- `sum(vs) / n` for `n > 0`, a float whatever the summands are. -/
def meanOf (vs : List (Value F)) (n : Int) : Except PyError F := do
  match ← sumFrom 0 vs with
  | .int i   => intDiv i n
  | .float x => floatDivInt x n
  | _        => .error ⟨.typeError, "unsupported operand type(s) for /"⟩

end Conversions

end Value

/-! ## String-keyed dictionaries: records, states and snapshot documents

Records and states have texts for keys; as values they are dictionaries like any other, and can be asked for a
name. -/

/-- A record or a state: a dictionary with string keys. -/
abbrev Record (F : Type) := Lib.Dict String (Value F)

namespace Record

/-- The record as a value: a dictionary with texts for keys. -/
def toValue (r : Record F) : Value F := .dict (r.entries.map (fun e => (.str e.1, e.2)))

/-- `v.get(name)` on a value that has to be a dictionary. -/
def lookup [PyRuntime F] (kvs : List (Value F × Value F)) (name : String) : Value F :=
  (Lib.lookupEntry (.str name) kvs).getD .none

end Record

end Py
end HybridStream
