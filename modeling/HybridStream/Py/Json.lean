import HybridStream.Py.Value

/-!
# `Py.Json` — `json.dumps` and `json.loads`

A JSON text is represented by the document it denotes: `dumps` gives the document of a value, `loads` the
value of a document (printing a document and parsing it again is the identity). The two are *not* inverse on
values. A JSON object has string keys only, so `dumps` writes an integer key as its decimal text, and
`loads` leaves it a string.
-/

namespace HybridStream
namespace Py

/-- A JSON document. A number with a fraction or an exponent is kept as its text. -/
inductive Json where
  | null
  | bool (b : Bool)
  | int (i : Int)
  | real (text : String)
  | str (s : String)
  | arr (xs : List Json)
  | obj (kvs : List (String × Json))

namespace Json

variable {F : Type} [PyRuntime F]

/-- The text a dictionary key is written as. -/
def dumpsKey : Value F → Except PyError String
  | .str s   => .ok s
  | .int i   => .ok (toString i)
  | .bool b  => .ok (if b then "true" else "false")
  | .none    => .ok "null"
  | .float x => .ok (PyRuntime.repr x)
  | _        => .error ⟨.typeError, "keys must be str, int, float, bool or None"⟩

mutual

/-- `json.dumps(v)` -/
def dumps : Value F → Except PyError Json
  | .none     => .ok .null
  | .bool b   => .ok (.bool b)
  | .int i    => .ok (.int i)
  | .float x  => .ok (.real (PyRuntime.repr x))
  | .str s    => .ok (.str s)
  | .bytes _  => .error ⟨.typeError, "Object of type bytes is not JSON serializable"⟩
  | .list xs  => (dumpsList xs).map .arr
  | .tuple xs => (dumpsList xs).map .arr
  | .dict kvs => (dumpsPairs kvs).map .obj

def dumpsList : List (Value F) → Except PyError (List Json)
  | []      => .ok []
  | x :: xs => do .ok ((← dumps x) :: (← dumpsList xs))

def dumpsPairs : List (Value F × Value F) → Except PyError (List (String × Json))
  | []            => .ok []
  | (k, v) :: kvs => do .ok ((← dumpsKey k, ← dumps v) :: (← dumpsPairs kvs))

end

mutual

/-- `json.loads(text)`: an object becomes a dictionary, a repeated key keeps its last value. -/
def loads : Json → Except PyError (Value F)
  | .null     => .ok .none
  | .bool b   => .ok (.bool b)
  | .int i    => .ok (.int i)
  | .real s   => match PyRuntime.parse s with
    | some x => .ok (.float x)
    | .none  => .error ⟨.valueError, "could not convert string to float"⟩
  | .str s    => .ok (.str s)
  | .arr xs   => (loadsList xs).map .list
  | .obj kvs  => (loadsPairs kvs).map (fun es => Record.toValue (Lib.Dict.ofList es))

def loadsList : List Json → Except PyError (List (Value F))
  | []      => .ok []
  | x :: xs => do .ok ((← loads x) :: (← loadsList xs))

def loadsPairs : List (String × Json) → Except PyError (List (String × Value F))
  | []            => .ok []
  | (k, v) :: kvs => do .ok ((k, ← loads v) :: (← loadsPairs kvs))

end

/-! ## The text of a document

The text that `json.dumps` writes with its defaults: separators with a blank, and everything that is not printable
ASCII escaped. -/

/-- Four hexadecimal digits. -/
def hex4 (n : Nat) : String :=
  let digits := Nat.toDigits 16 n
  String.ofList (List.replicate (4 - digits.length) '0' ++ digits)

/-- A character inside a string; what is not printable ASCII is escaped, a surrogate pair beyond `0xffff`. -/
def escape (c : Char) : String :=
  let n := c.toNat
  if n = 0x22 then "\\\""
  else if n = 0x5c then "\\\\"
  else if n = 0xa then "\\n"
  else if n = 0xd then "\\r"
  else if n = 0x9 then "\\t"
  else if n = 0x8 then "\\b"
  else if n = 0xc then "\\f"
  else if 0x20 ≤ n ∧ n ≤ 0x7e then String.singleton c
  else if n ≤ 0xffff then "\\u" ++ hex4 n
  else "\\u" ++ hex4 (0xd800 + (n - 0x10000) / 0x400) ++ "\\u" ++ hex4 (0xdc00 + (n - 0x10000) % 0x400)

/-- A string with its quotes. -/
def quote (s : String) : String := "\"" ++ String.join (s.toList.map escape) ++ "\""

mutual

/-- The text `json.dumps` returns for the document. -/
def text : Json → String
  | .null    => "null"
  | .bool b  => if b then "true" else "false"
  | .int i   => toString i
  | .real s  => s
  | .str s   => quote s
  | .arr xs  => "[" ++ ", ".intercalate (texts xs) ++ "]"
  | .obj kvs => "\x7b" ++ ", ".intercalate (members kvs) ++ "\x7d"

def texts : List Json → List String
  | []      => []
  | x :: xs => text x :: texts xs

def members : List (String × Json) → List String
  | []            => []
  | (k, v) :: kvs => (quote k ++ ": " ++ text v) :: members kvs

end

/-! ## Maps from integers to integers

The keys of an object are text. A map with integer keys is written with their decimal numerals and read back with
those, and so comes back as another map. -/

/-- A `dict[int, int]` as a value. -/
def ofIntMap (m : Lib.Dict Int Int) : Value F := .dict (m.entries.map (fun e => (.int e.1, .int e.2)))

/-- `json.dumps(m)` of a `dict[int, int]`. -/
def dumpsIntMap (m : Lib.Dict Int Int) : Json := .obj (m.entries.map (fun e => (toString e.1, .int e.2)))

theorem dumps_ofIntMap (m : Lib.Dict Int Int) : dumps (ofIntMap (F := F) m) = .ok (dumpsIntMap m) := by
  have hpairs : ∀ es : List (Int × Int),
      dumpsPairs (es.map (fun e => ((.int e.1 : Value F), (.int e.2 : Value F))))
        = .ok (es.map (fun e => (toString e.1, Json.int e.2))) := by
    intro es
    induction es with
    | nil => rfl
    | cons e es ih =>
        rw [List.map_cons, dumpsPairs, ih]
        simp only [dumpsKey, dumps]
        rfl
  unfold ofIntMap dumpsIntMap
  rw [dumps, hpairs]
  rfl

/-- The dictionary with string keys that a `dict[int, int]` is read back as. -/
def stringKeyed (m : Lib.Dict Int Int) : Record F :=
  Lib.Dict.ofList (m.entries.map (fun e => (toString e.1, .int e.2)))

/-- **A `dict[int, int]` comes out of JSON with text keys.** -/
theorem loads_dumpsIntMap (m : Lib.Dict Int Int) :
    loads (dumpsIntMap m) = .ok (Record.toValue (stringKeyed (F := F) m)) := by
  have hpairs : ∀ es : List (Int × Int),
      loadsPairs (F := F) (es.map (fun e => (toString e.1, Json.int e.2)))
        = .ok (es.map (fun e => (toString e.1, .int e.2))) := by
    intro es
    induction es with
    | nil => rfl
    | cons e es ih =>
        rw [List.map_cons, loadsPairs, ih]
        simp only [loads]
        rfl
  unfold dumpsIntMap
  rw [loads, hpairs]
  rfl

end Json

end Py
end HybridStream
