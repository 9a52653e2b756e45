import HybridStream.Lib.Proc
import HybridStream.Py.Value

/-!
# `Py.Collections` — bounded deques, indexing, and reading collections out of a state

What the operators use of `collections.deque` and of lists, and the conversions `restore_state` makes. A
restored attribute has the type the operator itself gives it: `floatsOf` and `recordOf` raise on a list or a
dictionary with other contents, where Python would store the object and fail when it is used.

`lastItems` is the abstraction of a full deque: what a window or a history of detections has kept after any appends is
the end of the list of all of them (`dequeAppend_lastItems`).
-/

namespace HybridStream
namespace Py

open Lib

variable {F : Type} {α : Type}

/-! ## Deques and lists

A deque with a maximal length holds the last items of what was appended to it, and that is the one fact about deques
that the rest uses: appending commutes with taking the last items. -/

/-- The contents of a full deque: the last `n` items. -/
def lastItems (n : Nat) (xs : List α) : List α := xs.drop (xs.length - n)

/-- `deque(xs, maxlen=n)` -/
def dequeOf (n : Int) (xs : List α) : Except PyError (List α) :=
  if n < 0 then .error ⟨.valueError, "maxlen must be non-negative"⟩ else .ok (lastItems n.toNat xs)

/-- `xs.append(x)` on a deque of maximal length `n`. -/
def dequeAppend (n : Int) (xs : List α) (x : α) : List α := lastItems n.toNat (xs ++ [x])

/-- `xs[i]` -/
def listIndex (xs : List α) (i : Int) : Except PyError α :=
  let position := if i < 0 then i + xs.length else i
  match if position < 0 then none else xs[position.toNat]? with
  | some x => .ok x
  | none   => .error ⟨.other, "list index out of range"⟩

/-- An index that is not negative counts from the front. -/
theorem listIndex_of_nonneg {xs : List α} {i : Int} {x : α} (hi : 0 ≤ i) (h : xs[i.toNat]? = some x) :
    listIndex xs i = .ok x := by
  unfold listIndex
  dsimp only
  rw [if_neg (not_lt.mpr hi), if_neg (not_lt.mpr hi), h]

/-- `sorted(xs)[min(len(xs) - 1, max(0, math.ceil(len(xs) * 0.95) - 1))]`, the 95th percentile of a list that is not
    empty. The metrics, the windows and the snapshots of the experiments compute it in this way. -/
def p95Of [PyRuntime F] (samples : List F) : Except PyError F := do
  let sortedS := pySorted samples
  let rank ← PyRuntime.ceil ((← floatOfInt sortedS.length) * (0.95 : F))
  listIndex sortedS (min (sortedS.length - 1) (max 0 (rank - 1)))

theorem dequeOf_nil {n : Int} (h : 0 ≤ n) : dequeOf n ([] : List α) = .ok [] := by
  unfold dequeOf lastItems
  rw [if_neg (by omega), List.drop_nil]

/-- A deque takes what it has room for. -/
theorem dequeOf_of_length_le {n : Nat} {xs : List α} (h : xs.length ≤ n) : dequeOf n xs = .ok xs := by
  unfold dequeOf lastItems
  rw [if_neg (by omega), Int.toNat_natCast, Nat.sub_eq_zero_of_le h, List.drop_zero]

theorem length_dequeAppend_le (n : Nat) (xs : List α) (x : α) : (dequeAppend n xs x).length ≤ n := by
  unfold dequeAppend lastItems
  rw [List.length_drop, Int.toNat_natCast]
  omega

theorem dequeAppend_ne_nil {n : Int} (h : 0 < n) (xs : List α) (x : α) : dequeAppend n xs x ≠ [] := by
  unfold dequeAppend lastItems
  intro hnil
  have hlen := congrArg List.length hnil
  simp only [List.length_drop, List.length_append, List.length_singleton, List.length_nil] at hlen
  omega

/-- Of what has been dropped before, nothing comes back. -/
theorem lastItems_lastItems_append (n : Nat) (xs ys : List α) :
    lastItems n (lastItems n xs ++ ys) = lastItems n (xs ++ ys) := by
  have hlength : (xs.drop (xs.length - n) ++ ys).length = xs.length - (xs.length - n) + ys.length := by
    rw [List.length_append, List.length_drop]
  unfold lastItems
  rw [hlength, ← List.drop_append_of_le_length (Nat.sub_le _ _), List.drop_drop, List.length_append]
  congr 1
  omega

/-- Appending to the last items of a list keeps them the last items. -/
theorem dequeAppend_lastItems (n : Nat) (xs : List α) (x : α) :
    dequeAppend n (lastItems n xs) x = lastItems n (xs ++ [x]) := lastItems_lastItems_append n xs [x]

/-- The last of the last items is the last. -/
theorem getLast?_lastItems {n : Nat} (h : 0 < n) (xs : List α) : (lastItems n xs).getLast? = xs.getLast? := by
  unfold lastItems
  rw [List.getLast?_drop]
  split
  · rename_i hle
    have hnil : xs = [] := List.eq_nil_of_length_eq_zero (by omega)
    rw [hnil]
    rfl
  · rfl

theorem lastItems_ne_nil {n : Nat} (h : 0 < n) {xs : List α} (hxs : xs ≠ []) : lastItems n xs ≠ [] := by
  intro hnil
  have hlength := congrArg List.length hnil
  have hpos := List.length_pos_iff.mpr hxs
  rw [lastItems, List.length_drop, List.length_nil] at hlength
  omega

theorem length_lastItems (n : Nat) (xs : List α) : (lastItems n xs).length = min xs.length n := by
  unfold lastItems
  rw [List.length_drop]
  omega

theorem lastItems_idem (n : Nat) (xs : List α) : lastItems n (lastItems n xs) = lastItems n xs := by
  unfold lastItems
  rw [List.drop_drop, List.length_drop]
  congr 1
  omega

/-- Only the last items count for those after one more. -/
theorem lastItems_concat_congr {n : Nat} {xs ys : List α} (h : lastItems n xs = lastItems n ys) (x : α) :
    lastItems n (xs ++ [x]) = lastItems n (ys ++ [x]) := by
  rw [← dequeAppend_lastItems, h, dequeAppend_lastItems]

theorem lastItems_nil (n : Nat) : lastItems n ([] : List α) = [] := List.drop_nil

/-- A dictionary comprehension whose calls all return. -/
theorem mapM_entries {κ β : Type} [BEq κ] {f : α → Except PyError β} {g : α → β} {d : Dict κ α}
    (h : ∀ e ∈ d.entries, f e.2 = .ok (g e.2)) :
    (d.entries.mapM fun e => do Except.ok (e.1, (← f e.2))) = .ok (Dict.mapValues g d).entries := by
  refine mapM_eq_map fun e he => ?_
  rw [h e he]
  rfl

/-! ## Reading collections

What the operators do with collections that come out of a state: iterate, take items, read a key as text, and raise
where the value has another type. -/

namespace Value

/-- The items of an iterable of floats. -/
def floatsOf : Value F → Except PyError (List F)
  | .list xs => xs.mapM fun
      | .float x => .ok x
      | _        => .error ⟨.typeError, "a float is required"⟩
  | _ => .error ⟨.typeError, "object is not iterable"⟩

/-- `v[name]` with a text in the brackets. -/
def subscript [PyRuntime F] (v : Value F) (name : String) : Except PyError (Value F) :=
  match v with
  | .dict kvs => match lookupEntry (.str name) kvs with
    | some value => .ok value
    | .none      => .error ⟨.keyError, s!"'{name}'"⟩
  | .str _    => .error ⟨.typeError, "string indices must be integers"⟩
  | .bytes _  => .error ⟨.typeError, "byte indices must be integers or slices, not str"⟩
  | .list _   => .error ⟨.typeError, "list indices must be integers or slices, not str"⟩
  | .tuple _  => .error ⟨.typeError, "tuple indices must be integers or slices, not str"⟩
  | _         => .error ⟨.typeError, "object is not subscriptable"⟩

theorem subscript_dict [PyRuntime F] {kvs : List (Value F × Value F)} {name : String} {value : Value F}
    (h : lookupEntry (.str name) kvs = some value) : (Value.dict kvs).subscript name = .ok value := by
  simp only [subscript, h]

theorem subscript_dict_none [PyRuntime F] {kvs : List (Value F × Value F)} {name : String}
    (h : lookupEntry (.str name) kvs = Option.none) :
    (Value.dict kvs).subscript name = .error ⟨.keyError, s!"'{name}'"⟩ := by
  simp only [subscript, h]

/-- What a `for` over `v` goes through. -/
def iterate : Value F → Except PyError (List (Value F))
  | .list xs  => .ok xs
  | .tuple xs => .ok xs
  | .dict kvs => .ok (kvs.map Prod.fst)
  | .str s    => .ok (s.toList.map (fun c => .str (String.singleton c)))
  | .bytes bs => .ok (bs.map (fun b => .int b.toNat))
  | _         => .error ⟨.typeError, "object is not iterable"⟩

/-- `v.items()` -/
def items : Value F → Except PyError (List (Value F × Value F))
  | .dict kvs => .ok kvs
  | _         => .error ⟨.attributeError, "object has no attribute 'items'"⟩

/-- A key that is text. -/
def textOf : Value F → Except PyError String
  | .str s => .ok s
  | _      => .error ⟨.typeError, "a string is required"⟩

/-- A dictionary with string keys. -/
def recordOf (v : Value F) : Except PyError (Record F) := do
  let kvs ← v.items
  let es ← kvs.mapM fun e => do .ok ((← textOf e.1), e.2)
  .ok (Dict.ofList es)

/-- `list(xs)` of floats, as a value. -/
def ofFloats (xs : List F) : Value F := .list (xs.map .float)

theorem ofFloats_inj {xs ys : List F} : ofFloats xs = ofFloats ys ↔ xs = ys := by
  unfold ofFloats
  rw [Value.list.injEq]
  exact (List.map_injective_iff.mpr fun x y h => Value.float.inj h).eq_iff

/-- A list of floats is read back. -/
@[simp] theorem floatsOf_ofFloats (xs : List F) : (ofFloats xs).floatsOf = .ok xs :=
  mapM_map_of_inverse fun _ _ => rfl

@[simp] theorem floatsOf_nil : floatsOf (.list [] : Value F) = .ok [] := rfl

@[simp] theorem items_nil : items (.dict [] : Value F) = .ok [] := rfl

end Value

/-- A record read back from its value. -/
@[simp] theorem Record.recordOf_toValue (r : Record F) : r.toValue.recordOf = .ok r := by
  have hes : (r.entries.map fun e => ((.str e.1 : Value F), e.2)).mapM
      (fun e => do Except.ok ((← e.1.textOf), e.2)) = (.ok r.entries : Except PyError _) :=
    mapM_map_of_inverse fun _ _ => rfl
  unfold Value.recordOf toValue
  rw [show Value.items (.dict (r.entries.map fun e => (.str e.1, e.2))) = .ok _ from rfl]
  exact bind_eq_ok.mpr ⟨_, rfl, bind_eq_ok.mpr ⟨_, hes, congrArg Except.ok (Dict.ofList_entries r)⟩⟩

end Py
end HybridStream
