import HybridStream.Common.Snapshot

/-!
# `Common.Wire` — records that survive the wire

`msgpack.unpackb(_, raw=False)` leaves `strict_map_key` at its default: a map key has to be text or bytes. A value is
portable if packing and strict unpacking give it back, tuples as lists. A record is as portable as its values, and
what arrives is portable again (`Record.Portable.mapValues_untuple`).

The strictness is on the keys of maps, and a packed integer key would come back as an exception: so a dictionary with
other keys than texts is not portable, and neither is a value that a packer refuses. This is the condition under which
operators that are chained over topics see what was put out before them.
-/

namespace HybridStream
namespace Py

open Lib

variable {F : Type}

namespace Value

/-- What `strict_map_key` lets through as a key. -/
def strictKey : Value F → Bool
  | .str _   => true
  | .bytes _ => true
  | _        => false

mutual

/-- Every map key in the value is text or bytes. -/
def strictKeys : Value F → Bool
  | .list xs  => strictKeysList xs
  | .tuple xs => strictKeysList xs
  | .dict kvs => strictKeysPairs kvs
  | _         => true

def strictKeysList : List (Value F) → Bool
  | []      => true
  | x :: xs => strictKeys x && strictKeysList xs

def strictKeysPairs : List (Value F × Value F) → Bool
  | []            => true
  | (k, v) :: kvs => strictKey k && strictKeys v && strictKeysPairs kvs

end

theorem untuple_of_strictKey {k : Value F} (h : strictKey k = true) : k.untuple = k := by
  cases k <;> simp_all [strictKey, untuple]

mutual

/-- Reading tuples back as lists loses nothing of this. -/
theorem strictKeys_untuple : ∀ {v : Value F}, v.strictKeys = true → v.untuple.strictKeys = true
  | .list xs, h => by
      rw [strictKeys] at h
      rw [untuple, strictKeys]
      exact strictKeysList_untuple h
  | .tuple xs, h => by
      rw [strictKeys] at h
      rw [untuple, strictKeys]
      exact strictKeysList_untuple h
  | .dict kvs, h => by
      rw [strictKeys] at h
      rw [untuple, strictKeys]
      exact strictKeysPairs_untuple h
  | .none, h | .bool _, h | .int _, h | .float _, h | .str _, h | .bytes _, h => by
      rw [untuple]
      exact h

theorem strictKeysList_untuple : ∀ {xs : List (Value F)}, strictKeysList xs = true →
    strictKeysList (untupleList xs) = true
  | [], _      => rfl
  | x :: xs, h => by
      rw [strictKeysList, Bool.and_eq_true] at h
      rw [untupleList, strictKeysList, strictKeys_untuple h.1, strictKeysList_untuple h.2]
      rfl

theorem strictKeysPairs_untuple : ∀ {kvs : List (Value F × Value F)}, strictKeysPairs kvs = true →
    strictKeysPairs (untuplePairs kvs) = true
  | [], _            => rfl
  | (k, v) :: kvs, h => by
      rw [strictKeysPairs, Bool.and_eq_true, Bool.and_eq_true] at h
      rw [untuplePairs, strictKeysPairs, untuple_of_strictKey h.1.1, h.1.1, strictKeys_untuple h.1.2,
        strictKeysPairs_untuple h.2]
      rfl

end

variable [PyRuntime F]

/-- Packing and strict unpacking give the value back. -/
def Portable (v : Value F) : Prop := v.packable = true ∧ v.strictKeys = true

@[simp] theorem portable_none : Portable (.none : Value F) := by simp [Portable, packable, strictKeys]

@[simp] theorem portable_bool (b : Bool) : Portable (.bool b : Value F) := by simp [Portable, packable, strictKeys]

@[simp] theorem portable_int (i : Int) : Portable (.int i : Value F) := by simp [Portable, packable, strictKeys]

@[simp] theorem portable_float (x : F) : Portable (.float x : Value F) := by simp [Portable, packable, strictKeys]

@[simp] theorem portable_str (s : String) : Portable (.str s : Value F) := by simp [Portable, packable, strictKeys]

mutual

/-- Neither does it touch the keys. -/
theorem packable_untuple : ∀ {v : Value F}, v.packable = true → v.untuple.packable = true
  | .list xs, h => by
      rw [packable] at h
      rw [untuple, packable]
      exact packableList_untuple h
  | .tuple xs, h => by
      rw [packable] at h
      rw [untuple, packable]
      exact packableList_untuple h
  | .dict kvs, h => by
      rw [packable, Bool.and_eq_true] at h
      rw [untuple, packable, Bool.and_eq_true]
      refine ⟨?_, packablePairs_untuple h.2⟩
      rw [MessagePack.keysDistinct_untuplePairs (MessagePack.scalar_of_packablePairs h.2)]
      exact h.1
  | .none, h | .bool _, h | .int _, h | .float _, h | .str _, h | .bytes _, h => by
      rw [untuple]
      exact h

theorem packableList_untuple : ∀ {xs : List (Value F)}, packableList xs = true →
    packableList (untupleList xs) = true
  | [], _      => rfl
  | x :: xs, h => by
      rw [packableList, Bool.and_eq_true] at h
      rw [untupleList, packableList, packable_untuple h.1, packableList_untuple h.2]
      rfl

theorem packablePairs_untuple : ∀ {kvs : List (Value F × Value F)}, packablePairs kvs = true →
    packablePairs (untuplePairs kvs) = true
  | [], _            => rfl
  | (k, v) :: kvs, h => by
      rw [packablePairs, Bool.and_eq_true, Bool.and_eq_true] at h
      rw [untuplePairs, packablePairs, (scalar_spec h.1.1).1, h.1.1, packable_untuple h.1.2, packablePairs_untuple h.2]
      rfl

end

theorem Portable.untuple {v : Value F} (h : v.Portable) : v.untuple.Portable :=
  ⟨packable_untuple h.1, strictKeys_untuple h.2⟩

end Value

namespace Record

/-- Tuples become lists. -/
theorem untuple_toValue (r : Record F) : r.toValue.untuple = Record.toValue (r.mapValues Value.untuple) := by
  unfold Record.toValue Dict.mapValues
  rw [Value.untuple, Value.untuplePairs_eq_map]
  simp only [List.map_map, Function.comp_def, Value.untuple_str]

variable [PyRuntime F]

/-- Every value of the record is portable. -/
def Portable (r : Record F) : Prop := ∀ e ∈ r.entries, e.2.Portable

theorem portable_empty : Portable (∅ : Record F) := fun _ he => absurd he List.not_mem_nil

/-- What is written into a portable record has to be portable. -/
theorem Portable.update {r : Record F} (hr : r.Portable) {es : List (String × Value F)}
    (hes : ∀ e ∈ es, e.2.Portable) : Record.Portable (r.update es) := by
  intro e he
  rcases Dict.value_of_mem_update he with ⟨e', he', heq⟩ | ⟨e', he', heq⟩
  · rw [← heq]
    exact hr e' he'
  · rw [← heq]
    exact hes e' he'

theorem portable_ofList {es : List (String × Value F)} (h : ∀ e ∈ es, e.2.Portable) :
    Record.Portable (Dict.ofList es) :=
  portable_empty.update h

theorem Portable.getD {r : Record F} (hr : r.Portable) (name : String) {dflt : Value F} (hdflt : dflt.Portable) :
    (r.getD name dflt).Portable := by
  unfold Dict.getD
  cases hget : r.get name with
  | none   => exact hdflt
  | some v => exact hr _ (Dict.get_eq_some_iff.mp hget)

/-- A portable record is a portable value. -/
theorem Portable.toValue {r : Record F} (hr : r.Portable) : r.toValue.Portable := by
  refine ⟨Common.packable_toValue fun e he => (hr e he).1, ?_⟩
  have hpairs : ∀ es : List (String × Value F), (∀ e ∈ es, e.2.Portable) →
      Value.strictKeysPairs (es.map (fun e => ((.str e.1 : Value F), e.2))) = true := by
    intro es hes
    induction es with
    | nil => rfl
    | cons e es ih =>
        rw [List.map_cons, Value.strictKeysPairs, (hes e List.mem_cons_self).2,
          ih fun e' he' => hes e' (List.mem_cons_of_mem e he')]
        rfl
  unfold Record.toValue
  rw [Value.strictKeys]
  exact hpairs r.entries hr

theorem Portable.mapValues_untuple {r : Record F} (hr : r.Portable) :
    Record.Portable (r.mapValues Value.untuple) := by
  intro e he
  obtain ⟨e', he', rfl⟩ := List.mem_map.mp he
  exact (hr e' he').untuple

end Record

end Py
end HybridStream
