import Mathlib.Algebra.Ring.Int.Defs
import Mathlib.Data.List.Basic
import Mathlib.Data.List.Nodup

/-!
# `Lib.Dict` — insertion-ordered dictionaries

The dictionary of a dynamic language: entries are kept in the order their keys were first inserted,
overwriting keeps the position, deleting closes the gap. Iteration order is observable (a stable sort over
`keys` breaks ties by it), so neither a finite map nor `AList` (which moves an overwritten key) will do.

A `Dict` carries the proof that no two of its keys are equal. Keys are compared with `BEq`, which need not
be lawful; the lemmas that need lawfulness say so. The operations are first given on entry lists.
-/

namespace HybridStream
namespace Lib

universe u v w

/-! ## Entry lists

A dictionary is a list of entries with pairwise different keys, and its operations are recursions over that list. Keys
are compared by an arbitrary Boolean equality here, as the keys of a dictionary may be of a type whose equality is not
that of the values. -/

section Entries

variable {κ : Type u} {α : Type v} [BEq κ]

/-- The value under the first equal key. -/
def lookupEntry (k : κ) : List (κ × α) → Option α
  | []      => none
  | e :: es => if e.1 == k then some e.2 else lookupEntry k es

/-- Insert or overwrite: an equal key keeps its position, a new key goes to the end. -/
def setEntry (k : κ) (v : α) : List (κ × α) → List (κ × α)
  | []      => [(k, v)]
  | e :: es => if e.1 == k then (e.1, v) :: es else e :: setEntry k v es

/-- Remove the first entry with an equal key. -/
def popEntry (k : κ) : List (κ × α) → List (κ × α)
  | []      => []
  | e :: es => if e.1 == k then es else e :: popEntry k es

/-- No two keys of the list are equal. -/
def KeysDistinct (es : List (κ × α)) : Prop := es.Pairwise (fun e e' => (e.1 == e'.1) = false)

/-- An entry after `setEntry` was there before, or has the new value under the new key or one that was there. -/
theorem mem_setEntry_cases {k : κ} {v : α} {es : List (κ × α)} {e : κ × α} (h : e ∈ setEntry k v es) :
    e ∈ es ∨ (e.2 = v ∧ (e.1 = k ∨ ∃ e' ∈ es, e'.1 = e.1)) := by
  induction es with
  | nil =>
      simp only [setEntry, List.mem_singleton] at h
      subst h
      exact Or.inr ⟨rfl, Or.inl rfl⟩
  | cons x xs ih =>
      unfold setEntry at h
      split at h
      · rcases List.mem_cons.mp h with rfl | h
        · exact Or.inr ⟨rfl, Or.inr ⟨x, List.mem_cons_self, rfl⟩⟩
        · exact Or.inl (List.mem_cons_of_mem x h)
      · rcases List.mem_cons.mp h with rfl | h
        · exact Or.inl List.mem_cons_self
        · rcases ih h with hold | ⟨hv, hk | ⟨e', he', hkey⟩⟩
          · exact Or.inl (List.mem_cons_of_mem x hold)
          · exact Or.inr ⟨hv, Or.inl hk⟩
          · exact Or.inr ⟨hv, Or.inr ⟨e', List.mem_cons_of_mem x he', hkey⟩⟩

theorem mem_setEntry {k : κ} {v : α} {es : List (κ × α)} {e : κ × α} (h : e ∈ setEntry k v es) :
    e.1 = k ∨ ∃ e' ∈ es, e'.1 = e.1 := by
  rcases mem_setEntry_cases h with hold | ⟨-, hkey⟩
  · exact Or.inr ⟨e, hold, rfl⟩
  · exact hkey

theorem value_of_mem_setEntry {k : κ} {v : α} {es : List (κ × α)} {e : κ × α} (h : e ∈ setEntry k v es) :
    e.2 = v ∨ ∃ e' ∈ es, e'.2 = e.2 := by
  rcases mem_setEntry_cases h with hold | ⟨hv, -⟩
  · exact Or.inr ⟨e, hold, rfl⟩
  · exact Or.inl hv

/-- What is looked up is the value of an entry. -/
theorem mem_of_lookupEntry {k : κ} {v : α} {es : List (κ × α)} (h : lookupEntry k es = some v) :
    ∃ k', (k', v) ∈ es := by
  induction es with
  | nil => cases h
  | cons e es ih =>
      unfold lookupEntry at h
      split at h
      · cases h
        exact ⟨e.1, List.mem_cons_self⟩
      · obtain ⟨k', hk'⟩ := ih h
        exact ⟨k', List.mem_cons_of_mem e hk'⟩

theorem setEntry_distinct {k : κ} {v : α} {es : List (κ × α)} (h : KeysDistinct es) :
    KeysDistinct (setEntry k v es) := by
  induction es with
  | nil => exact List.pairwise_singleton _ _
  | cons x xs ih =>
      obtain ⟨hx, hxs⟩ := List.pairwise_cons.mp h
      unfold setEntry
      split
      · exact List.pairwise_cons.mpr ⟨hx, hxs⟩
      · rename_i hne
        refine List.pairwise_cons.mpr ⟨fun e he => ?_, ih hxs⟩
        rcases mem_setEntry he with hk | ⟨e', he', hkey⟩
        · rw [hk]; exact Bool.eq_false_iff.mpr hne
        · rw [← hkey]; exact hx e' he'

/-- Setting an entry keeps the keys where one is equal to the new one, and adds it at the end where none is. -/
theorem keys_setEntry (k : κ) (v : α) (es : List (κ × α)) :
    ((setEntry k v es).map Prod.fst = es.map Prod.fst ∧ ∃ k' ∈ es.map Prod.fst, (k' == k) = true) ∨
      (setEntry k v es).map Prod.fst = es.map Prod.fst ++ [k] := by
  induction es with
  | nil => exact Or.inr rfl
  | cons e es ih =>
      unfold setEntry
      split
      · exact Or.inl ⟨rfl, e.1, List.mem_cons_self, ‹_›⟩
      · rcases ih with ⟨hkeys, k', hk', hequal⟩ | hkeys
        · exact Or.inl ⟨congrArg (List.cons e.1) hkeys, k', List.mem_cons_of_mem _ hk', hequal⟩
        · exact Or.inr (congrArg (List.cons e.1) hkeys)

theorem setEntry_of_new {k : κ} {v : α} {es : List (κ × α)} (h : ∀ e ∈ es, (e.1 == k) = false) :
    setEntry k v es = es ++ [(k, v)] := by
  induction es with
  | nil => rfl
  | cons e es ih =>
      have he : ¬ (e.1 == k) = true := by rw [h e List.mem_cons_self]; simp
      rw [setEntry, if_neg he, ih (fun e' he' => h e' (List.mem_cons_of_mem _ he')), List.cons_append]

/-- Entries with different keys, inserted one after the other, stay as they are. -/
theorem foldl_setEntry {es : List (κ × α)} (h : KeysDistinct es) :
    es.foldl (fun acc e => setEntry e.1 e.2 acc) [] = es := by
  have hfold : ∀ (es acc : List (κ × α)), KeysDistinct (acc ++ es) →
      es.foldl (fun acc e => setEntry e.1 e.2 acc) acc = acc ++ es := by
    intro es
    induction es with
    | nil => exact fun acc _ => (List.append_nil acc).symm
    | cons e es ih =>
        intro acc hdistinct
        have hnew : ∀ e' ∈ acc, (e'.1 == e.1) = false :=
          fun e' he' => (List.pairwise_append.mp hdistinct).2.2 e' he' e List.mem_cons_self
        rw [List.append_cons] at hdistinct
        rw [List.foldl_cons, setEntry_of_new hnew, ih _ hdistinct, ← List.append_cons]
  exact hfold es [] h

theorem popEntry_sublist (k : κ) (es : List (κ × α)) : (popEntry k es).Sublist es := by
  induction es with
  | nil => exact List.Sublist.refl _
  | cons e es ih =>
      unfold popEntry
      split
      · exact List.sublist_cons_self e es
      · exact ih.cons_cons e

theorem popEntry_distinct {k : κ} {es : List (κ × α)} (h : KeysDistinct es) :
    KeysDistinct (popEntry k es) :=
  h.sublist (popEntry_sublist k es)

end Entries

/-! ## Dictionaries

The list with the proof that its keys differ, so that no operation can build a dictionary with two entries under one
key. Each operation has the name and the meaning of the one in the source language. -/

/-- A dictionary: its entries in insertion order, with pairwise different keys. -/
structure Dict (κ : Type u) (α : Type v) [BEq κ] where
  entries : List (κ × α)
  distinct : KeysDistinct entries

namespace Dict

variable {κ : Type u} {α : Type v} {β : Type w} [BEq κ]

/-- Two dictionaries with the same entries in the same order are equal. -/
@[ext]
theorem ext {d d' : Dict κ α} (h : d.entries = d'.entries) : d = d' := by
  cases d; cases d'; cases h; rfl

instance [DecidableEq κ] [DecidableEq α] : DecidableEq (Dict κ α) := fun d d' =>
  decidable_of_iff (d.entries = d'.entries) ⟨ext, fun h => h ▸ rfl⟩

/-- `{}`: the dictionary without keys. -/
def empty : Dict κ α := ⟨[], List.Pairwise.nil⟩

instance : EmptyCollection (Dict κ α) := ⟨empty⟩

instance : Inhabited (Dict κ α) := ⟨empty⟩

/-- `d.get(k)`, where `none` says that the key is missing. -/
def get (d : Dict κ α) (k : κ) : Option α := lookupEntry k d.entries

/-- `d.get(k, dflt)`: the value, or the default where the key is missing. -/
def getD (d : Dict κ α) (k : κ) (dflt : α) : α := (d.get k).getD dflt

/-- `k in d`: the key has a value. -/
def contains (d : Dict κ α) (k : κ) : Bool := (d.get k).isSome

/-- `list(d.keys())`, in the order in which they came in. -/
def keys (d : Dict κ α) : List κ := d.entries.map Prod.fst

/-- `list(d.values())`, in the order of their keys. -/
def values (d : Dict κ α) : List α := d.entries.map Prod.snd

/-- `len(d)`: the number of keys. -/
def size (d : Dict κ α) : Nat := d.entries.length

/-- `d[k] = v`: in the place of the key, or at the end if it is new. -/
def set (d : Dict κ α) (k : κ) (v : α) : Dict κ α := ⟨setEntry k v d.entries, setEntry_distinct d.distinct⟩

/-- `d.pop(k, None)`, the dictionary left behind. -/
def pop (d : Dict κ α) (k : κ) : Dict κ α := ⟨popEntry k d.entries, popEntry_distinct d.distinct⟩

/-- `d.update(es)`: a later pair overwrites an earlier one. -/
def update (d : Dict κ α) (es : List (κ × α)) : Dict κ α := es.foldl (fun d e => d.set e.1 e.2) d

/-- The dictionary a display or an iterable of pairs builds. -/
def ofList (es : List (κ × α)) : Dict κ α := update ∅ es

/-- `{k: f(v) for k, v in d.items()}` -/
def mapValues (f : α → β) (d : Dict κ α) : Dict κ β where
  entries := d.entries.map (fun e => (e.1, f e.2))
  distinct := by
    have h := d.distinct
    unfold KeysDistinct at h ⊢
    rw [List.pairwise_map]
    exact h

/-! ### Facts that hold for any key comparison

Nothing is asked of the equality of the keys in these: they follow the recursion alone. -/

@[simp] theorem entries_empty : (∅ : Dict κ α).entries = [] := rfl

theorem entries_eq_nil {d : Dict κ α} : d.entries = [] ↔ d = ∅ := ⟨fun h => ext h, fun h => h ▸ rfl⟩

@[simp] theorem get_empty (k : κ) : (∅ : Dict κ α).get k = none := rfl

@[simp] theorem contains_empty (k : κ) : (∅ : Dict κ α).contains k = false := rfl

@[simp] theorem mapValues_empty (f : α → β) : mapValues f (∅ : Dict κ α) = ∅ := rfl

theorem get_mapValues (f : α → β) (d : Dict κ α) (k : κ) : (mapValues f d).get k = (d.get k).map f := by
  have hentries : ∀ es : List (κ × α),
      lookupEntry k (es.map (fun e => (e.1, f e.2))) = (lookupEntry k es).map f := by
    intro es
    induction es with
    | nil => rfl
    | cons e es ih =>
        simp only [List.map_cons, lookupEntry, ih]
        split <;> rfl
  exact hentries d.entries

theorem entries_update (d : Dict κ α) (es : List (κ × α)) :
    (d.update es).entries = es.foldl (fun acc e => setEntry e.1 e.2 acc) d.entries := by
  induction es generalizing d with
  | nil => rfl
  | cons e es ih => exact ih (d.set e.1 e.2)

/-- A dictionary is rebuilt from its items. -/
theorem ofList_entries (d : Dict κ α) : ofList d.entries = d := by
  apply ext
  show (update ∅ d.entries).entries = d.entries
  rw [entries_update]
  exact foldl_setEntry d.distinct

theorem set_ne_empty (d : Dict κ α) (k : κ) (v : α) : d.set k v ≠ ∅ := by
  intro h
  have hnil : setEntry k v d.entries = [] := congrArg entries h
  cases hd : d.entries with
  | nil => rw [hd] at hnil; simp [setEntry] at hnil
  | cons e es =>
      rw [hd] at hnil
      unfold setEntry at hnil
      split at hnil <;> simp at hnil

theorem update_ne_empty {d : Dict κ α} (h : d ≠ ∅) (es : List (κ × α)) : d.update es ≠ ∅ := by
  induction es generalizing d with
  | nil => exact h
  | cons e es ih => exact ih (set_ne_empty d e.1 e.2)

@[simp] theorem ofList_eq_empty {es : List (κ × α)} : ofList es = ∅ ↔ es = [] := by
  cases es with
  | nil => exact iff_of_true rfl rfl
  | cons e es => exact iff_of_false (update_ne_empty (set_ne_empty ∅ e.1 e.2) es) (by simp)

/-- Every value of an updated dictionary was there before or was written. -/
theorem value_of_mem_update {d : Dict κ α} {es : List (κ × α)} {e : κ × α} (h : e ∈ (d.update es).entries) :
    (∃ e' ∈ d.entries, e'.2 = e.2) ∨ ∃ e' ∈ es, e'.2 = e.2 := by
  induction es generalizing d with
  | nil => exact Or.inl ⟨e, h, rfl⟩
  | cons x xs ih =>
      rcases ih (d := d.set x.1 x.2) h with ⟨e', he', hv⟩ | ⟨e', he', hv⟩
      · rcases value_of_mem_setEntry he' with hx | ⟨e'', he'', hv'⟩
        · exact Or.inr ⟨x, List.mem_cons_self, by rw [← hv, hx]⟩
        · exact Or.inl ⟨e'', he'', hv'.trans hv⟩
      · exact Or.inr ⟨e', List.mem_cons_of_mem _ he', hv⟩

/-! ### Lawful keys: the read-after-write laws

Where equal keys are the same key, a dictionary is what it answers: these laws say what is read after each way of
writing, and are all that the rest of the development uses of the entry lists. -/

section Lawful

variable [LawfulBEq κ]

theorem lookupEntry_eq_some_iff {es : List (κ × α)} (hes : KeysDistinct es) {k : κ} {v : α} :
    lookupEntry k es = some v ↔ (k, v) ∈ es := by
  induction es with
  | nil => simp [lookupEntry]
  | cons e es ih =>
      obtain ⟨hhead, htail⟩ := List.pairwise_cons.mp hes
      unfold lookupEntry
      split
      · rename_i he
        have hk : e.1 = k := LawfulBEq.eq_of_beq he
        simp only [Option.some.injEq, List.mem_cons]
        constructor
        · intro hv; exact Or.inl (by rw [← hk, ← hv])
        · rintro (h | h)
          · rw [← h]
          · have hd := hhead (k, v) h
            rw [hk] at hd
            simp at hd
      · rename_i he
        rw [ih htail, List.mem_cons]
        constructor
        · exact Or.inr
        · rintro (h | h)
          · exact absurd (by rw [← h]; exact BEq.rfl) he
          · exact h

/-- Renaming the keys, none of them to the same name, and changing the values. -/
theorem lookupEntry_rename {κ' : Type u} [BEq κ'] [LawfulBEq κ'] {g : κ → κ'} (hg : Function.Injective g) (f : α → β)
    (es : List (κ × α)) (k : κ) :
    lookupEntry (g k) (es.map (fun e => (g e.1, f e.2))) = (lookupEntry k es).map f := by
  induction es with
  | nil => rfl
  | cons e es ih =>
      rw [List.map_cons, lookupEntry, lookupEntry, ih]
      by_cases hk : e.1 = k
      · rw [if_pos (by rw [hk]; exact BEq.rfl), if_pos (by rw [hk]; exact BEq.rfl)]
        rfl
      · have hg' : ¬ (g e.1 == g k) = true := fun h => hk (hg (LawfulBEq.eq_of_beq h))
        have hne : ¬ (e.1 == k) = true := fun h => hk (LawfulBEq.eq_of_beq h)
        rw [if_neg hg', if_neg hne]

theorem get_eq_some_iff {d : Dict κ α} {k : κ} {v : α} : d.get k = some v ↔ (k, v) ∈ d.entries :=
  lookupEntry_eq_some_iff d.distinct

theorem mem_keys_iff {d : Dict κ α} {k : κ} : k ∈ d.keys ↔ ∃ v, d.get k = some v := by
  unfold keys
  simp only [List.mem_map, get_eq_some_iff]
  constructor
  · rintro ⟨⟨k', v⟩, he, rfl⟩; exact ⟨v, he⟩
  · rintro ⟨v, he⟩; exact ⟨(k, v), he, rfl⟩

theorem keys_nodup (d : Dict κ α) : d.keys.Nodup := by
  unfold keys
  refine List.pairwise_map.mpr (d.distinct.imp ?_)
  intro e e' h heq
  rw [heq] at h
  simp at h

theorem setEntry_of_not_mem {k : κ} {v : α} {es : List (κ × α)} (h : k ∉ es.map Prod.fst) :
    setEntry k v es = es ++ [(k, v)] := by
  refine setEntry_of_new fun e he => beq_eq_false_iff_ne.mpr ?_
  rintro rfl
  exact h (List.mem_map_of_mem he)

theorem lookupEntry_setEntry_self (k : κ) (v : α) (es : List (κ × α)) :
    lookupEntry k (setEntry k v es) = some v := by
  induction es with
  | nil => simp [setEntry, lookupEntry]
  | cons e es ih =>
      unfold setEntry
      split
      · rename_i he; simp [lookupEntry, he]
      · rename_i he; rw [lookupEntry, if_neg he]; exact ih

theorem lookupEntry_setEntry_ne {k k' : κ} (h : k' ≠ k) (v : α) (es : List (κ × α)) :
    lookupEntry k' (setEntry k v es) = lookupEntry k' es := by
  induction es with
  | nil => simp [setEntry, lookupEntry, Ne.symm h]
  | cons e es ih =>
      unfold setEntry
      split
      · rename_i he
        have hk : e.1 = k := LawfulBEq.eq_of_beq he
        have hne : ¬ (e.1 == k') = true := by simp [hk, Ne.symm h]
        simp [lookupEntry, hne]
      · unfold lookupEntry
        rw [ih]

theorem lookupEntry_popEntry_self {k : κ} {es : List (κ × α)} (hes : KeysDistinct es) :
    lookupEntry k (popEntry k es) = none := by
  induction es with
  | nil => rfl
  | cons e es ih =>
      obtain ⟨hhead, htail⟩ := List.pairwise_cons.mp hes
      unfold popEntry
      split
      · rename_i he
        have hk : e.1 = k := LawfulBEq.eq_of_beq he
        rw [Option.eq_none_iff_forall_ne_some]
        intro v hv
        have hd := hhead (k, v) ((lookupEntry_eq_some_iff htail).mp hv)
        rw [hk] at hd
        simp at hd
      · rename_i he
        rw [lookupEntry, if_neg he]
        exact ih htail

theorem perm_popEntry {k : κ} {v : α} {es : List (κ × α)} (h : lookupEntry k es = some v) :
    es.Perm ((k, v) :: popEntry k es) := by
  induction es with
  | nil => cases h
  | cons e es ih =>
      unfold lookupEntry at h
      unfold popEntry
      split at h
      · rename_i he
        rw [if_pos he]
        cases h
        rw [← LawfulBEq.eq_of_beq he]
      · rename_i he
        rw [if_neg he]
        exact ((ih h).cons e).trans (List.Perm.swap ..)

omit [LawfulBEq κ] in
theorem popEntry_of_lookup_none {k : κ} {es : List (κ × α)} (h : lookupEntry k es = none) :
    popEntry k es = es := by
  induction es with
  | nil => rfl
  | cons e es ih =>
      unfold lookupEntry at h
      unfold popEntry
      split at h
      · cases h
      · rename_i he
        rw [if_neg he, ih h]

theorem lookupEntry_popEntry_ne {k k' : κ} (h : k' ≠ k) (es : List (κ × α)) :
    lookupEntry k' (popEntry k es) = lookupEntry k' es := by
  induction es with
  | nil => rfl
  | cons e es ih =>
      unfold popEntry
      split
      · rename_i he
        have hk : e.1 = k := LawfulBEq.eq_of_beq he
        have hne : ¬ (e.1 == k') = true := by simp [hk, Ne.symm h]
        rw [lookupEntry, if_neg hne]
      · unfold lookupEntry
        rw [ih]

omit [LawfulBEq κ] in
/-- The values after a set are the new one and some of those before. -/
theorem mem_values_set {d : Dict κ α} {k : κ} {v x : α} (h : x ∈ (d.set k v).values) : x = v ∨ x ∈ d.values := by
  obtain ⟨e, he, rfl⟩ := List.mem_map.mp h
  rcases mem_setEntry_cases he with he | he
  · exact Or.inr (List.mem_map_of_mem he)
  · exact Or.inl he.1

omit [LawfulBEq κ] in
/-- Overwriting a value exchanges it in any count of the values. -/
theorem countP_values_set {d : Dict κ α} {k : κ} {v : α} (h : d.get k = some v) (w : α) (p : α → Bool) :
    (d.set k w).values.countP p + (if p v then 1 else 0) = d.values.countP p + (if p w then 1 else 0) := by
  have hset : ∀ es : List (κ × α), lookupEntry k es = some v →
      ((setEntry k w es).map Prod.snd).countP p + (if p v then 1 else 0) =
        (es.map Prod.snd).countP p + (if p w then 1 else 0) := by
    intro es
    induction es with
    | nil => exact fun hk => by cases hk
    | cons e es ih =>
        intro hk
        unfold lookupEntry at hk
        unfold setEntry
        split at hk
        · rename_i heq
          cases hk
          rw [if_pos heq, List.map_cons, List.map_cons, List.countP_cons, List.countP_cons]
          dsimp only
          omega
        · rename_i hne
          have hrest := ih hk
          rw [if_neg hne, List.map_cons, List.map_cons, List.countP_cons, List.countP_cons]
          omega
  exact hset d.entries h

omit [LawfulBEq κ] in
/-- A counter that goes up takes the sum of all counters with it. -/
theorem sum_values_set (d : Dict κ Int) (k : κ) (n : Int) :
    (d.set k (d.getD k 0 + n)).values.sum = d.values.sum + n := by
  have hset : ∀ es : List (κ × Int),
      ((setEntry k ((lookupEntry k es).getD 0 + n) es).map Prod.snd).sum = (es.map Prod.snd).sum + n := by
    intro es
    induction es with
    | nil => simp [setEntry, lookupEntry]
    | cons e es ih =>
        unfold setEntry lookupEntry
        split
        · simp only [List.map_cons, List.sum_cons, Option.getD_some]
          omega
        · rw [List.map_cons, List.sum_cons, ih, List.map_cons, List.sum_cons]
          omega
  exact hset d.entries

@[simp] theorem get_set_self (d : Dict κ α) (k : κ) (v : α) : (d.set k v).get k = some v :=
  lookupEntry_setEntry_self k v d.entries

theorem get_set_ne (d : Dict κ α) {k k' : κ} (h : k' ≠ k) (v : α) : (d.set k v).get k' = d.get k' :=
  lookupEntry_setEntry_ne h v d.entries

omit [LawfulBEq κ] in
/-- Writing what is there changes nothing. -/
theorem set_of_get {d : Dict κ α} {k : κ} {v : α} (h : d.get k = some v) : d.set k v = d := by
  have hset : ∀ es : List (κ × α), lookupEntry k es = some v → setEntry k v es = es := by
    intro es
    induction es with
    | nil => exact fun hk => by cases hk
    | cons e es ih =>
        intro hk
        unfold lookupEntry at hk
        unfold setEntry
        split at hk
        · rename_i heq
          cases hk
          rw [if_pos heq]
        · rename_i hne
          rw [if_neg hne, ih hk]
  exact ext (hset d.entries h)

theorem get_set (d : Dict κ α) (k k' : κ) [Decidable (k' = k)] (v : α) :
    (d.set k v).get k' = if k' = k then some v else d.get k' := by
  split
  · rename_i h; subst h; exact get_set_self d k' v
  · rename_i h; exact get_set_ne d h v

theorem getD_set (d : Dict κ α) (k k' : κ) [Decidable (k' = k)] (v dflt : α) :
    (d.set k v).getD k' dflt = if k' = k then v else d.getD k' dflt := by
  unfold getD
  rw [get_set]
  split <;> rfl

omit [LawfulBEq κ] in
/-- A value other than the default is an entry. -/
theorem get_of_getD_ne {d : Dict κ α} {k : κ} {v dflt : α} (h : d.getD k dflt = v) (hne : v ≠ dflt) :
    d.get k = some v := by
  unfold getD at h
  cases hget : d.get k with
  | none => rw [hget] at h; exact absurd h.symm hne
  | some w => rw [hget] at h; exact congrArg some h

omit [LawfulBEq κ] in
theorem getD_eq_iff_of_ne {d : Dict κ α} {k : κ} {v dflt : α} (hne : v ≠ dflt) :
    d.getD k dflt = v ↔ d.get k = some v := by
  refine ⟨fun h => get_of_getD_ne h hne, fun h => ?_⟩
  unfold getD
  rw [h]
  rfl

@[simp] theorem get_pop_self (d : Dict κ α) (k : κ) : (d.pop k).get k = none :=
  lookupEntry_popEntry_self d.distinct

theorem get_pop_ne (d : Dict κ α) {k k' : κ} (h : k' ≠ k) : (d.pop k).get k' = d.get k' :=
  lookupEntry_popEntry_ne h d.entries

/-- Deleting a key takes away its entry. -/
theorem perm_entries_pop {d : Dict κ α} {k : κ} {v : α} (h : d.get k = some v) :
    d.entries.Perm ((k, v) :: (d.pop k).entries) := perm_popEntry h

omit [LawfulBEq κ] in
theorem pop_of_get_none {d : Dict κ α} {k : κ} (h : d.get k = none) : d.pop k = d :=
  ext (popEntry_of_lookup_none h)

theorem get_pop (d : Dict κ α) (k k' : κ) [Decidable (k' = k)] :
    (d.pop k).get k' = if k' = k then none else d.get k' := by
  split
  · rename_i h; subst h; exact get_pop_self d k'
  · rename_i h; exact get_pop_ne d h

/-- What is found after a removal was there before, under another key. -/
theorem get_of_get_pop {d : Dict κ α} {k k' : κ} {v : α} (h : (d.pop k).get k' = some v) :
    k' ≠ k ∧ d.get k' = some v := by
  have hne : k' ≠ k := by
    rintro rfl
    rw [get_pop_self] at h
    cases h
  exact ⟨hne, by rw [← get_pop_ne d hne]; exact h⟩

theorem getD_pop (d : Dict κ α) (k k' : κ) [Decidable (k' = k)] (dflt : α) :
    (d.pop k).getD k' dflt = if k' = k then dflt else d.getD k' dflt := by
  unfold getD
  rw [get_pop]
  split <;> rfl

omit [LawfulBEq κ] in
theorem update_append (d : Dict κ α) (es es' : List (κ × α)) : d.update (es ++ es') = (d.update es).update es' :=
  List.foldl_append

/-- Writing under other names leaves an entry alone. -/
theorem get_update_of_not_mem {d : Dict κ α} {es : List (κ × α)} {k : κ} (h : k ∉ es.map Prod.fst) :
    (d.update es).get k = d.get k := by
  induction es generalizing d with
  | nil => rfl
  | cons e es ih =>
      rw [List.map_cons, List.mem_cons, not_or] at h
      show ((d.set e.1 e.2).update es).get k = d.get k
      rw [ih h.2, get_set_ne _ h.1]

/-- An entry of an updated dictionary was there, or was written. -/
theorem get_update_cases {d : Dict κ α} {es : List (κ × α)} {k : κ} {v : α} (h : (d.update es).get k = some v) :
    d.get k = some v ∨ (k, v) ∈ es := by
  induction es generalizing d with
  | nil => exact Or.inl h
  | cons e es ih =>
      rcases ih (d := d.set e.1 e.2) h with hset | hmem
      · by_cases hk : k = e.1
        · rw [hk, get_set_self] at hset
          cases hset
          rw [hk]
          exact Or.inr List.mem_cons_self
        · rw [get_set_ne d hk] at hset
          exact Or.inl hset
      · exact Or.inr (List.mem_cons_of_mem e hmem)

/-- An update takes no key away. -/
theorem isSome_get_update {d : Dict κ α} {es : List (κ × α)} {k : κ} (h : (d.get k).isSome = true) :
    ((d.update es).get k).isSome = true := by
  induction es generalizing d with
  | nil => exact h
  | cons e es ih =>
      refine ih (d := d.set e.1 e.2) ?_
      by_cases hk : k = e.1
      · rw [hk, get_set_self]
        rfl
      · rw [get_set_ne d hk]
        exact h

/-- A key that is written is there. -/
theorem get_update_ne_none {d : Dict κ α} {es : List (κ × α)} {k : κ} (h : k ∈ es.map Prod.fst) :
    (d.update es).get k ≠ none := by
  induction es generalizing d with
  | nil => exact absurd h List.not_mem_nil
  | cons e es ih =>
      by_cases hmem : k ∈ es.map Prod.fst
      · exact ih hmem
      · have hk : k = e.1 := (List.mem_cons.mp h).resolve_right hmem
        show ((d.set e.1 e.2).update es).get k ≠ none
        rw [get_update_of_not_mem hmem, hk, get_set_self]
        exact Option.some_ne_none _

theorem get_update_of_mem {d : Dict κ α} {es : List (κ × α)} (hes : (es.map Prod.fst).Nodup) {k : κ} {v : α}
    (h : (k, v) ∈ es) : (d.update es).get k = some v := by
  induction es generalizing d with
  | nil => exact absurd h List.not_mem_nil
  | cons e es ih =>
      rw [List.map_cons, List.nodup_cons] at hes
      rcases List.mem_cons.mp h with rfl | h
      · show ((d.set k v).update es).get k = some v
        rw [get_update_of_not_mem hes.1, get_set_self]
      · exact ih hes.2 h

/-- Written again or not, a key that gets one value only has it afterwards. -/
theorem get_update_of_unique {d : Dict κ α} {es : List (κ × α)} {k : κ} {v : α} (hmem : (k, v) ∈ es)
    (hunique : ∀ w, (k, w) ∈ es → w = v) : (d.update es).get k = some v := by
  induction es generalizing d with
  | nil => exact absurd hmem List.not_mem_nil
  | cons e es ih =>
      have hrest : ∀ w, (k, w) ∈ es → w = v := fun w hw => hunique w (List.mem_cons_of_mem e hw)
      by_cases hk : k ∈ es.map Prod.fst
      · obtain ⟨⟨k', w⟩, hw, rfl⟩ := List.mem_map.mp hk
        have hvalue := hrest w hw
        rw [hvalue] at hw
        exact ih hw hrest
      · rcases List.mem_cons.mp hmem with rfl | hmem
        · show ((d.set k v).update es).get k = some v
          rw [get_update_of_not_mem hk, get_set_self]
        · exact absurd (List.mem_map.mpr ⟨_, hmem, rfl⟩) hk

/-- Two updates of one dictionary read alike exactly where the one that writes more reads back what the other
    wrote. -/
theorem get_update_congr_iff {d : Dict κ α} {es es' : List (κ × α)} (hes : (es.map Prod.fst).Nodup)
    (hsub : es'.map Prod.fst ⊆ es.map Prod.fst) :
    (∀ k, (d.update es).get k = (d.update es').get k) ↔ ∀ e ∈ es, (d.update es').get e.1 = some e.2 := by
  constructor
  · intro h e he
    rw [← h e.1]
    exact get_update_of_mem hes he
  · intro h k
    by_cases hk : k ∈ es.map Prod.fst
    · obtain ⟨e, he, rfl⟩ := List.mem_map.mp hk
      rw [h e he]
      exact get_update_of_mem hes he
    · rw [get_update_of_not_mem hk, get_update_of_not_mem fun hk' => hk (hsub hk')]

theorem get_update_singleton (d : Dict κ α) (k k' : κ) [Decidable (k' = k)] (v : α) :
    (d.update [(k, v)]).get k' = if k' = k then some v else d.get k' := get_set d k k' v

theorem get_update_pair (d : Dict κ α) (k l k' : κ) [Decidable (k' = k)] [Decidable (k' = l)] (v w : α) :
    (d.update [(k, v), (l, w)]).get k' = if k' = l then some w else if k' = k then some v else d.get k' := by
  show ((d.set k v).set l w).get k' = _
  rw [get_set, get_set]

theorem get_update_map_of_not_mem (f : κ → α) {names : List κ} (d : Dict κ α) {k : κ} (h : k ∉ names) :
    (d.update (names.map (fun n => (n, f n)))).get k = d.get k := by
  refine get_update_of_not_mem ?_
  rw [List.map_map]
  exact fun hmem => h (by simpa using hmem)

theorem get_update_map_of_mem (f : κ → α) {names : List κ} (d : Dict κ α) {k : κ} (h : k ∈ names) :
    (d.update (names.map (fun name => (name, f name)))).get k = some (f k) := by
  induction names generalizing d with
  | nil => exact absurd h List.not_mem_nil
  | cons name names ih =>
      show ((d.set name (f name)).update _).get k = _
      by_cases hrest : k ∈ names
      · exact ih (d.set name (f name)) hrest
      · have hk : k = name := (List.mem_cons.mp h).resolve_right hrest
        rw [get_update_map_of_not_mem f _ hrest, hk, get_set_self]

/-- `{k: f(k) for k in names}` -/
theorem get_ofList_map (f : κ → α) (names : List κ) (k : κ) [Decidable (k ∈ names)] :
    (ofList (names.map (fun name => (name, f name)))).get k = if k ∈ names then some (f k) else none := by
  unfold ofList
  split
  · rename_i hk
    exact get_update_map_of_mem f ∅ hk
  · rename_i hk
    exact get_update_map_of_not_mem f ∅ hk

/-- A display of one value reads as a default of that value. -/
theorem getD_ofList_map_const (names : List κ) (v : α) (k : κ) :
    (ofList (names.map (fun name => (name, v)))).getD k v = v := by
  classical
  unfold getD
  rw [get_ofList_map (fun _ => v)]
  split <;> rfl

/-- A display with pairwise different keys keeps its entries as they are written. -/
theorem entries_ofList {es : List (κ × α)} (h : (es.map Prod.fst).Nodup) : (ofList es).entries = es := by
  have hdistinct : KeysDistinct es :=
    (List.pairwise_map.mp h).imp fun hne => beq_eq_false_iff_ne.mpr hne
  show (update ∅ es).entries = es
  rw [entries_update]
  exact foldl_setEntry hdistinct

/-- Displays with pairwise different keys are equal only if written with the same entries. -/
theorem ofList_inj {es es' : List (κ × α)} (h : (es.map Prod.fst).Nodup) (h' : (es'.map Prod.fst).Nodup) :
    ofList es = ofList es' ↔ es = es' := by
  constructor
  · intro heq
    rw [← entries_ofList h, ← entries_ofList h', heq]
  · rintro rfl
    rfl

/-- A name no entry of the display has. -/
theorem get_ofList_of_not_mem {es : List (κ × α)} {k : κ} (h : k ∉ es.map Prod.fst) :
    (ofList es).get k = none := get_update_of_not_mem h

theorem getD_ofList_of_not_mem {es : List (κ × α)} {k : κ} (h : k ∉ es.map Prod.fst) (dflt : α) :
    (ofList es).getD k dflt = dflt := by
  unfold getD
  rw [get_ofList_of_not_mem h]
  rfl

end Lawful

end Dict

end Lib
end HybridStream
