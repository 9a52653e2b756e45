import Mathlib.Data.List.Induction
import HybridStream.Lib.Dict

/-!
# `Lib.NamedEntries` — dictionaries whose keys are names

The keys of a dynamic dictionary are compared by an equality that need not be lawful. Where all keys come from names
that it tells apart, the entries are a function on a list of names: the names in the order they were first used, each
with its value. `setEntry_named` and `lookupEntry_named` are writing and reading in these terms.
-/

namespace HybridStream
namespace Lib

universe u v w

variable {ι : Type w} [DecidableEq ι]

/-! ## Names in the order of their first use

What a table keyed by names looks like after a sequence of uses: each name once, where it was used first. -/

/-- A name is appended the first time it is used. -/
def useName (names : List ι) (name : ι) : List ι := if name ∈ names then names else names ++ [name]

/-- The names of a sequence of uses. -/
def usedNames (uses : List ι) : List ι := uses.foldl useName []

@[simp] theorem mem_useName {names : List ι} {name other : ι} :
    other ∈ useName names name ↔ other ∈ names ∨ other = name := by
  unfold useName
  split
  · rename_i hmem
    constructor
    · exact Or.inl
    · rintro (h | rfl)
      · exact h
      · exact hmem
  · rw [List.mem_append, List.mem_singleton]

theorem nodup_useName {names : List ι} (h : names.Nodup) (name : ι) : (useName names name).Nodup := by
  unfold useName
  split
  · exact h
  · rename_i hnew
    apply List.Nodup.append h (List.nodup_singleton name)
    intro other hmem hother
    rw [List.mem_singleton.mp hother] at hmem
    exact hnew hmem

theorem usedNames_concat (uses : List ι) (name : ι) : usedNames (uses ++ [name]) = useName (usedNames uses) name := by
  unfold usedNames
  rw [List.foldl_append]
  rfl

@[simp] theorem mem_usedNames {uses : List ι} {name : ι} : name ∈ usedNames uses ↔ name ∈ uses := by
  induction uses using List.reverseRecOn with
  | nil => exact Iff.rfl
  | append_singleton uses other ih => rw [usedNames_concat, mem_useName, ih, List.mem_append, List.mem_singleton]

theorem nodup_usedNames (uses : List ι) : (usedNames uses).Nodup := by
  induction uses using List.reverseRecOn with
  | nil => exact List.nodup_nil
  | append_singleton uses other ih =>
      rw [usedNames_concat]
      exact nodup_useName ih other

/-! ## Entries under names

A table given by its names and a function from them. Looking up and overwriting one of its entries changes the
function at that name, which is how a loop over the table is followed. -/

variable {κ : Type u} {α : Type v} [BEq κ] {key : ι → κ}

/-- The entries of the names, each with its value. -/
def namedEntries (key : ι → κ) (f : ι → α) (names : List ι) : List (κ × α) := names.map (fun name => (key name, f name))

omit [DecidableEq ι] [BEq κ] in
theorem namedEntries_congr {f g : ι → α} {names : List ι} (h : ∀ name ∈ names, f name = g name) :
    namedEntries key f names = namedEntries key g names :=
  List.map_congr_left fun name hname => congrArg (Prod.mk (key name)) (h name hname)

theorem lookupEntry_named (hkey : ∀ a b, (key a == key b) = decide (a = b)) (f : ι → α) (names : List ι) (name : ι) :
    lookupEntry (key name) (namedEntries key f names) = if name ∈ names then some (f name) else none := by
  induction names with
  | nil => rfl
  | cons other names ih =>
      show (if (key other == key name) = true then some (f other)
        else lookupEntry (key name) (namedEntries key f names)) = _
      rw [ih, hkey]
      by_cases heq : other = name
      · subst heq
        simp
      · simp [heq, Ne.symm heq]

theorem setEntry_named (hkey : ∀ a b, (key a == key b) = decide (a = b)) (f : ι → α) {names : List ι}
    (hnames : names.Nodup) (name : ι) (v : α) :
    setEntry (key name) v (namedEntries key f names) =
      namedEntries key (fun other => if other = name then v else f other) (useName names name) := by
  by_cases hmem : name ∈ names
  · rw [useName, if_pos hmem]
    induction names with
    | nil => exact absurd hmem List.not_mem_nil
    | cons other names ih =>
        obtain ⟨hhead, htail⟩ := List.nodup_cons.mp hnames
        show (if (key other == key name) = true then (key other, v) :: namedEntries key f names
          else (key other, f other) :: setEntry (key name) v (namedEntries key f names)) = _
        rw [hkey]
        by_cases heq : other = name
        · subst heq
          have hrest : namedEntries key f names = namedEntries key (fun o => if o = other then v else f o) names :=
            namedEntries_congr fun o ho => (if_neg fun h : o = other => hhead (h ▸ ho)).symm
          rw [if_pos (decide_eq_true rfl), hrest]
          simp [namedEntries]
        · rw [if_neg (by simpa using heq), ih htail ((List.mem_cons.mp hmem).resolve_left (Ne.symm heq))]
          simp [namedEntries, heq]
  · have hnew : ∀ e ∈ namedEntries key f names, (e.1 == key name) = false := by
      intro e he
      obtain ⟨other, hother, rfl⟩ := List.mem_map.mp he
      rw [hkey]
      exact decide_eq_false fun h => hmem (h ▸ hother)
    have hsame : namedEntries key f names =
        namedEntries key (fun other => if other = name then v else f other) names :=
      namedEntries_congr fun other hother => (if_neg fun h : other = name => hmem (h ▸ hother)).symm
    rw [setEntry_of_new hnew, useName, if_neg hmem, hsame]
    simp [namedEntries]

/-! ## Tables of what was collected under a name

A table that collects items has no entry under a name before the first item; from then on its entry is a function of
the items collected. -/

section Collected

variable {β : Type v} {γ : Type u} {f : List γ → β} {xs : List γ}

/-- What a table has of a list that is collected under one name: nothing before the first item. -/
def entryOf (f : List γ → β) (xs : List γ) : Option β := if xs.isEmpty then none else some (f xs)

@[simp] theorem entryOf_nil : entryOf f [] = none := rfl

@[simp] theorem entryOf_concat (x : γ) : entryOf f (xs ++ [x]) = some (f (xs ++ [x])) := by
  unfold entryOf
  rw [if_neg (by simp)]

theorem getD_entryOf {y : β} (hnil : f [] = y) : (entryOf f xs).getD y = f xs := by
  cases xs with
  | nil => exact hnil.symm
  | cons x xs => rfl

theorem entryOf_eq_some {y : β} (h : entryOf f xs = some y) : xs ≠ [] ∧ y = f xs := by
  cases xs with
  | nil => cases h
  | cons x xs => exact ⟨nofun, (Option.some.inj h).symm⟩

end Collected

end Lib
end HybridStream
