import HybridStream.Lib.Dict
import HybridStream.Py.Value

/-!
# `Py.Files` — `pathlib` and the files it finds

A path is its root and its components; putting text behind it splits the text at the separators, and text that starts
with one replaces the path. The operating system follows a path from directory to directory: `..` leads to the directory
above, a name that is too long raises, and a name that is missing or that follows a file leads nowhere. Links and
permissions are left out.
-/

namespace HybridStream
namespace Py

open Lib

universe u

/-! ## Paths

Paths as text and as components, with the rules for separators, dots and roots. A name without a separator is one
component, which is why a class that is a plain name leads to its own file. -/

/-- `pathlib.PurePosixPath`: what a path begins with, and its parts. -/
structure PurePath where
  root  : String
  parts : List String
  deriving DecidableEq

namespace PurePath

/-- The root text starts with; exactly two separators are a root of their own. -/
def rootOf : List Char → String
  | '/' :: '/' :: '/' :: _ => "/"
  | '/' :: '/' :: _        => "//"
  | '/' :: _               => "/"
  | _                      => ""

/-- The components of text, without the empty ones and the dots. -/
def partsOf (text : List Char) : List String :=
  ((text.splitOn '/').map String.ofList).filter (fun part => part ≠ "" ∧ part ≠ ".")

/-- `Path(text)`, split at its slashes; nothing is looked up. -/
def ofText (text : String) : PurePath := ⟨rootOf text.toList, partsOf text.toList⟩

/-- `path / text`: a text that begins with a slash replaces the path. -/
def join (path : PurePath) (text : String) : PurePath :=
  let other := ofText text
  if other.root = "" then ⟨path.root, path.parts ++ other.parts⟩ else other

/-- `str(path)`, where an empty path is a dot. -/
def text (path : PurePath) : String :=
  if path.root = "" ∧ path.parts = [] then "." else path.root ++ "/".intercalate path.parts

variable {name : String}

theorem rootOf_of_not_mem (h : '/' ∉ name.toList) : rootOf name.toList = "" := by
  unfold rootOf
  split
  all_goals first
    | rfl
    | rename_i heq
      rw [heq] at h
      exact absurd List.mem_cons_self h

/-- Text without a separator is one component. -/
theorem partsOf_of_not_mem (h : '/' ∉ name.toList) (hempty : name ≠ "") (hdot : name ≠ ".") :
    partsOf name.toList = [name] := by
  have hsplit : name.toList.splitOn '/' = [name.toList] := by
    rw [List.splitOn_eq_splitOnP]
    refine List.splitOnP_eq_singleton fun c hc => ?_
    simp only [beq_eq_false_iff_ne, ne_eq]
    intro hsep
    exact h (hsep ▸ hc)
  unfold partsOf
  rw [hsplit]
  simp [hempty, hdot]

theorem join_name (path : PurePath) (h : '/' ∉ name.toList) (hempty : name ≠ "") (hdot : name ≠ ".") :
    path.join name = ⟨path.root, path.parts ++ [name]⟩ := by
  unfold join ofText
  rw [rootOf_of_not_mem h, partsOf_of_not_mem h hempty hdot, if_pos rfl]

end PurePath

/-! ## Files and directories

A machine as a tree, walked component by component. The only thing that raises on the way is a name or a path that is
too long for the machine. -/

/-- A file with its content, or a directory with its entries. -/
inductive Node (α : Type u) where
  | file (content : α)
  | dir (entries : List (String × Node α))

/-- A node and the directories above it, the nearest first. -/
structure Place (α : Type u) where
  above : List (Node α)
  node  : Node α

variable {α : Type u}

/-- The directory above; the root is above itself. -/
def Place.parent (place : Place α) : Place α :=
  match place.above with
  | []             => place
  | node :: above' => ⟨above', node⟩

/-- The files of a machine, the working directory and the limits on the length of names and paths. -/
structure FileSystem (α : Type u) where
  root    : Node α
  cwd     : Place α
  nameMax : Nat
  pathMax : Nat

namespace FileSystem

variable (fs : FileSystem α)

/-- `OSError: [Errno 36]`: a name that no file system takes. -/
def tooLong : PyError := ⟨.other, "[Errno 36] File name too long"⟩

/-- Where one component leads from a place. -/
def step (place : Place α) (name : String) : Except PyError (Option (Place α)) :=
  match place.node with
  | .file _      => .ok none
  | .dir entries =>
      if name = ".." then .ok (some place.parent)
      else if fs.nameMax < name.utf8ByteSize then .error tooLong
      else .ok ((lookupEntry name entries).map (fun node => ⟨place.node :: place.above, node⟩))

/-- Where components lead from a place. -/
def follow (place : Place α) : List String → Except PyError (Option (Place α))
  | []            => .ok (some place)
  | name :: names =>
      match fs.step place name with
      | .ok (some next) => follow next names
      | other           => other

/-- What `os.stat` finds at a path; nothing where it raises what `Path.exists` takes for an absent file. -/
def find (path : PurePath) : Except PyError (Option (Place α)) :=
  if ∃ part ∈ path.parts, Char.ofNat 0 ∈ part.toList then .ok none
  else if fs.pathMax ≤ path.text.utf8ByteSize then .error tooLong
  else fs.follow (if path.root = "" then fs.cwd else ⟨[], fs.root⟩) path.parts

/-- `path.exists()`, which passes on what the look-up raises. -/
def pathExists (path : PurePath) : Except PyError Bool := (fs.find path).map Option.isSome

/-- What reading a node gives: a directory cannot be read. -/
def readNode : Node α → Except PyError α
  | .file content => .ok content
  | .dir _        => .error ⟨.other, "[Errno 21] Is a directory"⟩

/-- `path.read_text()`: of what the path leads to, if it leads anywhere. -/
def readText (path : PurePath) : Except PyError α := do
  match ← fs.find path with
  | some place => readNode place.node
  | none       => .error ⟨.other, "[Errno 2] No such file or directory"⟩

mutual

/-- `path.rglob("*" + suffix)` of the node at the path. -/
def rglob (suffix : String) : Node α → List (Node α)
  | .file _      => []
  | .dir entries => rglobEntries suffix entries

def rglobEntries (suffix : String) : List (String × Node α) → List (Node α)
  | []                      => []
  | (name, node) :: entries =>
      (if suffix.toList <:+ name.toList then [node] else []) ++ rglob suffix node ++ rglobEntries suffix entries

end

/-- Entry by entry: a file whose name ends like that, and what a directory has below it. -/
theorem rglobEntries_eq_flatMap (suffix : String) (entries : List (String × Node α)) :
    rglobEntries suffix entries =
      entries.flatMap (fun e => (if suffix.toList <:+ e.1.toList then [e.2] else []) ++ rglob suffix e.2) := by
  induction entries with
  | nil => rw [rglobEntries, List.flatMap_nil]
  | cons e entries ih => rw [rglobEntries, ih, List.flatMap_cons]

/-- What a name that is not the directory above is in a directory. -/
theorem step_dir {place : Place α} {entries : List (String × Node α)} (hplace : place.node = .dir entries)
    {name : String} (hname : name ≠ "..") :
    fs.step place name =
      if fs.nameMax < name.utf8ByteSize then .error tooLong
      else .ok ((lookupEntry name entries).map (fun node => ⟨place.node :: place.above, node⟩)) := by
  unfold step
  rw [hplace]
  exact if_neg hname

/-- A name in a directory leads on from the entry of that name, or nowhere if there is none. -/
theorem follow_cons_dir {place : Place α} {entries : List (String × Node α)} (hplace : place.node = .dir entries)
    {name : String} (hname : name ≠ "..") {names : List String} {found : Option (Place α)}
    (h : fs.follow place (name :: names) = .ok found) :
    (lookupEntry name entries = none ∧ found = none) ∨
      ∃ node, lookupEntry name entries = some node ∧
        fs.follow ⟨place.node :: place.above, node⟩ names = .ok found := by
  rw [follow, fs.step_dir hplace hname] at h
  by_cases hlong : fs.nameMax < name.utf8ByteSize
  · rw [if_pos hlong] at h
    cases h
  · rw [if_neg hlong] at h
    cases hentry : lookupEntry name entries with
    | none =>
        rw [hentry] at h
        exact Or.inl ⟨rfl, (Except.ok.inj h).symm⟩
    | some node =>
        rw [hentry] at h
        exact Or.inr ⟨node, rfl, h⟩

/-- Components are followed one after the other. -/
theorem follow_append (place : Place α) (names names' : List String) :
    fs.follow place (names ++ names') =
      match fs.follow place names with
      | .ok (some next) => fs.follow next names'
      | other           => other := by
  induction names generalizing place with
  | nil => rfl
  | cons name names ih =>
      rw [List.cons_append, follow, follow]
      split
      · exact ih _
      · rename_i hother
        split
        · exact absurd ‹_› (hother _)
        · rfl

/-- Nothing raises but a name that is too long. -/
theorem step_error {place : Place α} {name : String} {e : PyError} (h : fs.step place name = .error e) :
    e = tooLong := by
  unfold step at h
  split at h
  · cases h
  · split at h
    · cases h
    · split at h
      · exact (Except.error.inj h).symm
      · cases h

theorem follow_error {place : Place α} {names : List String} {e : PyError} (h : fs.follow place names = .error e) :
    e = tooLong := by
  induction names generalizing place with
  | nil => cases h
  | cons name names ih =>
      rw [follow] at h
      split at h
      · exact ih h
      · exact fs.step_error h

theorem find_error {path : PurePath} {e : PyError} (h : fs.find path = .error e) : e = tooLong := by
  unfold find at h
  split at h
  · cases h
  · split at h
    · exact (Except.error.inj h).symm
    · exact fs.follow_error h

end FileSystem

end Py
end HybridStream
