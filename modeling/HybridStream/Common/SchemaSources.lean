import HybridStream.Common.SchemaCache
import HybridStream.Py.Files

/-!
# `Common.SchemaSources` — where schemas are looked up

`_load` and `register_all_from_dir` of `hybridstream/common/schema_registry.py`, over the files of a machine and an etcd
store. The text of a JSON document is represented by the document it denotes, as in `Py.Json`, and the store keeps it
under the key.

A registry asks a directory or a store, never both, and caches what it found. `answersFrom` is what it answers to a
sequence of calls, which is all that anybody sees of it, and what two registries are compared by.
-/

namespace HybridStream
namespace Common

open Lib Py

/-- The text of a file: a schema document, or anything else. -/
inductive SchemaText where
  | schema (s : Schema)
  | other

namespace SchemaText

/-- `json.loads(text)`, read as a schema; a text that is none raises. -/
def loads : SchemaText → Except PyError Schema
  | .schema s => .ok s
  | .other    => .error ⟨.valueError, "Expecting value"⟩

end SchemaText

/-- What etcd keeps for the schema keys. -/
abbrev SchemaStore := Dict String Schema

/-- `f"/hybridstream/schema/v{version}/{operator_class}"`: the key in the store. -/
def schemaKey (version : Int) (operatorClass : String) : String :=
  "/hybridstream/schema/v" ++ toString version ++ "/" ++ operatorClass

/-- `f"v{version}"`: the directory of a version. -/
def versionName (version : Int) : String := "v" ++ toString version

/-- `f"{operator_class}.json"`: the file of a class, whatever characters its name has. -/
def fileName (operatorClass : String) : String := operatorClass ++ ".json"

/-- `self._local_dir / f"v{version}" / f"{operator_class}.json"`: a name that is a path leads elsewhere. -/
def schemaPath (dir : PurePath) (operatorClass : String) (version : Int) : PurePath :=
  (dir.join (versionName version)).join (fileName operatorClass)

/-- `_load`: the directory first, if there is one, then the store, if there is one; `None` where neither has
    anything. -/
def loadFrom (fs : FileSystem SchemaText) (localDir : Option PurePath) (etcd : Option SchemaStore)
    (operatorClass : String) (version : Int) : Except PyError (Option Schema) := do
  if let some dir := localDir then
    let path := schemaPath dir operatorClass version
    if ← fs.pathExists path then
      return some (← (← fs.readText path).loads)
  if let some store := etcd then
    return store.get (schemaKey version operatorClass)
  return none

/-- `register_all_from_dir`: every file below the directory whose name ends in `.json` is put into the store, under what
    its text says and not under its name. -/
def registerAllFromDir (fs : FileSystem SchemaText) (etcd : Option SchemaStore) (dir : PurePath) :
    Except PyError SchemaStore := do
  let some store := etcd | throw ⟨.runtimeError, "etcd client required for registration"⟩
  let found := match ← fs.find dir with
    | some place => FileSystem.rglob ".json" place.node
    | none       => []
  found.foldlM (fun store node => do
    let data ← (← FileSystem.readNode node).loads
    return store.set (schemaKey data.schemaVersion data.operatorClass) data) store

/-! ## Directories laid out as `v{version}/{operator_class}.json`

The layout that both the registration and the look-up in a directory expect, as a tree that is given by its versions
and their classes, and the directory of the file system that it stands for. -/

/-- A schema directory: the versions, and under each the schema of every class. A document is of the version and the
    class it is filed under, and a class that names a file holds no separator. -/
structure SchemaTree where
  versions : Dict Int (Dict String Schema)
  declared : ∀ v ∈ versions.entries, ∀ e ∈ v.2.entries, e.2.schemaVersion = v.1 ∧ e.2.operatorClass = e.1
  named    : ∀ v ∈ versions.entries, ∀ e ∈ v.2.entries, '/' ∉ e.1.toList ∧ Char.ofNat 0 ∉ e.1.toList

namespace SchemaTree

/-- The files of one version, a class each. -/
def versionNode (classes : Dict String Schema) : Node SchemaText :=
  .dir (classes.entries.map (fun e => (fileName e.1, .file (.schema e.2))))

/-- The directory, with one directory for each version. -/
def node (tree : SchemaTree) : Node SchemaText :=
  .dir (tree.versions.entries.map (fun v => (versionName v.1, versionNode v.2)))

/-- All schemas of the tree, version by version. -/
def schemas (tree : SchemaTree) : List Schema := tree.versions.entries.flatMap (fun v => v.2.values)

/-- The schema filed under a class and a version. -/
def schemaOf (tree : SchemaTree) (operatorClass : String) (version : Int) : Option Schema :=
  (tree.versions.get version).bind (fun classes => classes.get operatorClass)

end SchemaTree

/-- The path leads to the directory. -/
def HoldsSchemas (fs : FileSystem SchemaText) (dir : PurePath) (tree : SchemaTree) : Prop :=
  ∃ place, fs.find dir = .ok (some place) ∧ place.node = tree.node

/-! ## Calls

A registry answers one call after another and remembers what it has found. As it remembers nothing but what it found,
each answer is the one of a registry that has answered nothing. -/

namespace CachedRegistry

/-- What a registry answers to one call after another. -/
def answersFrom (r : CachedRegistry Schema) : List (String × Int) → List (Except PyError Schema)
  | []            => []
  | call :: calls =>
      ((getSchema call.1 call.2).exec r).1 :: answersFrom ((getSchema call.1 call.2).exec r).2 calls

/-- What a new registry answers to a sequence of calls, its cache empty to begin with. -/
def answers (load : String → Int → Except PyError (Option Schema)) (calls : List (String × Int)) :
    List (Except PyError Schema) := answersFrom ⟨∅, load⟩ calls

/-- With the cache every call is answered as it would be without it. -/
theorem answers_eq (load : String → Int → Except PyError (Option Schema)) (calls : List (String × Int)) :
    answers load calls = calls.map (fun call => ending call.1 call.2 (load call.1 call.2)) := by
  have hrun : ∀ (calls : List (String × Int)) (r : CachedRegistry Schema), r.load = load → r.Agrees →
      answersFrom r calls = calls.map (fun call => ending call.1 call.2 (load call.1 call.2)) := by
    intro calls
    induction calls with
    | nil => intro r _ _; rfl
    | cons call calls ih =>
        intro r hload hr
        obtain ⟨r', hexec, hload', hr'⟩ := getSchema_spec hr call.1 call.2
        rw [answersFrom, List.map_cons, hexec, hload]
        rw [ih r' (hload'.trans hload) hr']
  exact hrun calls ⟨∅, load⟩ rfl (agrees_new load)

end CachedRegistry

end Common
end HybridStream
