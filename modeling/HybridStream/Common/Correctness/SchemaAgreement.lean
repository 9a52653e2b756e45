import HybridStream.Common.SchemaSources

/-!
# `Common.Correctness.SchemaAgreement` — the directory and the store filled from it

The store has a schema under the key of a class and a version exactly where the directory has a file of that name. The
directory is asked by a path, though, and a class name with a separator in it is a path of its own: it may lead back to
a schema, or out of the directory to any other file, where the store has nothing. So the two answer alike exactly to the
class names that are no such path, or that lead nowhere (`agree_iff`). The cache changes no answer of either.
-/

namespace HybridStream
namespace Common

open Lib Py

/-! ## Names and keys

A class and a version are named twice, as a file below a directory and as a key of the store. Both namings are
injective, up to a separator in the class. -/

theorem versionName_injective : Function.Injective versionName := by
  intro v v' h
  have hchars := congrArg String.toList h
  rw [versionName, versionName, String.toList_append, String.toList_append] at hchars
  exact decimal_injective (String.toList_inj.mp (List.append_cancel_left hchars))

theorem fileName_injective : Function.Injective fileName := by
  intro cls cls' h
  have hchars := congrArg String.toList h
  rw [fileName, fileName, String.toList_append, String.toList_append] at hchars
  exact String.toList_inj.mp (List.append_cancel_right hchars)

/-- A key is read back as its version, up to the next separator, and its class. -/
theorem schemaKey_inj {v v' : Int} {cls cls' : String} (h : schemaKey v cls = schemaKey v' cls') :
    v = v' ∧ cls = cls' := by
  have hv : ∀ i : Int, '/' ∉ (toString i).toList := fun i => not_mem_decimal (by decide) (by decide)
  have hsep : "/".toList = ['/'] := rfl
  unfold schemaKey at h
  have hchars := congrArg String.toList h
  simp only [String.toList_append, List.append_assoc] at hchars
  rw [List.append_right_inj, hsep, List.singleton_append, List.singleton_append,
    separator_append_inj (hv v) (hv v')] at hchars
  exact ⟨decimal_injective (String.toList_inj.mp hchars.1), String.toList_inj.mp hchars.2⟩

theorem not_mem_versionName {c : Char} (hdigit : c.isDigit = false) (hsign : c ≠ '-') (hv : c ≠ 'v') (v : Int) :
    c ∉ (versionName v).toList := by
  have hdecimal : c ∉ (toString v).toList := not_mem_decimal hdigit hsign
  simpa [versionName, hv] using hdecimal

theorem not_mem_fileName {c : Char} {cls : String} (h : c ∉ cls.toList) (hjson : c ∉ ".json".toList) :
    c ∉ (fileName cls).toList := by
  rw [fileName, String.toList_append, List.mem_append, not_or]
  exact ⟨h, hjson⟩

/-- The name of a version starts with a letter, the name of a file ends with one. -/
theorem versionName_ne {name : String} (h : 'v' ∉ name.toList) (v : Int) : versionName v ≠ name := by
  intro heq
  rw [← heq] at h
  simp [versionName] at h

theorem fileName_ne {name : String} (h : 'n' ∉ name.toList) (cls : String) : fileName cls ≠ name := by
  intro heq
  rw [← heq] at h
  simp [fileName] at h

/-! ## What is filed

The files that registration finds below the directory are those of the tree, and each is found once. -/

namespace SchemaTree

variable {tree : SchemaTree} {cls : String} {v : Int} {s : Schema}

theorem schemaOf_eq_some_iff :
    tree.schemaOf cls v = some s ↔ s ∈ tree.schemas ∧ s.schemaVersion = v ∧ s.operatorClass = cls := by
  constructor
  · intro h
    obtain ⟨classes, hversion, hclass⟩ := Option.bind_eq_some_iff.mp h
    have hversion := Dict.get_eq_some_iff.mp hversion
    have hclass := Dict.get_eq_some_iff.mp hclass
    refine ⟨List.mem_flatMap.mpr ⟨_, hversion, List.mem_map.mpr ⟨_, hclass, rfl⟩⟩, ?_⟩
    exact tree.declared _ hversion _ hclass
  · rintro ⟨hmem, rfl, rfl⟩
    obtain ⟨⟨v, classes⟩, hversion, hvalue⟩ := List.mem_flatMap.mp hmem
    obtain ⟨⟨cls, s⟩, hclass, rfl⟩ := List.mem_map.mp hvalue
    obtain ⟨hv, hcls⟩ := tree.declared _ hversion _ hclass
    dsimp only at hv hcls ⊢
    rw [hv, hcls]
    exact Option.bind_eq_some_iff.mpr ⟨classes, Dict.get_eq_some_iff.mpr hversion, Dict.get_eq_some_iff.mpr hclass⟩

/-- A class that is filed is a file name. -/
theorem named_of_schemaOf (h : tree.schemaOf cls v = some s) : '/' ∉ cls.toList ∧ Char.ofNat 0 ∉ cls.toList := by
  obtain ⟨classes, hversion, hclass⟩ := Option.bind_eq_some_iff.mp h
  exact tree.named _ (Dict.get_eq_some_iff.mp hversion) _ (Dict.get_eq_some_iff.mp hclass)

/-- Every file of a version ends in `.json`. -/
theorem rglob_versionNode (classes : Dict String Schema) :
    FileSystem.rglob ".json" (versionNode classes) =
      classes.values.map (fun s => Node.file (SchemaText.schema s)) := by
  have hfile : ∀ e : String × Schema, (if ".json".toList <:+ (fileName e.1).toList
      then [Node.file (SchemaText.schema e.2)] else []) ++
        FileSystem.rglob ".json" (Node.file (SchemaText.schema e.2)) = [Node.file (SchemaText.schema e.2)] := by
    intro e
    have hsuffix : ".json".toList <:+ (fileName e.1).toList := by simp [fileName]
    rw [if_pos hsuffix, FileSystem.rglob, List.append_nil]
  rw [versionNode, FileSystem.rglob, FileSystem.rglobEntries_eq_flatMap, List.flatMap_map]
  simp only [hfile, ← List.map_eq_flatMap, Dict.values, List.map_map]
  rfl

/-- All files ending in `.json` are found, and nothing else. -/
theorem rglob_node (tree : SchemaTree) :
    FileSystem.rglob ".json" tree.node = tree.schemas.map (fun s => Node.file (SchemaText.schema s)) := by
  -- a version's name has no letter of the suffix
  have hversion : ∀ v : Int, ¬ ".json".toList <:+ (versionName v).toList := by
    intro v h
    exact not_mem_versionName (c := 'j') (by decide) (by decide) (by decide) v (h.subset (by decide))
  rw [node, FileSystem.rglob, FileSystem.rglobEntries_eq_flatMap, List.flatMap_map, schemas, List.map_flatMap]
  simp only [if_neg (hversion _), List.nil_append, rglob_versionNode]

end SchemaTree

/-! ## What is looked up

A look-up follows the path of class and version. It ends at the file that is filed there, or nowhere, unless the class
is itself a path or a name on the way is longer than the machine takes. -/

section Lookups

variable {fs : FileSystem SchemaText} {dir : PurePath} {tree : SchemaTree} {cls : String} {v : Int}

/-- A class without a separator is looked up under its own name. -/
theorem schemaPath_of_not_mem (hcls : '/' ∉ cls.toList) :
    schemaPath dir cls v = ⟨dir.root, dir.parts ++ [versionName v, fileName cls]⟩ := by
  have hversion : '/' ∉ (versionName v).toList := not_mem_versionName (by decide) (by decide) (by decide) v
  have hfile : '/' ∉ (fileName cls).toList := not_mem_fileName hcls (by decide)
  unfold schemaPath
  rw [PurePath.join_name _ hversion (versionName_ne (by decide) v) (versionName_ne (by decide) v)]
  rw [PurePath.join_name _ hfile (fileName_ne (by decide) cls) (fileName_ne (by decide) cls)]
  rw [List.append_assoc, List.singleton_append]

/-- From the directory, a version and a class lead to the file they are filed in, unless a name is too long. -/
theorem follow_tree {place : Place SchemaText} {found : Option (Place SchemaText)} (hplace : place.node = tree.node)
    (h : fs.follow place [versionName v, fileName cls] = .ok found) :
    found.map Place.node = (tree.schemaOf cls v).map (fun s => Node.file (SchemaText.schema s)) := by
  have hversions := Dict.lookupEntry_rename versionName_injective SchemaTree.versionNode tree.versions.entries v
  unfold SchemaTree.schemaOf Dict.get
  rcases fs.follow_cons_dir hplace (versionName_ne (by decide) v) h with ⟨hnone, rfl⟩ | ⟨node, hnode, hrest⟩
  · rw [hnone] at hversions
    rw [Option.map_eq_none_iff.mp hversions.symm]
    rfl
  · rw [hnode] at hversions
    obtain ⟨classes, hclasses, rfl⟩ := Option.map_eq_some_iff.mp hversions.symm
    rw [hclasses]
    have hfiles := Dict.lookupEntry_rename fileName_injective (fun s => Node.file (SchemaText.schema s))
      classes.entries cls
    let version : Place SchemaText := ⟨place.node :: place.above, SchemaTree.versionNode classes⟩
    have hversion : version.node = SchemaTree.versionNode classes := rfl
    show _ = (lookupEntry cls classes.entries).map _
    rcases fs.follow_cons_dir hversion (fileName_ne (by decide) cls) hrest with ⟨hnone, rfl⟩ | ⟨node, hnode, hfile⟩
    · rw [← hfiles, hnone]
      rfl
    · rw [← hfiles, hnode, ← Except.ok.inj hfile]
      rfl

/-- Where looking for a class without a separator raises nothing, it finds what is filed. -/
theorem find_schemaPath (hdir : HoldsSchemas fs dir tree) (hcls : '/' ∉ cls.toList)
    {found : Option (Place SchemaText)} (h : fs.find (schemaPath dir cls v) = .ok found) :
    found.map Place.node = (tree.schemaOf cls v).map (fun s => Node.file (SchemaText.schema s)) := by
  obtain ⟨place, hfind, hplace⟩ := hdir
  rw [schemaPath_of_not_mem hcls] at h
  unfold FileSystem.find at h hfind
  split at hfind
  · cases hfind
  rename_i hdirNull
  split at hfind
  · cases hfind
  dsimp only at h
  split at h
  · rename_i hnull
    have hclsNull : Char.ofNat 0 ∈ cls.toList := by
      obtain ⟨part, hpart, hmem⟩ := hnull
      by_contra hclsNull
      rcases List.mem_append.mp hpart with hpart | hpart
      · exact hdirNull ⟨part, hpart, hmem⟩
      · rcases List.mem_pair.mp hpart with rfl | rfl
        · exact not_mem_versionName (by decide) (by decide) (by decide) v hmem
        · exact not_mem_fileName hclsNull (by decide) hmem
    cases h
    cases hschema : tree.schemaOf cls v with
    | none => rfl
    | some s => exact absurd hclsNull (SchemaTree.named_of_schemaOf hschema).2
  · split at h
    · cases h
    · rw [fs.follow_append, hfind] at h
      exact follow_tree hplace h

/-- What the directory answers is what reading the file at the path gives. -/
theorem loadFrom_dir : loadFrom fs (some dir) none cls v =
    match fs.find (schemaPath dir cls v) with
    | .error e          => .error e
    | .ok none          => .ok none
    | .ok (some place)  => ((FileSystem.readNode place.node).bind SchemaText.loads).map some := by
  unfold loadFrom FileSystem.pathExists FileSystem.readText
  cases hfind : fs.find (schemaPath dir cls v) with
  | error e => simp [hfind, Except.map, bind, Except.bind]
  | ok found =>
      cases found with
      | none => simp [hfind, Except.map, bind, Except.bind, pure, Except.pure]
      | some place =>
          cases hnode : FileSystem.readNode place.node with
          | error e => simp [hfind, hnode, Except.map, bind, Except.bind]
          | ok text =>
              cases htext : text.loads <;>
                simp [hfind, hnode, htext, Except.map, bind, Except.bind, pure, Except.pure]

/-! ## What is registered

The store after registration, key by key: registration writes every schema the directory has, and nothing else. -/

/-- Registration writes every schema under its key. -/
theorem registerAllFromDir_eq (hdir : HoldsSchemas fs dir tree) (store : SchemaStore) :
    registerAllFromDir fs (some store) dir =
      .ok (store.update (tree.schemas.map (fun s => (schemaKey s.schemaVersion s.operatorClass, s)))) := by
  obtain ⟨place, hfind, hplace⟩ := hdir
  have hfold : ∀ (schemas : List Schema) (store : SchemaStore),
      (schemas.map (fun s => Node.file (SchemaText.schema s))).foldlM (fun store node => do
        let data ← (← FileSystem.readNode node).loads
        return store.set (schemaKey data.schemaVersion data.operatorClass) data) store =
      (.ok (store.update (schemas.map (fun s => (schemaKey s.schemaVersion s.operatorClass, s)))) :
        Except PyError SchemaStore) := by
    intro schemas
    induction schemas with
    | nil => intro store; rfl
    | cons s schemas ih => intro store; exact ih _
  unfold registerAllFromDir
  rw [hfind]
  show (FileSystem.rglob ".json" place.node).foldlM _ store = _
  rw [hplace, SchemaTree.rglob_node]
  exact hfold tree.schemas store

/-- A key is found in the filled store exactly where the directory has the file. -/
theorem get_registered {store : SchemaStore} (hfresh : ∀ cls v, store.get (schemaKey v cls) = none) (tree : SchemaTree)
    (cls : String) (v : Int) :
    (store.update (tree.schemas.map (fun s => (schemaKey s.schemaVersion s.operatorClass, s)))).get (schemaKey v cls) =
      tree.schemaOf cls v := by
  set written := tree.schemas.map (fun s => (schemaKey s.schemaVersion s.operatorClass, s)) with hwritten
  have hfiled : ∀ {s}, (schemaKey v cls, s) ∈ written → tree.schemaOf cls v = some s := by
    intro s hmem
    obtain ⟨s', hs', heq⟩ := List.mem_map.mp hmem
    obtain ⟨hkey, rfl⟩ := Prod.mk.inj heq
    obtain ⟨hv, hcls⟩ := schemaKey_inj hkey
    exact SchemaTree.schemaOf_eq_some_iff.mpr ⟨hs', hv, hcls⟩
  cases hschema : tree.schemaOf cls v with
  | some s =>
      obtain ⟨hs, rfl, rfl⟩ := SchemaTree.schemaOf_eq_some_iff.mp hschema
      refine Dict.get_update_of_unique (List.mem_map.mpr ⟨s, hs, rfl⟩) fun s' hs' => ?_
      exact Option.some.inj ((hfiled hs').symm.trans hschema)
  | none =>
      rw [← hfresh cls v]
      refine Dict.get_update_of_not_mem fun hkey => ?_
      obtain ⟨⟨key, s⟩, hmem, rfl⟩ := List.mem_map.mp hkey
      rw [hfiled hmem] at hschema
      cases hschema

end Lookups

/-! ## The two answer alike

One look-up of both sources compared, and then any sequence of look-ups, each through a cache of its own. The
condition names the calls that tell the two apart: those whose class, read as a path, leads somewhere. -/

/-- Both answer with one schema, or both raise `KeyError`. -/
def SameAnswer (a b : Except PyError Schema) : Prop :=
  match a, b with
  | .ok s, .ok s'       => s = s'
  | .error e, .error e' => e.kind = .keyError ∧ e'.kind = .keyError
  | _, _                => False

/-- Looking for class and version in the directory raises nothing, and finds nothing if the class is a path. -/
def Direct (fs : FileSystem SchemaText) (dir : PurePath) (cls : String) (v : Int) : Prop :=
  ∃ found, fs.find (schemaPath dir cls v) = .ok found ∧ ('/' ∈ cls.toList → found = none)

section Agreement

open CachedRegistry

variable {fs : FileSystem SchemaText} {dir : PurePath} {tree : SchemaTree} {cls : String} {v : Int}

theorem sameAnswer_notFound_iff {found : Except PyError (Option Schema)} :
    SameAnswer (ending cls v found) (ending cls v (.ok none)) ↔
      found = .ok none ∨ ∃ e, found = .error e ∧ e.kind = .keyError := by
  cases found with
  | error e => simp [ending, SameAnswer]
  | ok found => cases found <;> simp [ending, SameAnswer]

/-- What is read at a path is no `KeyError`. -/
theorem readNode_ne_keyError {node : Node SchemaText} {e : PyError}
    (h : (FileSystem.readNode node).bind SchemaText.loads = .error e) : e.kind ≠ .keyError := by
  cases node with
  | dir entries =>
      cases h
      decide
  | file text =>
      cases text with
      | schema s => cases h
      | other =>
          cases h
          decide

/-- One look-up. -/
theorem sameAnswer_iff (hdir : HoldsSchemas fs dir tree) :
    SameAnswer (ending cls v (loadFrom fs (some dir) none cls v)) (ending cls v (.ok (tree.schemaOf cls v))) ↔
      Direct fs dir cls v := by
  unfold Direct
  rw [loadFrom_dir]
  cases hfind : fs.find (schemaPath dir cls v) with
  -- the file system itself raises, which the store never does
  | error e =>
      have hkind : e.kind ≠ .keyError := by
        rw [fs.find_error hfind]
        decide
      cases hschema : tree.schemaOf cls v <;> simp [ending, SameAnswer, hkind]
  | ok found =>
      -- a class that is a path has no entry in the store, so all depends on where the path leads
      by_cases hcls : '/' ∈ cls.toList
      · have hschema : tree.schemaOf cls v = none := by
          cases hschema : tree.schemaOf cls v with
          | none => rfl
          | some s => exact absurd hcls (SchemaTree.named_of_schemaOf hschema).1
        rw [hschema, sameAnswer_notFound_iff]
        cases found with
        | none => simp
        | some place =>
            dsimp only
            cases hread : (FileSystem.readNode place.node).bind SchemaText.loads with
            | error e => simp [hcls, Except.map, readNode_ne_keyError hread]
            | ok s => simp [hcls, Except.map]
      -- any other class is one file of the tree, or none, and the store has the same
      · have hfound := find_schemaPath hdir hcls hfind
        cases found with
        | none =>
            cases hschema : tree.schemaOf cls v with
            | none => simp [ending, SameAnswer]
            | some s =>
                rw [hschema] at hfound
                cases hfound
        | some place =>
            cases hschema : tree.schemaOf cls v with
            | none =>
                rw [hschema] at hfound
                cases hfound
            | some s =>
                rw [hschema] at hfound
                have hnode : place.node = Node.file (SchemaText.schema s) := Option.some.inj hfound
                dsimp only
                rw [hnode]
                simp [hcls, ending, SameAnswer, FileSystem.readNode, SchemaText.loads, Except.bind, Except.map]

/-- A registry of the directory and a registry of the store filled from it answer alike to every call, each as if it
    were the first. -/
def Agree (fs : FileSystem SchemaText) (dir : PurePath) (store : SchemaStore) (calls : List (String × Int)) : Prop :=
  let fromDir := loadFrom fs (some dir) none
  let fromStore := loadFrom fs none (some store)
  List.Forall₂ SameAnswer (answers fromDir calls) (answers fromStore calls) ∧
    answers fromDir calls = calls.flatMap (fun call => answers fromDir [call]) ∧
    answers fromStore calls = calls.flatMap (fun call => answers fromStore [call])

theorem answers_alone (load : String → Int → Except PyError (Option Schema)) (calls : List (String × Int)) :
    answers load calls = calls.flatMap (fun call => answers load [call]) := by
  simp only [answers_eq, List.map_cons, List.map_nil]
  exact List.map_eq_flatMap

/-- The directory and the store filled from it answer alike to all calls with a class that is no path, or leads nowhere,
    and to no others. What was registered is what the directory's tree holds (`get_registered`), so the two are compared
    call by call: only a class that is a path leads out of the tree. -/
theorem sources_agree_iff (hdir : HoldsSchemas fs dir tree) {store : SchemaStore}
    (hfresh : ∀ cls v, store.get (schemaKey v cls) = none) (calls : List (String × Int)) :
    (∃ filled, registerAllFromDir fs (some store) dir = .ok filled ∧ Agree fs dir filled calls) ↔
      ∀ call ∈ calls, Direct fs dir call.1 call.2 := by
  have hfilled := registerAllFromDir_eq hdir store
  have hget := get_registered hfresh tree
  set filled := store.update (tree.schemas.map (fun s => (schemaKey s.schemaVersion s.operatorClass, s)))
  have hstore : ∀ cls v, loadFrom fs none (some filled) cls v = .ok (tree.schemaOf cls v) :=
    fun cls v => congrArg Except.ok (hget cls v)
  have hcalls : List.Forall₂ SameAnswer (answers (loadFrom fs (some dir) none) calls)
      (answers (loadFrom fs none (some filled)) calls) ↔ ∀ call ∈ calls, Direct fs dir call.1 call.2 := by
    rw [answers_eq, answers_eq, List.forall₂_map_left_iff, List.forall₂_map_right_iff, List.forall₂_same]
    simp only [hstore, sameAnswer_iff hdir]
  constructor
  · rintro ⟨filled', heq, hagree, -⟩
    rw [hfilled] at heq
    cases heq
    exact hcalls.mp hagree
  · intro h
    exact ⟨filled, hfilled, hcalls.mpr h, answers_alone _ calls, answers_alone _ calls⟩

end Agreement

/-! ## The repository's schemas

The directory of the repository, on a machine that has it. Asked for filed and unfiled classes both sources agree;
asked over the parent directory for a class that is a path they do not. -/

/-- The directory `schema-registry/schemas`. -/
def treeV1 : SchemaTree where
  versions := Dict.ofList [(1, Dict.ofList (schemasV1.map (fun s => (s.operatorClass, s))))]
  declared := by decide
  named    := by decide

/-- A machine that has it at `/schemas`. -/
def machineV1 : FileSystem SchemaText where
  root    := .dir [("schemas", treeV1.node)]
  cwd     := ⟨[], .dir [("schemas", treeV1.node)]⟩
  nameMax := 255
  pathMax := 4096

theorem holds_machineV1 : HoldsSchemas machineV1 (PurePath.ofText "/schemas") treeV1 :=
  ⟨⟨[machineV1.root], treeV1.node⟩, rfl, rfl⟩

/-- Names of one component, filed or not, and a path that leads nowhere. -/
theorem sources_agree_machineV1 :
    ∃ filled, registerAllFromDir machineV1 (some ∅) (PurePath.ofText "/schemas") = .ok filled ∧
      Agree machineV1 (PurePath.ofText "/schemas") filled
        [("RiskCheck", 1), ("RiskCheck", 2), ("Unknown", 1), ("../v2/RiskCheck", 1), ("RiskCheck", 1)] := by
  refine (sources_agree_iff holds_machineV1 (fun _ _ => rfl) _).mpr fun call hcall => ?_
  simp only [List.mem_cons, List.not_mem_nil, or_false] at hcall
  rcases hcall with rfl | rfl | rfl | rfl | rfl
  · exact ⟨_, rfl, fun hsep => absurd hsep (by decide)⟩
  · exact ⟨_, rfl, fun _ => rfl⟩
  · exact ⟨_, rfl, fun _ => rfl⟩
  · exact ⟨_, rfl, fun _ => rfl⟩
  · exact ⟨_, rfl, fun hsep => absurd hsep (by decide)⟩

/-- Over the parent directory a class comes back to a schema, which the store does not have under that class. -/
theorem sources_disagree :
    HoldsSchemas machineV1 (PurePath.ofText "/schemas") treeV1 ∧
      ∃ filled, registerAllFromDir machineV1 (some ∅) (PurePath.ofText "/schemas") = .ok filled ∧
        CachedRegistry.answers (loadFrom machineV1 (some (PurePath.ofText "/schemas")) none) [("../v1/RiskCheck", 1)] =
          [.ok ⟨1, "RiskCheck", ["rule_id", "position_cache", "watermark_ms", "kafka_offset_map"]⟩] ∧
        CachedRegistry.answers (loadFrom machineV1 none (some filled)) [("../v1/RiskCheck", 1)] =
          [.error ⟨.keyError, "Schema not found: ../v1/RiskCheck v1"⟩] ∧
        ¬ Agree machineV1 (PurePath.ofText "/schemas") filled [("../v1/RiskCheck", 1)] := by
  refine ⟨holds_machineV1, _, registerAllFromDir_eq holds_machineV1 ∅, rfl, rfl, fun h => ?_⟩
  cases h.1 with
  | cons hsame _ => exact hsame

end Common
end HybridStream
