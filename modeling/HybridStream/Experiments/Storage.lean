import HybridStream.Experiments.Collector
import HybridStream.Experiments.Stats
import HybridStream.Py.Files

/-!
# `Experiments.Storage` — the results directory

`metrics/storage.py`: the snapshots of a run become the rows of one parquet file, and the rows of all files that are
found are put together again. A parquet file gives back the rows that were written to it, a metric without a value as a
missing one. The order in which a set of strings is iterated and that in which files are found are parameters.
-/

namespace HybridStream
namespace Experiments

open Lib Py

variable {F : Type}

/-- A row of a results file. -/
structure StoredRow (F : Type) where
  timestampS         : F
  configId           : String
  repetition         : Int
  operatorType       : String
  m1P95LatencyMs     : Option F
  m2SloCompliance    : Option F
  m3ThroughputEps    : F
  m4MigrationPauseMs : F
  m5AodeOverheadMs   : F
  m6EdgeUtilization  : F

/-- The iteration of `set(xs) | set(ys)`. -/
structure SetUnion where
  elements : List String → List String → List String
  nodup    : ∀ xs ys, (elements xs ys).Nodup
  mem_iff  : ∀ xs ys x, x ∈ elements xs ys ↔ x ∈ xs ∨ x ∈ ys

/-! ## Saving

A snapshot has a row for each operator type that it knows, or one for the whole; the rows of a run go into one file,
written over if it was there. -/

/-- The row of a snapshot for one operator type. -/
def MetricSnapshot.row (snap : MetricSnapshot F) (operatorType : String) (m1 m2 : Option F) : StoredRow F :=
  { timestampS         := snap.timestamp
    configId           := snap.configId
    repetition         := snap.repetition
    operatorType       := operatorType
    m1P95LatencyMs     := m1
    m2SloCompliance    := m2
    m3ThroughputEps    := snap.m3ThroughputEps
    m4MigrationPauseMs := snap.m4MigrationPauseMs
    m5AodeOverheadMs   := snap.m5AodeOverheadMs
    m6EdgeUtilization  := snap.m6EdgeUtilization }

/-- The rows of a snapshot. -/
def rowsOf (union : SetUnion) (snap : MetricSnapshot F) : List (StoredRow F) :=
  let allOpTypes := union.elements snap.m1P95LatencyMs.keys snap.m2SloCompliance.keys
  if allOpTypes.isEmpty then [snap.row "_global" none none]
  else allOpTypes.map fun opType =>
    snap.row opType (snap.m1P95LatencyMs.get opType) (snap.m2SloCompliance.get opType)

/-- The parquet files below the results directory, by their paths from there. -/
abbrev ResultFiles (F : Type) : Type := Dict PurePath (List (StoredRow F))

/-- `f"{n:02d}"` -/
def twoDigits (n : Int) : String := if 0 ≤ n ∧ n < 10 then "0" ++ toString n else toString n

/-- `RESULTS_DIR / config_id / f"rep_{repetition:02d}.parquet"` -/
def outPath (configId : String) (repetition : Int) : PurePath :=
  (PurePath.ofText configId).join ("rep_" ++ twoDigits repetition ++ ".parquet")

/-- `save_snapshots`: the files after it, and the path it returns. -/
def saveSnapshots (union : SetUnion) (files : ResultFiles F) (snapshots : List (MetricSnapshot F))
    (configId : String) (repetition : Int) : ResultFiles F × Option PurePath :=
  if snapshots.isEmpty then (files, none)
  else
    let outPath := outPath configId repetition
    (files.set outPath (snapshots.flatMap (rowsOf union)), some outPath)

/-! ## Loading

All files below the directory, in the order in which they are found, with the id of the configuration taken apart into
its parts. -/

/-- `s.split(sep, n)`: at most `n` separators split. -/
def splitAtMost (sep : Char) : Nat → List Char → List (List Char)
  | 0, text     => [text]
  | n + 1, text =>
      match text.dropWhile (· ≠ sep) with
      | []        => [text]
      | _ :: rest => text.takeWhile (· ≠ sep) :: splitAtMost sep n rest

/-- A row with the parts of its configuration; a part that is missing is `None`. -/
structure LoadedRow (F : Type) where
  stored   : StoredRow F
  workload : Option String
  system   : Option String
  network  : Option String

def partsOf (configId : String) : List String := (splitAtMost '-' 2 configId.toList).map String.ofList

def StoredRow.parsed (row : StoredRow F) : LoadedRow F :=
  { stored   := row
    workload := (partsOf row.configId)[0]?
    system   := (partsOf row.configId)[1]?
    network  := (partsOf row.configId)[2]? }

/-- The order in which `rglob` finds the files. -/
structure Listing (F : Type) where
  found : ResultFiles F → List (List (StoredRow F))
  perm  : ∀ files, (found files).Perm files.values

/-- `load_all_results`. The columns of the split are as many as the longest of the rows has. -/
def loadAllResults [PyRuntime F] (listing : Listing F) (resultsDir : String) (files : ResultFiles F) :
    Except PyError (List (LoadedRow F)) := do
  let found := listing.found files
  if found.isEmpty then
    throw ⟨.other, s!"No results found in {resultsDir}"⟩
  let combined := found.flatten
  if combined.all (fun row => (partsOf row.configId).length < 3) then
    throw ⟨.valueError, "config_id must have format 'workload-system-network'"⟩
  return (combined.map StoredRow.parsed).filter (fun row => PyRuntime.le 120.0 row.stored.timestampS)

/-- The columns that the comparisons read. A missing number is `nan`, and a missing part equals no name, as the empty
    text does. -/
def LoadedRow.toRow (nan : F) (row : LoadedRow F) : Row F :=
  { workload       := row.workload.getD ""
    network        := row.network.getD ""
    system         := row.system.getD ""
    repetition     := row.stored.repetition
    m1P95LatencyMs := row.stored.m1P95LatencyMs.getD nan
    m2Compliance   := row.stored.m2SloCompliance.getD nan
    m3Throughput   := row.stored.m3ThroughputEps }

end Experiments
end HybridStream
