import HybridStream.Py.Value

/-!
# `Common.Schema` — operator schemas and their registry

`hybridstream/common/schema_registry.py`. A schema lists the fields of an operator class by name; the types
and descriptions in the JSON files are read by no code and are left out. A registry is what `_load` finds
for a class and a version. It carries what its layout promises (`v{version}/{operator_class}.json`): the
document found under a version is of that version, a class has a name, and no field takes the name of an
envelope entry.
-/

namespace HybridStream
namespace Common

open Py

/-- A schema document. -/
structure Schema where
  schemaVersion : Int
  operatorClass : String
  fields        : List String
  deriving DecidableEq

/-- The entries every snapshot document has besides the schema's fields. -/
def envelope : List String := ["schema_version", "operator_class"]

/-- How a look-up ends that found what it did. -/
def ending {δ : Type} (operatorClass : String) (version : Int) : Except PyError (Option δ) → Except PyError δ
  | .error e            => .error e
  | .ok (some document) => .ok document
  | .ok none            => .error ⟨.keyError, s!"Schema not found: {operatorClass} v{version}"⟩

/-- `SchemaRegistry`: the files and etcd keys `_load` looks up. The cache answers as `_load` does. -/
structure SchemaRegistry where
  load       : String → Int → Option Schema
  version_eq : ∀ {cls v schema}, load cls v = some schema → schema.schemaVersion = v
  named      : ∀ {cls v schema}, load cls v = some schema → cls ≠ ""
  no_clash   : ∀ {cls v schema}, load cls v = some schema → ∀ name ∈ envelope, name ∉ schema.fields

namespace SchemaRegistry

/-- `get_schema` -/
def getSchema (registry : SchemaRegistry) (operatorClass : String) (version : Int) : Except PyError Schema :=
  ending operatorClass version (.ok (registry.load operatorClass version))

theorem getSchema_eq_ok {registry : SchemaRegistry} {cls : String} {v : Int} {schema : Schema} :
    registry.getSchema cls v = .ok schema ↔ registry.load cls v = some schema := by
  unfold getSchema ending
  cases registry.load cls v <;> simp

/-- The registry of one directory `v{version}` of schema files, named by their class. -/
def ofFiles (version : Int) (schemas : List Schema) (hversion : ∀ s ∈ schemas, s.schemaVersion = version)
    (hnamed : ∀ s ∈ schemas, s.operatorClass ≠ "")
    (hclash : ∀ s ∈ schemas, ∀ name ∈ envelope, name ∉ s.fields) : SchemaRegistry where
  load cls v := if v = version then schemas.find? (fun s => s.operatorClass = cls) else none
  version_eq := by
    intro cls v schema h
    simp only [Option.ite_none_right_eq_some] at h
    rw [hversion schema (List.mem_of_find?_eq_some h.2), h.1]
  named := by
    intro cls v schema h
    simp only [Option.ite_none_right_eq_some] at h
    have hcls : schema.operatorClass = cls := by simpa using List.find?_some h.2
    rw [← hcls]
    exact hnamed schema (List.mem_of_find?_eq_some h.2)
  no_clash := by
    intro cls v schema h
    simp only [Option.ite_none_right_eq_some] at h
    exact hclash schema (List.mem_of_find?_eq_some h.2)

end SchemaRegistry

/-! ## The schemas of `schema-registry/schemas/v1`

The documents that the repository ships, field by field and in their order, as the registry finds them. -/

/-- The eleven files of the directory. -/
def schemasV1 : List Schema :=
  [ ⟨1, "AnomalyDetector", ["baseline_stats", "alert_cooldown", "watermark_ms", "kafka_offset_map"]⟩,
    ⟨1, "BinaryClassifier", ["model_weights", "feature_names", "watermark_ms", "kafka_offset_map"]⟩,
    ⟨1, "ComplianceLogger", ["pending_records", "sequence_counter", "watermark_ms", "kafka_offset_map"]⟩,
    ⟨1, "FeatureAggWindow",
      ["window_buffers", "accumulators", "watermark_ms", "pending_timers", "kafka_offset_map"]⟩,
    ⟨1, "MultiStreamJoin",
      ["left_buffer", "right_buffer", "window_size_ms", "watermark_ms", "kafka_offset_map",
        "pending_timers"]⟩,
    ⟨1, "NormalizerOperator", ["kafka_offset_map", "watermark_ms", "scale_factors"]⟩,
    ⟨1, "PatternDetector",
      ["pattern_state", "active_matches", "watermark_ms", "pending_timers", "kafka_offset_map"]⟩,
    ⟨1, "RiskCheck", ["rule_id", "position_cache", "watermark_ms", "kafka_offset_map"]⟩,
    ⟨1, "StatAggregator",
      ["accumulators", "window_buffers", "watermark_ms", "pending_timers", "kafka_offset_map"]⟩,
    ⟨1, "VehicleDetector", ["detection_state", "watermark_ms", "kafka_offset_map"]⟩,
    ⟨1, "ZoneAggregator",
      ["zone_id", "flow_counters", "window_buffers", "watermark_ms", "kafka_offset_map"]⟩ ]

/-- The registry of the repository's schema directory. -/
def registryV1 : SchemaRegistry := .ofFiles 1 schemasV1 (by decide) (by decide) (by decide)

end Common
end HybridStream
