import HybridStream.Lib.NamedEntries
import HybridStream.Py.Exact
import HybridStream.Workloads.W2

/-!
# `Workloads.Correctness.Incidents` — incidents are the congested moments

The state of a `PatternDetector` is a function of the observations it has read: the zones in the order they were first
seen, each with its last twenty densities (`Follows`). The latest density of a zone survives every eviction, so the
detector's list of congested zones is the set of zones whose latest observation is above the threshold.

Zones are keys of a table of deques, and a zone that has not been seen is no key. The observation that makes three
zones congested is reported with them, in the order in which they were first seen.
-/

namespace HybridStream
namespace Workloads

open Lib Py Hea

namespace Incidents

open PatternDetector (process new operator)

variable {F : Type} [PyRuntime F]

/-! ## Observations

The reports of the zones as pairs of zone and density, and what is to be counted: the moments at which three zones or
more are above the threshold by their last density. -/

/-- The record is about the zone and has the density. -/
def Reads (e : Clock F × Record F) (o : String × F) : Prop :=
  e.2.getD "zone_id" (.str "unknown") = .str o.1 ∧ (e.2.getD "density" (.float 0.0)).toFloat = .ok o.2

omit [PyRuntime F] in
/-- The densities observed in a zone. -/
def densities (obs : List (String × F)) (zone : String) : List F :=
  (obs.filter (fun o => o.1 = zone)).map Prod.snd

/-- The latest density of the zone is above the threshold. -/
def IsCongested (threshold : F) (obs : List (String × F)) (zone : String) : Prop :=
  ∃ density, (densities obs zone).getLast? = some density ∧ PyRuntime.lt threshold density = true

/-- The zones that are, in the order they were first observed. -/
def congested (threshold : F) (obs : List (String × F)) : List String :=
  (usedNames (obs.map Prod.fst)).filter (fun zone => (densities obs zone).getLast?.any (PyRuntime.lt threshold))

/-- The number of observations with which at least three zones were congested. -/
def incidents (threshold : F) (obs : List (String × F)) : Nat :=
  (List.range obs.length).countP (fun n => 3 ≤ (congested threshold (obs.take (n + 1))).length)

/-- The incident that is put out. -/
def incident (zones : List String) (count : Nat) (timestamp : Value F) : Record F := Dict.ofList
  [ ("pattern_type",    .str "congestion_wave"),
    ("congested_zones", .list (zones.map .str)),
    ("incident_count",  .int count),
    ("severity",        .int zones.length),
    ("timestamp",       timestamp) ]

variable {threshold : F} {obs : List (String × F)} {zone : String} {density : F}

omit [PyRuntime F] in
theorem densities_concat (obs : List (String × F)) (zone other : String) (density : F) :
    densities (obs ++ [(zone, density)]) other =
      if other = zone then densities obs other ++ [density] else densities obs other := by
  unfold densities
  rw [List.filter_append, List.map_append]
  by_cases h : other = zone
  · subst h
    simp
  · simp [h, Ne.symm h]

omit [PyRuntime F] in
theorem densities_eq_nil : densities obs zone = [] ↔ zone ∉ obs.map Prod.fst := by
  unfold densities
  rw [List.map_eq_nil_iff, List.filter_eq_nil_iff, List.mem_map]
  constructor
  · rintro h ⟨o, ho, rfl⟩
    exact h o ho (decide_eq_true rfl)
  · intro h o ho heq
    exact h ⟨o, ho, of_decide_eq_true heq⟩

/-- **The congested zones** are listed once each, and no others. -/
theorem mem_congested : zone ∈ congested threshold obs ↔ IsCongested threshold obs zone := by
  unfold congested IsCongested
  rw [List.mem_filter, mem_usedNames, Option.any_eq_true]
  constructor
  · rintro ⟨-, density, hlast, hlt⟩
    exact ⟨density, hlast, hlt⟩
  · rintro ⟨density, hlast, hlt⟩
    refine ⟨?_, density, hlast, hlt⟩
    by_contra hnew
    rw [densities_eq_nil.mpr hnew] at hlast
    cases hlast

theorem nodup_congested (threshold : F) (obs : List (String × F)) : (congested threshold obs).Nodup :=
  (nodup_usedNames _).filter _

theorem incidents_concat (threshold : F) (obs : List (String × F)) (o : String × F) :
    incidents threshold (obs ++ [o]) =
      incidents threshold obs + if 3 ≤ (congested threshold (obs ++ [o])).length then 1 else 0 := by
  have hearlier : (List.range obs.length).countP
        (fun n => 3 ≤ (congested threshold ((obs ++ [o]).take (n + 1))).length) = incidents threshold obs := by
    apply List.countP_congr
    intro n hn
    rw [List.take_append_of_le_length (List.mem_range.mp hn)]
  unfold incidents at hearlier ⊢
  rw [List.length_append, List.length_singleton, List.range_succ, List.countP_append, hearlier,
    List.countP_singleton, List.take_of_length_le (by simp)]
  simp only [decide_eq_true_eq]

/-! ## One observation

The detector keeps the last densities of each zone in a table of deques, of which only the last one counts. -/

/-- The attributes are made of the observations. -/
structure Follows (threshold : F) (obs : List (String × F)) (s : PatternDetector F) : Prop where
  limit     : s.congestionThreshold = threshold
  histories : s.zoneHistory.entries =
    namedEntries .str (fun zone => lastItems 20 (densities obs zone)) (usedNames (obs.map Prod.fst))
  count     : s.incidentCount = incidents threshold obs

theorem new_follows (operatorId : String) (threshold : F) : Follows threshold [] (new operatorId threshold) :=
  ⟨rfl, rfl, rfl⟩

variable {s : PatternDetector F}

/-- A zone's history. -/
theorem Follows.get_history (h : Follows threshold obs s) (zone : String) :
    s.zoneHistory.get (.str zone) =
      if zone ∈ obs.map Prod.fst then some (lastItems 20 (densities obs zone)) else none := by
  unfold Dict.get
  rw [h.histories, lookupEntry_named Value.beq_str_eq_decide]
  simp only [mem_usedNames]

/-- The zone's history with one more density. -/
theorem Follows.append_history (h : Follows threshold obs s) (zone : String) (density : F) :
    dequeAppend 20 (s.zoneHistory.getD (.str zone) []) density = lastItems 20 (densities obs zone ++ [density]) := by
  have hold : s.zoneHistory.getD (.str zone) [] = lastItems 20 (densities obs zone) := by
    unfold Dict.getD
    rw [h.get_history]
    split
    · rfl
    · rename_i hnew
      rw [densities_eq_nil.mpr hnew, lastItems_nil]
      rfl
  rw [hold]
  exact dequeAppend_lastItems 20 _ density

/-- The histories with one more observation. -/
theorem Follows.entries_set (h : Follows threshold obs s) (zone : String) (density : F) :
    (s.zoneHistory.set (.str zone) (dequeAppend 20 (s.zoneHistory.getD (.str zone) []) density)).entries =
      namedEntries .str (fun other => lastItems 20 (densities (obs ++ [(zone, density)]) other))
        (usedNames ((obs ++ [(zone, density)]).map Prod.fst)) := by
  show setEntry _ _ s.zoneHistory.entries = _
  rw [h.append_history, h.histories, setEntry_named Value.beq_str_eq_decide _ (nodup_usedNames _), List.map_append,
    List.map_singleton, usedNames_concat]
  apply namedEntries_congr
  intro other _
  rw [densities_concat]
  split
  · rename_i heq
    rw [heq]
  · rfl

/-- What the detector calls congested. -/
theorem congestedZones_eq {histories : Dict (Value F) (List F)}
    (h : histories.entries =
      namedEntries .str (fun zone => lastItems 20 (densities obs zone)) (usedNames (obs.map Prod.fst)))
    (hs : s.zoneHistory = histories) (hthreshold : s.congestionThreshold = threshold) :
    s.congestedZones = (congested threshold obs).map .str := by
  unfold PatternDetector.congestedZones congested
  rw [hs, h, namedEntries, List.filter_map, List.map_map, hthreshold]
  simp only [Function.comp_def, getLast?_lastItems (Nat.succ_pos 19)]

/-- **One observation**: an incident is put out where three zones are congested with it. -/
theorem exec_process (h : Follows threshold obs s) {clock : Clock F} {record : Record F}
    (hread : Reads (clock, record) (zone, density)) :
    ∃ s', (process clock record).exec s = (.ok
        (if 3 ≤ (congested threshold (obs ++ [(zone, density)])).length then
          [incident (congested threshold (obs ++ [(zone, density)])) (incidents threshold (obs ++ [(zone, density)]))
            (record.getD "timestamp" (.int 0))]
        else []), s') ∧
      Follows threshold (obs ++ [(zone, density)]) s' := by
  obtain ⟨hzone, hdensity⟩ := hread
  have hzone : record.getD "zone_id" (.str "unknown") = .str zone := hzone
  have hdensity : (record.getD "density" (.float 0.0)).toFloat = .ok density := hdensity
  have hkey : (Value.str zone : Value F).asKey = .ok (.str zone) := rfl
  have hcongested := congestedZones_eq (s := { s with
    zoneHistory := s.zoneHistory.set (.str zone) (dequeAppend 20 (s.zoneHistory.getD (.str zone) []) density) })
    (h.entries_set zone density) rfl h.limit
  have hcount := incidents_concat threshold obs (zone, density)
  unfold process
  simp only [Proc.exec_bind, Proc.exec_lift, Proc.exec_get, Proc.exec_modify, hzone, hdensity, hkey, hcongested,
    List.length_map]
  by_cases hthree : 3 ≤ (congested threshold (obs ++ [(zone, density)])).length
  · rw [if_pos hthree] at hcount
    have hnext : s.incidentCount + 1 = (incidents threshold (obs ++ [(zone, density)]) : Nat) := by
      rw [h.count, hcount, Nat.cast_succ]
    rw [if_pos hthree, if_pos hthree, incident, ← hnext]
    exact ⟨_, rfl, h.limit, h.entries_set zone density, hnext⟩
  · rw [if_neg hthree] at hcount
    rw [if_neg hthree, if_neg hthree]
    exact ⟨_, rfl, h.limit, h.entries_set zone density, h.count.trans (by rw [hcount]; rfl)⟩

/-! ## A history

Every observation by the lemma on one, so the incidents put out are the moments counted. -/

/-- **Every history**: the attributes stay made of the observations. -/
theorem run_follows {stream : List (Clock F × Record F)} {later : List (String × F)}
    (hreads : List.Forall₂ Reads stream later) (h : Follows threshold obs s) :
    Follows threshold (obs ++ later) (operator.run s stream) := by
  induction hreads generalizing obs s with
  | nil => rwa [List.append_nil]
  | @cons e o stream later hread _ ih =>
      obtain ⟨s', hexec, hs'⟩ := exec_process h hread
      have hrun : operator.run s (e :: stream) = operator.run s' stream := by
        show operator.run ((process e.1 e.2).exec s).2 stream = _
        rw [hexec]
      rw [hrun, List.append_cons]
      exact ih hs'

/-- **Incidents are exactly the congested moments.** After any observations a further one brings an incident if and only
    if the latest densities of at least three zones are then above the threshold; the incident lists these zones and has
    the number of incidents so far, and the history of each zone is its last twenty densities. `Follows` reads the table
    of the operator off the observations, and one more call is one more observation. -/
theorem incidents_exact (operatorId : String) (threshold : F) {stream : List (Clock F × Record F)}
    {past : List (String × F)} (hpast : List.Forall₂ Reads stream past) {clock : Clock F} {record : Record F}
    {zone : String} {density : F} (hread : Reads (clock, record) (zone, density)) :
    let obs := past ++ [(zone, density)]
    let zones := congested threshold obs
    let s := operator.run (new operatorId threshold) (stream ++ [(clock, record)])
    zones.Nodup ∧ (∀ z, z ∈ zones ↔ IsCongested threshold obs z) ∧
    ((process clock record).exec (operator.run (new operatorId threshold) stream)).1 = .ok
      (if 3 ≤ zones.length then [incident zones (incidents threshold obs) (record.getD "timestamp" (.int 0))] else []) ∧
    s.incidentCount = incidents threshold obs ∧
    ∀ z, s.zoneHistory.get (.str z) =
      if z ∈ obs.map Prod.fst then some (lastItems 20 (densities obs z)) else none := by
  intro obs zones s
  have hbefore := run_follows hpast (new_follows operatorId threshold)
  rw [List.nil_append] at hbefore
  obtain ⟨s', hexec, hs'⟩ := exec_process hbefore hread
  have hs : s = s' := by
    show operator.run _ (stream ++ [(clock, record)]) = _
    rw [BaseOperator.run_append]
    show ((process clock record).exec (operator.run _ stream)).2 = s'
    rw [hexec]
  refine ⟨nodup_congested threshold obs, fun z => mem_congested, ?_, ?_, fun z => ?_⟩
  · rw [hexec]
  · rw [hs]
    exact hs'.count
  · rw [hs]
    exact hs'.get_history z

/-- The third zone above the threshold. -/
theorem incidents_exact_three :
    ((process ⟨0, fun _ => 0⟩ (Dict.ofList [("zone_id", .str "zone_C"), ("density", .int 8)])).exec
      (operator.run (new "pd-3" (5 : ℚ))
        [(⟨0, fun _ => 0⟩, Dict.ofList [("zone_id", .str "zone_A"), ("density", .int 8)]),
          (⟨0, fun _ => 0⟩, Dict.ofList [("zone_id", .str "zone_B"), ("density", .int 8)])])).1 =
      .ok [incident ["zone_A", "zone_B", "zone_C"] 1 (.int 0)] := by
  have hpast : List.Forall₂ (Reads (F := ℚ))
      [(⟨0, fun _ => 0⟩, Dict.ofList [("zone_id", .str "zone_A"), ("density", .int 8)]),
        (⟨0, fun _ => 0⟩, Dict.ofList [("zone_id", .str "zone_B"), ("density", .int 8)])]
      [("zone_A", 8), ("zone_B", 8)] := .cons ⟨rfl, rfl⟩ (.cons ⟨rfl, rfl⟩ .nil)
  have hread : Reads (F := ℚ) (⟨0, fun _ => 0⟩, Dict.ofList [("zone_id", .str "zone_C"), ("density", .int 8)])
      ("zone_C", 8) := ⟨rfl, rfl⟩
  have hzones : congested (5 : ℚ) ([("zone_A", 8), ("zone_B", 8)] ++ [("zone_C", 8)]) =
      ["zone_A", "zone_B", "zone_C"] := by decide +kernel
  have hcount : incidents (5 : ℚ) ([("zone_A", 8), ("zone_B", 8)] ++ [("zone_C", 8)]) = 1 := by decide +kernel
  obtain ⟨-, -, hout, -⟩ := incidents_exact "pd-3" 5 hpast hread
  rw [hout, hzones, hcount]
  rfl

end Incidents

end Workloads
end HybridStream
