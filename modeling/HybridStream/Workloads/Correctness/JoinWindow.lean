import HybridStream.Lib.Lts
import HybridStream.Lib.NamedEntries
import HybridStream.Py.Exact
import HybridStream.Workloads.W1

/-!
# `Workloads.Correctness.JoinWindow` — what is joined and what is classified

The window of a `MultiStreamJoin` is a function of the records since its last emission: the zones in the order they
came in, each with its latest record (`Follows`). The names the join puts together for different zones and statistics
are different texts, since each suffix ends in a letter of its own; and the suffix `_max` is found again on exactly the
maxima by the classifier (`maxima_joined`).
-/

namespace HybridStream
namespace Workloads

open Lib Py Hea

namespace JoinWindow

open MultiStreamJoin (process new operator emitJoin)

variable {F : Type} [PyRuntime F]

/-! ## Names

The joined record has names made of a zone and a suffix. The last letter tells the suffixes apart, and what is before
them the zones. -/

/-- The last character of a text. -/
def lastChar (s : String) : Option Char := s.toList.getLast?

theorem lastChar_append (s : String) {suffix : String} {c : Char} (h : lastChar suffix = some c) :
    lastChar (s ++ suffix) = some c := by
  unfold lastChar at h ⊢
  rw [String.toList_append, List.getLast?_append, h, Option.some_or]

theorem append_suffix_inj {s t : String} (suffix : String) : s ++ suffix = t ++ suffix ↔ s = t := by
  constructor
  · intro h
    have hchars := congrArg String.toList h
    rw [String.toList_append, String.toList_append, List.append_cancel_right_eq] at hchars
    exact String.toList_inj.mp hchars
  · rintro rfl
    rfl

theorem endsWith_iff (s suffix : String) : s.endsWith suffix = true ↔ suffix.toList <:+ s.toList := by
  rw [String.endsWith_eq_endsWith_toSlice, String.Slice.endsWith_string_iff, String.copy_toSlice]

theorem endsWith_append (s suffix : String) : (s ++ suffix).endsWith suffix = true := by
  rw [endsWith_iff, String.toList_append]
  exact List.suffix_append _ _

theorem not_endsWith {s suffix : String} {c d : Char} (hs : lastChar s = some c) (hsuffix : lastChar suffix = some d)
    (h : c ≠ d) : s.endsWith suffix = false := by
  rw [Bool.eq_false_iff, ne_eq, endsWith_iff]
  rintro ⟨front, hfront⟩
  unfold lastChar at hs hsuffix
  rw [← hfront, List.getLast?_append, hsuffix] at hs
  exact h (Option.some.inj hs).symm

/-! ## Windows

The records since the last emission, of which the window has the latest of each zone, in the order in which the zones
came in. -/

/-- The zone a record is joined under. -/
def zoneOf (record : Record F) : String := (record.getD "zone_id" (.str "unknown")).toStr

/-- The zone id is a string. -/
def HasStringZone (record : Record F) : Prop := ∃ zone, record.getD "zone_id" (.str "unknown") = .str zone

/-- The zones of some records, in the order they came in. -/
def zonesOf (records : List (Record F)) : List String := usedNames (records.map zoneOf)

/-- The latest record of a zone. -/
def latest (records : List (Record F)) (zone : String) : Record F :=
  ((records.filter (fun record => zoneOf record = zone)).getLast?).getD ∅

/-- The statistics of a zone in the joined record. -/
def zoneFields (records : List (Record F)) (zone : String) : List (String × Value F) :=
  [ (zone ++ "_mean", (latest records zone).getD "agg_mean" (.float 0.0)),
    (zone ++ "_max",  (latest records zone).getD "agg_max" (.float 0.0)),
    (zone ++ "_p95",  (latest records zone).getD "agg_p95" (.float 0.0)) ]

/-- All entries of the joined record. -/
def joinedFields (clock : Clock F) (records : List (Record F)) : List (String × Value F) :=
  [("join_timestamp", .float (clock.time 0)), ("zones_present", .list ((zonesOf records).map .str))] ++
    (zonesOf records).flatMap (zoneFields records)

/-- The join of some records. -/
def joined (clock : Clock F) (records : List (Record F)) : Record F := Dict.ofList (joinedFields clock records)

/-- The attributes after a record. -/
def step (s : MultiStreamJoin F) (e : Clock F × Record F) : MultiStreamJoin F := ((process e.1 e.2).exec s).2

/-- The records a history has left since the last emission, or with `pending` if there was none. -/
def sinceEmission : MultiStreamJoin F → List (Record F) → List (Clock F × Record F) → List (Record F)
  | _, pending, []      => pending
  | s, pending, e :: es =>
      let pending' := match ((process e.1 e.2).exec s).1 with
        | .ok (_ :: _) => []
        | _            => pending ++ [e.2]
      sinceEmission (step s e) pending' es

/-- The timeout of the window has not elapsed. -/
def Timely (s : MultiStreamJoin F) (e : Clock F × Record F) : Prop :=
  PyRuntime.lt s.windowTimeout (e.1.monotonic - s.windowStart) = false

instance (s : MultiStreamJoin F) (e : Clock F × Record F) : Decidable (Timely s e) :=
  inferInstanceAs (Decidable (_ = false))

theorem zonesOf_concat (records : List (Record F)) (record : Record F) :
    zonesOf (records ++ [record]) = useName (zonesOf records) (zoneOf record) := by
  unfold zonesOf
  rw [List.map_append, List.map_singleton, usedNames_concat]

theorem latest_concat (records : List (Record F)) (record : Record F) (zone : String) :
    latest (records ++ [record]) zone = if zone = zoneOf record then record else latest records zone := by
  unfold latest
  rw [List.filter_append]
  by_cases h : zone = zoneOf record
  · rw [if_pos h, h]
    simp
  · rw [if_neg h]
    simp [Ne.symm h]

/-! ## The names of a joined record

No two of the names are the same, so the joined record has all entries of all zones. -/

/-- The suffixes of a zone's statistics. -/
def statistics : List String := ["_mean", "_max", "_p95"]

theorem lastChar_name (zone : String) {suffix : String} (h : suffix ∈ statistics) :
    lastChar (zone ++ suffix) = lastChar suffix := by
  simp only [statistics, List.mem_cons, List.not_mem_nil, or_false] at h
  rcases h with rfl | rfl | rfl
  · exact lastChar_append zone rfl
  · exact lastChar_append zone rfl
  · exact lastChar_append zone rfl

/-- The last letter tells the statistics apart, and what is before the suffix the zones. -/
theorem name_inj {zone zone' suffix suffix' : String} (h : suffix ∈ statistics) (h' : suffix' ∈ statistics)
    (heq : zone ++ suffix = zone' ++ suffix') : zone = zone' ∧ suffix = suffix' := by
  have hlast : lastChar suffix = lastChar suffix' := by
    rw [← lastChar_name zone h, heq, lastChar_name zone' h']
  have hletters : ∀ a ∈ statistics, ∀ b ∈ statistics, lastChar a = lastChar b → a = b := by decide
  obtain rfl := hletters suffix h suffix' h' hlast
  exact ⟨(append_suffix_inj suffix).mp heq, rfl⟩

/-- No two entries of a joined record have the same name. -/
theorem nodup_joinedFields (clock : Clock F) (records : List (Record F)) :
    ((joinedFields clock records).map Prod.fst).Nodup := by
  have hfields : (joinedFields clock records).map Prod.fst = ["join_timestamp", "zones_present"] ++
      (zonesOf records).flatMap (fun zone => statistics.map (zone ++ ·)) := by
    unfold joinedFields
    rw [List.map_append, List.map_flatMap]
    rfl
  rw [hfields]
  apply List.Nodup.append
  · decide
  · apply List.nodup_flatMap.mpr
    constructor
    · intro zone _
      have hstatistics : statistics.Nodup := by decide
      exact hstatistics.map_on fun _ h _ h' heq => (name_inj h h' heq).2
    · refine (nodup_usedNames (records.map zoneOf)).imp fun {zone zone'} hne name hname hname' => ?_
      obtain ⟨suffix, h, rfl⟩ := List.mem_map.mp hname
      obtain ⟨suffix', h', heq⟩ := List.mem_map.mp hname'
      exact hne (name_inj h h' heq.symm).1
  · intro name hname hzone
    obtain ⟨zone, -, hzone⟩ := List.mem_flatMap.mp hzone
    obtain ⟨suffix, h, rfl⟩ := List.mem_map.mp hzone
    -- the other two names end in letters of their own
    have hlast : ∀ other ∈ ["join_timestamp", "zones_present"], ∀ suffix ∈ statistics,
        lastChar suffix ≠ lastChar other := by decide
    exact hlast _ hname suffix h (lastChar_name zone h).symm

theorem entries_joined (clock : Clock F) (records : List (Record F)) :
    (joined clock records).entries = joinedFields clock records :=
  Dict.entries_ofList (nodup_joinedFields clock records)

/-! ## The window

One record, and then every history: the join is put out by the record that completes the zones, and the window starts
over. -/

/-- The window holds the latest record of each zone since the last emission. -/
structure Follows (nZones : Int) (records : List (Record F)) (s : MultiStreamJoin F) : Prop where
  size   : s.nZones = nZones
  window : s.currentWindow.entries = namedEntries .str (latest records) (zonesOf records)
  fewer  : ((zonesOf records).length : Int) < nZones

theorem new_follows {clock : Clock F} {operatorId : String} {nZones : Int} (hn : 1 ≤ nZones) {windowTimeoutMs : F}
    {fresh : MultiStreamJoin F} (hnew : new clock operatorId nZones windowTimeoutMs = .ok fresh) :
    Follows nZones [] fresh := by
  obtain ⟨windowTimeout, -, hfresh⟩ := bind_eq_ok.mp hnew
  cases hfresh
  exact ⟨rfl, rfl, hn⟩

variable {nZones : Int} {records : List (Record F)} {s : MultiStreamJoin F} {clock : Clock F} {record : Record F}

/-- The window with one more record. -/
theorem Follows.entries_set (h : Follows nZones records s) (record : Record F) :
    (s.currentWindow.set (.str (zoneOf record)) record).entries =
      namedEntries .str (latest (records ++ [record])) (zonesOf (records ++ [record])) := by
  have hnodup : (zonesOf records).Nodup := nodup_usedNames _
  show setEntry _ _ s.currentWindow.entries = _
  rw [h.window, setEntry_named Value.beq_str_eq_decide _ hnodup, zonesOf_concat]
  apply namedEntries_congr
  intro zone _
  exact (latest_concat records record zone).symm

theorem length_zonesOf_concat (records : List (Record F)) (record : Record F) :
    (zonesOf (records ++ [record])).length ≤ (zonesOf records).length + 1 := by
  rw [zonesOf_concat, useName]
  split
  · exact Nat.le_succ _
  · rw [List.length_append, List.length_singleton]

/-- What is joined are the fields of the zones. -/
theorem emitJoin_eq (h : s.currentWindow.entries = namedEntries .str (latest records) (zonesOf records))
    (clock : Clock F) : s.emitJoin clock = joined clock records := by
  have hkeys : s.currentWindow.keys = (zonesOf records).map .str := by
    unfold Dict.keys
    rw [h, namedEntries, List.map_map]
    rfl
  have hfold : ∀ (zones : List String) (merged : Record F),
      (namedEntries (κ := Value F) .str (latest records) zones).foldl
          (fun merged e => merged.update
            [ (s!"{e.1.toStr}_mean", e.2.getD "agg_mean" (.float 0.0)),
              (s!"{e.1.toStr}_max",  e.2.getD "agg_max" (.float 0.0)),
              (s!"{e.1.toStr}_p95",  e.2.getD "agg_p95" (.float 0.0)) ]) merged =
        merged.update (zones.flatMap (zoneFields records)) := by
    intro zones
    induction zones with
    | nil => exact fun _ => rfl
    | cons zone zones ih =>
        intro merged
        rw [List.flatMap_cons, Dict.update_append]
        exact ih _
  unfold emitJoin joined joinedFields
  rw [h, hkeys, hfold]
  show Dict.update (Dict.update ∅ _) _ = Dict.update ∅ _
  rw [Dict.update_append]

/-- **One record**: the join is emitted where it completes the zones, and starts over. -/
theorem exec_process (h : Follows nZones records s) (hzone : HasStringZone record)
    (htimely : Timely s (clock, record)) :
    if ((zonesOf (records ++ [record])).length : Int) = nZones then
      ((process clock record).exec s).1 = .ok [joined clock (records ++ [record])] ∧
        Follows nZones [] (step s (clock, record))
    else
      ((process clock record).exec s).1 = .ok [] ∧
        Follows nZones (records ++ [record]) (step s (clock, record)) := by
  obtain ⟨zone, hzone⟩ := hzone
  -- the zone is a text, so it can be a key of the window
  have hname : zoneOf record = zone := by
    unfold zoneOf
    rw [hzone]
    rfl
  have hkey : (record.getD "zone_id" (.str "unknown")).asKey = .ok (.str (zoneOf record)) := by
    rw [hname, hzone]
    rfl
  have hset := h.entries_set record
  have hsize : (s.currentWindow.set (.str (zoneOf record)) record).size = (zonesOf (records ++ [record])).length := by
    unfold Dict.size
    rw [hset, namedEntries, List.length_map]
  have hjoin := emitJoin_eq (s := { s with currentWindow := s.currentWindow.set (.str (zoneOf record)) record }) hset
    clock
  have hlength := length_zonesOf_concat records record
  have hfewer := h.fewer
  -- the window has at most one zone more than before, so it is complete exactly at the number of zones
  have hall : s.nZones ≤ ((zonesOf (records ++ [record])).length : Int) ↔
      ((zonesOf (records ++ [record])).length : Int) = nZones := by
    rw [h.size]
    omega
  have htimely : PyRuntime.lt s.windowTimeout (clock.monotonic - s.windowStart) = false := htimely
  unfold step process
  simp only [Proc.exec_bind, Proc.exec_lift, Proc.exec_get, Proc.exec_modify, hkey, hsize, htimely, Bool.or_false,
    decide_eq_true_eq, hall]
  by_cases hcomplete : ((zonesOf (records ++ [record])).length : Int) = nZones
  · rw [if_pos hcomplete, if_pos hcomplete, hjoin]
    refine ⟨rfl, h.size, rfl, ?_⟩
    show (0 : Int) < nZones
    omega
  · rw [if_neg hcomplete, if_neg hcomplete]
    exact ⟨rfl, h.size, hset, by omega⟩

/-- **Every history**: the window is that of the records since the last emission. -/
theorem run_follows {stream : List (Clock F × Record F)} (hzones : ∀ e ∈ stream, HasStringZone e.2)
    (htimely : AtEachStep step Timely s stream) (h : Follows nZones records s) :
    Follows nZones (sinceEmission s records stream) (operator.run s stream) := by
  induction stream generalizing s records with
  | nil => exact h
  | cons e stream ih =>
      obtain ⟨hnow, hlater⟩ := htimely
      have hcall := exec_process h (hzones e List.mem_cons_self) hnow
      show Follows nZones (sinceEmission (step s e) _ stream) (operator.run (step s e) stream)
      apply ih (fun e' he' => hzones e' (List.mem_cons_of_mem e he')) hlater
      split at hcall
      · rw [hcall.1]
        exact hcall.2
      · rw [hcall.1]
        exact hcall.2

/-! ## The classifier

It picks the maxima by the suffix of their names, and takes their mean. -/

/-- The maxima of the zones. -/
def maxima (records : List (Record F)) : List (Value F) :=
  (zonesOf records).map (fun zone => (latest records zone).getD "agg_max" (.float 0.0))

/-- What the classifier puts out for a score. -/
def classified (c : BinaryClassifier F) (record : Record F) (score : F) : Record F :=
  let label : Int := if PyRuntime.le c.threshold score then 1 else 0
  let confidence : F := if label = 1 then score else 1.0 - score
  record.update
    [ ("label",      .int label),
      ("score",      .float (PyRuntime.round score 4)),
      ("confidence", .float (PyRuntime.round confidence 4)),
      ("threshold",  .float c.threshold) ]

/-- **The suffix picks the maxima** out of a joined record, one for each zone, and nothing else. -/
theorem maxima_joined (clock : Clock F) (records : List (Record F)) :
    ((joined clock records).entries.filter (fun e => e.1.endsWith "_max")).map Prod.snd = maxima records := by
  have hsuffix : lastChar "_max" = some 'x' := rfl
  have hfirst : "join_timestamp".endsWith "_max" = false := not_endsWith (c := 'p') rfl hsuffix (by decide)
  have hsecond : "zones_present".endsWith "_max" = false := not_endsWith (c := 't') rfl hsuffix (by decide)
  have hmean : ∀ zone : String, (zone ++ "_mean").endsWith "_max" = false :=
    fun zone => not_endsWith (lastChar_append (c := 'n') zone rfl) hsuffix (by decide)
  have hp95 : ∀ zone : String, (zone ++ "_p95").endsWith "_max" = false :=
    fun zone => not_endsWith (lastChar_append (c := '5') zone rfl) hsuffix (by decide)
  have hmax : ∀ zone : String, (zone ++ "_max").endsWith "_max" = true := fun zone => endsWith_append zone "_max"
  rw [entries_joined]
  unfold joinedFields maxima
  rw [List.filter_append, List.filter_flatMap, List.map_append, List.map_flatMap]
  simp [zoneFields, hfirst, hsecond, hmean, hp95, hmax, ← List.map_eq_flatMap]

/-- **The score** is the mean of the zones' maxima. -/
theorem exec_classify (c : BinaryClassifier F) (clock clock' : Clock F) (h : zonesOf records ≠ []) :
    (BinaryClassifier.process clock' (joined clock records)).exec c =
      ((Value.meanOf (maxima records) (zonesOf records).length).map
        (fun score => [classified c (joined clock records) score]), c) := by
  have hlength : (maxima records).length = (zonesOf records).length := List.length_map _
  have hne : (maxima records).isEmpty = false := by
    rw [List.isEmpty_eq_false_iff, ← List.length_pos_iff, hlength, List.length_pos_iff]
    exact h
  unfold BinaryClassifier.process
  dsimp only
  rw [maxima_joined, hne, hlength]
  cases Value.meanOf (maxima records) (zonesOf records).length with
  | ok score => rfl
  | error e => rfl

/-! ## The result

Join and classifier behind one another: the score is the mean of the latest maxima of all zones. -/

/-- A record of a zone with the maximum `max`. -/
def zoneRecord (zone : String) (max : Int) : Record ℚ := Dict.ofList [("zone_id", .str zone), ("agg_max", .int max)]

end JoinWindow

end Workloads
end HybridStream
