import HybridStream.Aode.PlacementStore

/-!
# `Aode.Correctness.CacheStore` — the cache and the store between calls

An update and a removal write the cache first and the store after, across an `await` that can raise; the cache is not
set back then. A load reads a key back by a strip, which takes the slashes off an operator type that begins with one.
Under the lock nothing else goes wrong: as long as a call that raises had nothing to write and a load finds no such
key, cache and store agree whenever the lock is free.
-/

namespace HybridStream
namespace Aode

open Lib Py

/-! ## Keys

An operator is stored under a key of its own, but a load reads the operator back from the key with its leading slashes
stripped; where that is another name, or two names come to the same, the load files it elsewhere. -/

/-- The key an operator's tier is stored under. -/
def storedKey (keyPrefix operatorType : String) : List UInt8 := EtcdClient.fullKey keyPrefix (operatorKey operatorType)

theorem storedKey_injective (keyPrefix : String) : Function.Injective (storedKey keyPrefix) := by
  intro op op' h
  have htext := MessagePack.utf8_injective h
  exact (String.append_right_inj _).mp ((String.append_right_inj _).mp htext)

theorem get_set_storedKey (keyPrefix : String) (store : EtcdStore) (op op' : String) (value : List UInt8) :
    (store.set (storedKey keyPrefix op) value).get (storedKey keyPrefix op') =
      if op' = op then some value else store.get (storedKey keyPrefix op') := by
  split
  · rename_i hop
    rw [hop, Dict.get_set_self]
  · rename_i hop
    exact Dict.get_set_ne _ (fun h => hop (storedKey_injective keyPrefix h)) _

theorem get_pop_storedKey (keyPrefix : String) (store : EtcdStore) (op op' : String) :
    (store.pop (storedKey keyPrefix op)).get (storedKey keyPrefix op') =
      if op' = op then none else store.get (storedKey keyPrefix op') := by
  split
  · rename_i hop
    rw [hop, Dict.get_pop_self]
  · rename_i hop
    exact Dict.get_pop_ne _ (fun h => hop (storedKey_injective keyPrefix h))

/-- What `get_dict` makes of an operator's key: the operator type without the slashes it begins with. -/
def stripped (operatorType : String) : String := String.ofList (operatorType.toList.dropWhile (fun c => c = '/'))

theorem suffixOf_append (fullPrefix op : String) :
    EtcdClient.suffixOf fullPrefix (fullPrefix ++ "/" ++ op) = stripped op := by
  have hslash : "/".toList = ['/'] := by decide
  unfold EtcdClient.suffixOf stripped
  rw [String.toList_append, String.toList_append, hslash, List.append_assoc, ← String.length_toList, List.drop_left]
  rfl

theorem suffixOf_operatorKey (keyPrefix op : String) :
    EtcdClient.suffixOf (keyPrefix ++ "/placement/operators") (keyPrefix ++ operatorKey op) = stripped op := by
  have hstrip : ∀ path folder : String, folder = path ++ "/" →
      EtcdClient.suffixOf (keyPrefix ++ path) (keyPrefix ++ (folder ++ op)) = stripped op := by
    rintro path _ rfl
    rw [← String.append_assoc, ← String.append_assoc]
    exact suffixOf_append (keyPrefix ++ path) op
  exact hstrip _ _ (by decide +kernel)

/-- A key is read back: what `get_dict` makes of it is an operator type, and the key is that operator's. -/
def readBack (keyPrefix : String) (key : List UInt8) : Bool :=
  match EtcdClient.decode key with
  | .error _ => true
  | .ok full =>
      let suffix := EtcdClient.suffixOf (keyPrefix ++ "/placement/operators") full
      suffix = "" ∨ storedKey keyPrefix suffix = key

/-- An operator's key is read back exactly where the operator type begins with no slash, or is nothing but slashes: so
    it is for the others that a load misleads. -/
theorem readBack_storedKey (keyPrefix op : String) :
    readBack keyPrefix (storedKey keyPrefix op) = true ↔ stripped op = "" ∨ stripped op = op := by
  have hdecode : EtcdClient.decode (storedKey keyPrefix op) = .ok (keyPrefix ++ operatorKey op) := by
    unfold EtcdClient.decode storedKey EtcdClient.fullKey
    rw [MessagePack.ofUtf8_utf8]
  unfold readBack
  rw [hdecode]
  dsimp only
  rw [suffixOf_operatorKey, decide_eq_true_iff, (storedKey_injective keyPrefix).eq_iff]

/-- Every key the scan of a load finds is read back. -/
def Readable (keyPrefix : String) (store : EtcdStore) : Prop :=
  ∀ e ∈ store.entries,
    (EtcdClient.fullKey keyPrefix "/placement/operators").isPrefixOf e.1 = true → readBack keyPrefix e.1 = true

instance (keyPrefix : String) (store : EtcdStore) : Decidable (Readable keyPrefix store) :=
  inferInstanceAs (Decidable (∀ _ ∈ _, _))

/-! ## Agreement

Cache and store agree when they have the same tier for every operator that has been written. Loads and writes keep it,
one by one. -/

/-- The tiers of a dictionary are those of the store. -/
def Stored (keyPrefix : String) (store : EtcdStore) (tiers : Dict String String) : Prop :=
  ∀ op tier, tiers.get op = some tier → store.get (storedKey keyPrefix op) = some (MessagePack.utf8 tier)

/-- The cache has the tiers of the store, and the operators written are in both or in neither. -/
structure Agrees (keyPrefix : String) (written : List String) (p : StoredPlacement) : Prop where
  stored  : Stored keyPrefix p.store p.state.cache
  present : ∀ op ∈ written, (p.state.cache.get op).isSome = (p.store.get (storedKey keyPrefix op)).isSome

variable {keyPrefix : String}

/-- One turn of the loop of `get_dict` over an entry of the store. -/
theorem Stored.collect {store : EtcdStore} {kvDict kvDict' : Dict String String} {e : List UInt8 × List UInt8}
    (h : Stored keyPrefix store kvDict) (he : e ∈ store.entries) (hread : readBack keyPrefix e.1 = true)
    (hcollect : EtcdClient.collect (keyPrefix ++ "/placement/operators") kvDict e = .ok kvDict') :
    Stored keyPrefix store kvDict' := by
  obtain ⟨full, hfull, hcollect⟩ := bind_eq_ok.mp hcollect
  unfold readBack at hread
  rw [hfull] at hread
  dsimp only at hread hcollect
  by_cases hsuffix : EtcdClient.suffixOf (keyPrefix ++ "/placement/operators") full = ""
  · rw [if_pos hsuffix] at hcollect
    cases hcollect
    exact h
  · rw [if_neg hsuffix] at hcollect
    obtain ⟨tier', htier, hcollect⟩ := bind_eq_ok.mp hcollect
    cases hcollect
    intro op tier hget
    rw [Dict.get_set] at hget
    split at hget
    · rename_i hop
      cases hget
      have hkey : storedKey keyPrefix op = e.1 := by
        rw [hop]
        exact (of_decide_eq_true hread).resolve_left hsuffix
      rw [hkey, EtcdClient.utf8_of_decode htier]
      exact Dict.get_eq_some_iff.mpr he
    · exact h op tier hget

/-- Everything a load reads is stored, where every key it finds is read back. -/
theorem Stored.readDict {store : EtcdStore} (hread : Readable keyPrefix store) {data : Dict String String}
    (hdata : EtcdClient.readDict keyPrefix "/placement/operators" store = .ok data) : Stored keyPrefix store data := by
  have hloop : ∀ (es : List (List UInt8 × List UInt8)) (kvDict : Dict String String),
      (∀ e ∈ es, e ∈ store.entries ∧ readBack keyPrefix e.1 = true) → Stored keyPrefix store kvDict →
      es.foldlM (EtcdClient.collect (keyPrefix ++ "/placement/operators")) kvDict = .ok data →
      Stored keyPrefix store data := by
    intro es
    induction es with
    | nil =>
        intro kvDict _ h hdata
        cases hdata
        exact h
    | cons e es ih =>
        intro kvDict hes h hdata
        obtain ⟨kvDict', hcollect, hdata⟩ := bind_eq_ok.mp hdata
        obtain ⟨he, hback⟩ := hes e List.mem_cons_self
        exact ih kvDict' (fun e' he' => hes e' (List.mem_cons_of_mem _ he')) (h.collect he hback hcollect) hdata
  refine hloop _ ∅ (fun e he => ?_) (fun op tier hget => by cases hget) hdata
  obtain ⟨he, hscanned⟩ := List.mem_filter.mp he
  exact ⟨he, hread e he hscanned⟩

/-- Loading into the cache what is stored leaves it with what is stored. -/
theorem Stored.update {store : EtcdStore} {tiers data : Dict String String} (h : Stored keyPrefix store tiers)
    (hdata : Stored keyPrefix store data) : Stored keyPrefix store (tiers.update data.entries) := by
  intro op tier hget
  rcases Dict.get_update_cases hget with hold | hloaded
  · exact h op tier hold
  · exact hdata op tier (Dict.get_eq_some_iff.mpr hloaded)

theorem Agrees.load {written : List String} {p : StoredPlacement} (h : Agrees keyPrefix written p)
    {data : Dict String String} (hdata : Stored keyPrefix p.store data) :
    Agrees keyPrefix written { p with state := ⟨p.state.cache.update data.entries⟩ } := by
  have hstored := h.stored.update hdata
  refine ⟨hstored, fun op hop => ?_⟩
  dsimp only
  have hpresent := h.present op hop
  cases hcache : p.state.cache.get op with
  | some tier =>
      rw [hcache] at hpresent
      rw [← hpresent]
      exact Dict.isSome_get_update (by rw [hcache]; rfl)
  | none =>
      rw [hcache] at hpresent
      rw [← hpresent]
      -- an operator the load adds is one of the store, and this one is not
      cases hloaded : (p.state.cache.update data.entries).get op with
      | none => rfl
      | some tier =>
          rw [hstored op tier hloaded] at hpresent
          cases hpresent

/-- Writing the same to both, a tier or none. -/
theorem Agrees.write {written : List String} {p : StoredPlacement} (h : Agrees keyPrefix written p)
    {cache : Dict String String} {store : EtcdStore} {op : String} (tier : Option String)
    (hcache : ∀ op', cache.get op' = if op' = op then tier else p.state.cache.get op')
    (hstore : ∀ op', store.get (storedKey keyPrefix op') =
      if op' = op then tier.map MessagePack.utf8 else p.store.get (storedKey keyPrefix op')) :
    Agrees keyPrefix (op :: written) ⟨⟨cache⟩, store⟩ := by
  constructor
  · intro op' tier' hget
    dsimp only at hget ⊢
    rw [hstore]
    rw [hcache] at hget
    split at hget
    · rename_i hop
      rw [if_pos hop, hget]
      rfl
    · rename_i hop
      rw [if_neg hop]
      exact h.stored op' tier' hget
  · intro op' hop'
    dsimp only
    rw [hcache, hstore]
    by_cases hop : op' = op
    · rw [if_pos hop, if_pos hop, Option.isSome_map]
    · rw [if_neg hop, if_neg hop]
      exact h.present op' ((List.mem_cons.mp hop').resolve_left hop)

theorem Agrees.set {written : List String} {p : StoredPlacement} (h : Agrees keyPrefix written p) (op tier : String) :
    Agrees keyPrefix (op :: written)
      ⟨⟨p.state.cache.set op tier⟩, p.store.set (storedKey keyPrefix op) (MessagePack.utf8 tier)⟩ :=
  h.write (some tier) (fun op' => Dict.get_set _ op op' tier) (fun op' => get_set_storedKey keyPrefix _ op op' _)

theorem Agrees.pop {written : List String} {p : StoredPlacement} (h : Agrees keyPrefix written p) (op : String) :
    Agrees keyPrefix (op :: written) ⟨⟨p.state.cache.pop op⟩, p.store.pop (storedKey keyPrefix op)⟩ :=
  h.write none (fun op' => Dict.get_pop _ op op') (fun op' => get_pop_storedKey keyPrefix _ op op')

/-! ## One call

A client that raises in an operation leaves the cache as the method wrote it before. That does no harm where the store
says the same already. -/

/-- The client does not mislead the call: an operation it raises in was to write what the cache says already, and a
    scan that returns finds only keys that are read back. -/
def Harmless (keyPrefix : String) (found : StoredPlacement) : PlacementCall → Except PyError Unit → Prop
  | .load, .ok _ => Readable keyPrefix found.store
  | .update op tier, .error _ => found.state.cache.get op = some tier
  | .remove op, .error _ => found.state.cache.get op = none
  | _, _ => True

/-- Then a call that raises leaves what it found, and one that returns leaves cache and store in agreement. -/
theorem Agrees.answered {written : List String} {p : StoredPlacement} (h : Agrees keyPrefix written p)
    {c : PlacementCall} {outcome : Except PyError Unit} (hclient : Harmless keyPrefix p c outcome) :
    (∀ e, ((p.entered c).answered keyPrefix c outcome).1 = .error e →
      ((p.entered c).answered keyPrefix c outcome).2 = p) ∧
    (((p.entered c).answered keyPrefix c outcome).1 = .ok () →
      Agrees keyPrefix (c.written ++ written) ((p.entered c).answered keyPrefix c outcome).2) := by
  cases c with
  | load =>
      cases outcome with
      | error e => exact ⟨fun _ _ => rfl, nofun⟩
      | ok u =>
          unfold StoredPlacement.answered StoredPlacement.entered PlacementState.loadFromEtcd
          cases hdata : EtcdClient.readDict keyPrefix "/placement/operators" p.store with
          | error e => exact ⟨fun _ _ => rfl, nofun⟩
          | ok data => exact ⟨nofun, fun _ => h.load (Stored.readDict hclient hdata)⟩
  | update op tier =>
      cases outcome with
      | error e =>
          refine ⟨fun _ _ => ?_, nofun⟩
          show { p with state := ⟨p.state.cache.set op tier⟩ } = p
          rw [Dict.set_of_get hclient]
      | ok u => exact ⟨nofun, fun _ => h.set op tier⟩
  | remove op =>
      cases outcome with
      | error e =>
          refine ⟨fun _ _ => ?_, nofun⟩
          show { p with state := ⟨p.state.cache.pop op⟩ } = p
          rw [Dict.pop_of_get_none hclient]
      | ok u => exact ⟨nofun, fun _ => h.pop op⟩

/-! ## Runs

The lock lets one call at a time between its first write and its last, so agreement is an invariant of the states in
which the lock is free, and what holds in between is what the call of the moment needs. -/

namespace PlacementTasks

/-- The step is no answer that misleads the call. -/
def Unmisled (keyPrefix : String) (s : PlacementTasks) : PlacementEvent → Prop
  | .answer outcome => ∀ c, s.holder = some c → Harmless keyPrefix s.found c outcome
  | _ => True

/-- What the lock protects: cache and store agree while it is free, and while a call has it, they are what the call
    found but for what it has written to the cache. -/
structure Guarded (keyPrefix : String) (s : PlacementTasks) : Prop where
  free : s.holder = none → Agrees keyPrefix s.written s.current
  held : ∀ c, s.holder = some c → Agrees keyPrefix s.written s.found ∧ s.current = s.found.entered c

theorem leave_current (s : PlacementTasks) (c : PlacementCall) (ended : Except PyError Unit × StoredPlacement) :
    (s.leave c ended).current = ended.2 := by
  obtain ⟨outcome, left⟩ := ended
  cases outcome <;> rfl

theorem Guarded.initial {s : PlacementTasks} (h : Initial s) : Guarded keyPrefix s := by
  obtain ⟨hstate, hholder, -, hwritten⟩ := h
  refine ⟨fun _ => ⟨?_, ?_⟩, fun c hc => ?_⟩
  · rw [hstate]
    exact fun op tier hget => by cases hget
  · rw [hwritten]
    exact fun op hop => absurd hop List.not_mem_nil
  · rw [hholder] at hc
    cases hc

theorem Guarded.enter {s : PlacementTasks} (h : Agrees keyPrefix s.written s.current) (c : PlacementCall) :
    Guarded keyPrefix (s.enter c) := by
  refine ⟨nofun, fun c' hc' => ?_⟩
  cases hc'
  exact ⟨h, rfl⟩

/-- The task that has the lock ends. -/
theorem Guarded.leave {s : PlacementTasks} (h : Guarded keyPrefix s) {c : PlacementCall} (hc : s.holder = some c)
    {outcome : Except PyError Unit} (hclient : Harmless keyPrefix s.found c outcome) :
    Guarded keyPrefix (s.leave c (s.current.answered keyPrefix c outcome)) := by
  obtain ⟨hfound, hcurrent⟩ := h.held c hc
  obtain ⟨hraised, hreturned⟩ := hfound.answered hclient
  rw [hcurrent]
  cases hended : (s.found.entered c).answered keyPrefix c outcome with
  | mk ended left =>
      rw [hended] at hraised hreturned
      cases ended with
      | ok u => exact ⟨fun _ => hreturned rfl, nofun⟩
      | error e =>
          refine ⟨fun _ => ?_, nofun⟩
          rw [← hraised e rfl] at hfound
          exact hfound

theorem Guarded.step {s s' : PlacementTasks} {a : PlacementEvent} (h : Guarded keyPrefix s)
    (hstep : s.step keyPrefix a = some s') (hclient : Unmisled keyPrefix s a) : Guarded keyPrefix s' := by
  cases a with
  | call c =>
      simp only [PlacementTasks.step] at hstep
      split at hstep
      · rename_i hfree
        cases hstep
        exact Guarded.enter (h.free hfree.1) c
      · cases hstep
        exact ⟨h.free, h.held⟩
  | resume =>
      simp only [PlacementTasks.step] at hstep
      split at hstep
      · rename_i hnone _
        cases hstep
        apply Guarded.enter
        exact h.free hnone
      · cases hstep
  | answer outcome =>
      obtain ⟨c, hc, rfl⟩ := Option.map_eq_some_iff.mp hstep
      exact h.leave hc (hclient c hc)

theorem guarded_of_reachable {s : PlacementTasks} (h : ((tasks keyPrefix).restrict (Unmisled keyPrefix)).Reachable s) :
    Guarded keyPrefix s :=
  h.invariant (fun _ => Guarded.initial) (fun _ _ _ hs hstep => hs.step hstep.1 hstep.2)

/-- **Cache and store never diverge** as long as the client misleads no call: whenever the lock is free, an operator of
    the cache has its tier in the store, and an operator written is in both or in neither; and a call that raises leaves
    both as it found them. `Guarded` says what the lock protects: while it is free both agree, and while a call has it
    they are as the call found them, but for what it has written to the cache. -/
theorem cache_agrees (keyPrefix : String) {s : PlacementTasks}
    (h : ((tasks keyPrefix).restrict (Unmisled keyPrefix)).Reachable s) :
    (s.holder = none →
      (∀ op tier, s.current.state.getCurrentPlacement.get op = some tier →
        s.current.store.get (storedKey keyPrefix op) = some (MessagePack.utf8 tier)) ∧
      ∀ op ∈ s.written,
        s.current.state.getCurrentPlacement.contains op = s.current.store.contains (storedKey keyPrefix op)) ∧
    ∀ c outcome e, s.holder = some c → Harmless keyPrefix s.found c outcome →
      (s.current.answered keyPrefix c outcome).1 = .error e →
      (s.leave c (s.current.answered keyPrefix c outcome)).current = s.found := by
  have hguarded := guarded_of_reachable h
  constructor
  · intro hfree
    have hagrees := hguarded.free hfree
    exact ⟨hagrees.stored, hagrees.present⟩
  · intro c outcome e hc hclient hraised
    obtain ⟨hfound, hcurrent⟩ := hguarded.held c hc
    rw [leave_current, hcurrent]
    rw [hcurrent] at hraised
    exact (hfound.answered hclient).1 e hraised

instance (found : StoredPlacement) (c : PlacementCall) (outcome : Except PyError Unit) :
    Decidable (Harmless keyPrefix found c outcome) := by
  cases c <;> cases outcome <;> unfold Harmless <;> infer_instance

instance (s : PlacementTasks) (a : PlacementEvent) : Decidable (Unmisled keyPrefix s a) :=
  match a, hholder : s.holder with
  | .answer outcome, some c =>
      decidable_of_iff (Harmless keyPrefix s.found c outcome)
        ⟨fun h c' hc' => by rw [hholder] at hc'; cases hc'; exact h, fun h => h c hholder⟩
  | .answer _, none => .isTrue (fun c hc => by rw [hholder] at hc; cases hc)
  | .call _, _ => .isTrue trivial
  | .resume, _ => .isTrue trivial

/-- A process that has called nothing, over the store. -/
def started (store : EtcdStore) : PlacementTasks := ⟨⟨⟨∅⟩, store⟩, none, [], ⟨⟨∅⟩, store⟩, []⟩

/-- The process before has placed `RiskCheck`, and the new one loads it. Meanwhile two calls wait for the lock: one
    moves the operator, the next repeats the move and raises. A third takes the operator out. -/
theorem cache_agrees_loaded :
    ∃ s : PlacementTasks, ((tasks "/aode/").restrict (Unmisled "/aode/")).Reachable s ∧
      s.holder = none ∧ s.written = ["RiskCheck", "RiskCheck"] ∧
      ∀ op ∈ s.written,
        s.current.state.getCurrentPlacement.contains op = s.current.store.contains (storedKey "/aode/" op) := by
  have hexec : Lts.exec (Lts.guardStep (step "/aode/") (Unmisled "/aode/"))
      [.call .load, .call (.update "RiskCheck" "cloud"), .call (.update "RiskCheck" "cloud"), .answer (.ok ()),
        .resume, .answer (.ok ()), .resume, .answer (.error ⟨.runtimeError, "etcd"⟩), .call (.remove "RiskCheck"),
        .answer (.ok ())]
      (started ((∅ : EtcdStore).set (storedKey "/aode/" "RiskCheck") (MessagePack.utf8 "edge-node-1"))) = some _ := rfl
  have hreach : ((tasks "/aode/").restrict (Unmisled "/aode/")).Reachable _ :=
    Lts.restrict_reachable_of_exec ⟨rfl, rfl, rfl, rfl⟩ hexec
  exact ⟨_, hreach, rfl, rfl, ((cache_agrees "/aode/" hreach).1 rfl).2⟩

/-- An operation that raises in an update leaves a cache the store does not agree with; and so does a load after an
    operator whose type begins with a slash was written, though nothing has raised. -/
theorem cache_diverges :
    (∃ s s' : PlacementTasks, (tasks "/aode/").Reachable s ∧
      s.step "/aode/" (.answer (.error ⟨.runtimeError, "etcd"⟩)) = some s' ∧ s'.holder = none ∧
      s'.current.state.getCurrentPlacement.get "RiskCheck" = some "cloud" ∧
      s'.current.store.get (storedKey "/aode/" "RiskCheck") = none ∧
      s'.current.state.getCurrentPlacement ≠ s.found.state.getCurrentPlacement) ∧
    ∃ s : PlacementTasks, (tasks "/aode/").Reachable s ∧ s.holder = none ∧
      s.current.state.getCurrentPlacement.get "RiskCheck" = some "cloud" ∧
      s.current.store.get (storedKey "/aode/" "RiskCheck") = none := by
  constructor
  · have hexec : Lts.exec (step "/aode/") [.call (.update "RiskCheck" "cloud")] (started ∅) = some _ := rfl
    refine ⟨_, _, Lts.reachable_of_exec ⟨rfl, rfl, rfl, rfl⟩ hexec, rfl, rfl, rfl, rfl, by decide⟩
  · have hexec : Lts.exec (step "/aode/")
        [.call (.update "/RiskCheck" "cloud"), .answer (.ok ()), .call .load, .answer (.ok ())] (started ∅) =
          some _ := rfl
    exact ⟨_, Lts.reachable_of_exec ⟨rfl, rfl, rfl, rfl⟩ hexec, rfl, by decide +kernel, by decide +kernel⟩

end PlacementTasks

end Aode
end HybridStream
