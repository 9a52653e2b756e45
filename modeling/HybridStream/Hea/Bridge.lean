import HybridStream.Common.Wire
import HybridStream.Hea.Engine
import HybridStream.Lib.Dataflow
import HybridStream.Py.Collections

/-!
# `Hea.Bridge` — operators on several nodes, chained through the bridge topics

`BridgeProducer.send` packs a record and puts it on a topic; the consumer of a topic, one on each node, unpacks it
(`_deserialize_record`) and dispatches it to the operators bound there. With the operators of a pipeline distributed
over nodes this is a network of `Lib.Dataflow`: its channels are the topics, each with any number of partitions, and its
loops the consumers, `(node, topic)`. The consumer groups are named after the nodes, so a consumer has all partitions
of its topic, and goes through them in whatever order the batches come. A consumer that cannot unpack a payload drops
the rest of its batch; a send that raises ends the `_emit` it belongs to.

`register_operator` has been called for each operator on one node before anything was sent, and the operators process
inline. `bindings_registerAll` and `respond_processInline` are the ties to the engine.
-/

namespace HybridStream
namespace Hea

open Lib Py

variable {F σ ω : Type} [PyRuntime F]

/-! ## Sending and receiving

What goes over a bridge topic is bytes. The producer packs a record and the consumer unpacks it, tuples having become
lists; a payload that cannot be unpacked ends the rest of its batch, and a send that raises ends the sends of its
call. -/

/-- `BridgeProducer`; `start` sets its producer. -/
structure BridgeProducer where
  started : Bool

/-- The payload of `BridgeProducer.send`. -/
def BridgeProducer.payload (bridge : BridgeProducer) (mp : MessagePack F) (record : Record F) :
    Except PyError (List UInt8) :=
  if bridge.started then mp.packb record.toValue else .error ⟨.runtimeError, "BridgeProducer not started"⟩

/-- `_deserialize_record` -/
def deserializeRecord (mp : MessagePack F) (value : List UInt8) : Except PyError (Value F) := do
  let v ← mp.unpackb value
  if v.strictKeys then .ok v else .error ⟨.valueError, "map key is not allowed when strict_map_key=True"⟩

/-- What `_emit` gets out: one payload after the other, until a `send` raises. -/
def payloadsOf (bridge : BridgeProducer) (mp : MessagePack F) : List (String × Record F) → List (String × List UInt8)
  | []                      => []
  | (topic, record) :: rest => match bridge.payload mp record with
      | .ok payload => (topic, payload) :: payloadsOf bridge mp rest
      | .error _    => []

/-- What an operator that processes inline makes of a payload: what it sends, and its attributes afterwards. A payload
    that is no dictionary makes `process` raise. -/
def respond (bridge : BridgeProducer) (mp : MessagePack F) (C : BaseOperator F σ) (outputTopics : List String)
    (clock : Clock F) (payload : List UInt8) (s : σ) : List (String × List UInt8) × σ :=
  match deserializeRecord mp payload >>= Value.recordOf with
  | .error _   => ([], s)
  | .ok record =>
      let result := (C.process clock record).exec s
      (payloadsOf bridge mp (Engine.payloads outputTopics (emitted result.1)), result.2)

section Payloads

variable {bridge : BridgeProducer} {mp : MessagePack F} {C : BaseOperator F σ} {outputTopics : List String}
  {clock : Clock F} {payload : List UInt8} {s : σ}

theorem mem_payloadsOf {sends : List (String × Record F)} {x : String × List UInt8}
    (h : x ∈ payloadsOf bridge mp sends) :
    ∃ record, (x.1, record) ∈ sends ∧ mp.packb record.toValue = .ok x.2 := by
  induction sends with
  | nil => cases h
  | cons send sends ih =>
      obtain ⟨topic, record⟩ := send
      unfold payloadsOf at h
      split at h
      · rename_i payload hpayload
        rcases List.mem_cons.mp h with rfl | h
        · unfold BridgeProducer.payload at hpayload
          split at hpayload
          · exact ⟨record, List.mem_cons_self, hpayload⟩
          · cases hpayload
        · obtain ⟨record', hmem, hpack⟩ := ih h
          exact ⟨record', List.mem_cons_of_mem _ hmem, hpack⟩
      · cases h

omit [PyRuntime F] in
theorem mem_payloads {records : List (Record F)} {x : String × Record F}
    (h : x ∈ Engine.payloads outputTopics records) : x.1 ∈ outputTopics ∧ x.2 ∈ records := by
  obtain ⟨topic, htopic, hx⟩ := List.mem_flatMap.mp h
  obtain ⟨record, hrecord, rfl⟩ := List.mem_map.mp hx
  exact ⟨htopic, hrecord⟩

/-- An operator answers on its own output topics. -/
theorem respond_routed {x : String × List UInt8} (h : x ∈ (respond bridge mp C outputTopics clock payload s).1) :
    x.1 ∈ outputTopics := by
  unfold respond at h
  split at h
  · cases h
  · obtain ⟨record, hmem, -⟩ := mem_payloadsOf h
    exact (mem_payloads hmem).1

/-- A payload that carries a portable record. -/
def Carries (mp : MessagePack F) (payload : List UInt8) (record : Record F) : Prop :=
  mp.unpackb payload = .ok record.toValue ∧ record.Portable

/-- It is read back as the record. -/
theorem Carries.read {record : Record F} (h : Carries mp payload record) :
    deserializeRecord mp payload = .ok record.toValue ∧
      (deserializeRecord mp payload >>= Value.recordOf) = .ok record := by
  have hread : deserializeRecord mp payload = .ok record.toValue := by
    unfold deserializeRecord
    rw [h.1]
    exact if_pos h.2.toValue.2
  refine ⟨hread, ?_⟩
  rw [hread]
  exact Record.recordOf_toValue record

theorem respond_of_carries {record : Record F} (h : Carries mp payload record) :
    respond bridge mp C outputTopics clock payload s =
      (payloadsOf bridge mp (Engine.payloads outputTopics (emitted ((C.process clock record).exec s).1)),
        ((C.process clock record).exec s).2) := by
  unfold respond
  rw [h.read.2]

/-- What is sent of portable records carries them. -/
theorem carries_of_mem_payloadsOf {sends : List (String × Record F)} (hportable : ∀ x ∈ sends, x.2.Portable)
    {x : String × List UInt8} (h : x ∈ payloadsOf bridge mp sends) :
    ∃ record, Carries mp x.2 record := by
  obtain ⟨record, hmem, hpack⟩ := mem_payloadsOf h
  have hrecord : record.Portable := hportable _ hmem
  refine ⟨record.mapValues Value.untuple, ?_, hrecord.mapValues_untuple⟩
  rw [← Record.untuple_toValue]
  exact mp.unpackb_packb hrecord.toValue.1 hpack

end Payloads

/-- **The tie to the engine**: an inline dispatch leaves the attributes that `respond` leaves, and makes the sends whose
    payloads `respond` has; if one of them is refused, no more after it. -/
theorem respond_processInline {bridge : BridgeProducer} {mp : MessagePack F} {e : Engine F σ} {oid : String} {op : Nat}
    {d : Delivery F} {payload : List UInt8} {accepts : Nat → Bool} (hcarries : Carries mp payload d.record) :
    let sent := Engine.payloads (e.outputRoutes.getD oid [])
      (emitted (((e.heap op).cls.process d.clock d.record).exec (e.heap op).state).1)
    let answered := respond bridge mp (e.heap op).cls (e.outputRoutes.getD oid []) d.clock payload (e.heap op).state
    answered.1 = payloadsOf bridge mp sent ∧
      ((e.processInline accepts oid op d).heap op).state = answered.2 ∧
      (∃ made, made <+: sent ∧ (e.processInline accepts oid op d).sends = e.sends ++ made) ∧
      ((∀ n, accepts n = true) → (e.processInline accepts oid op d).sends = e.sends ++ sent) := by
  intro sent answered
  have hanswered : answered = (payloadsOf bridge mp sent,
      (((e.heap op).cls.process d.clock d.record).exec (e.heap op).state).2) := respond_of_carries hcarries
  have hsends : (e.processInline accepts oid op d).sends = (Engine.sendAll accepts sent e.sends).1 := by
    unfold Engine.processInline
    dsimp only
    rw [Engine.sends_conclude]
  rw [hanswered, hsends]
  refine ⟨rfl, ?_, Engine.sendAll_prefix sent e.sends, fun haccepts => ?_⟩
  · unfold Engine.processInline
    dsimp only
    rw [Engine.heap_conclude]
    simp
  · rw [Engine.sendAll_accepted haccepts]

/-! ## Operators on nodes

Each node registers the operators that are placed on it, with an engine of its own. The consume loops of all nodes
together are the loops of one network over the topics, which is how results about networks come to be about
engines. -/

/-- A call of `register_operator`. -/
structure Registered (ω : Type) where
  op           : ω
  inputTopics  : List String
  outputTopics : List String

/-- `_topic_bindings` of a topic after the calls: each operator as often as it lists the topic. -/
def boundTo (entries : List (Registered ω)) (topic : String) : List ω :=
  entries.flatMap (fun e => List.replicate (e.inputTopics.count topic) e.op)

/-- `_output_routes` after the calls: those of the last one. -/
def routesOf [DecidableEq ω] (entries : List (Registered ω)) (o : ω) : List String :=
  entries.foldl (fun topics e => if e.op = o then e.outputTopics else topics) []

/-- The calls made on one node. -/
def onNode (entries : List (Registered ω)) (node : ω → String) (name : String) : List (Registered ω) :=
  entries.filter (fun e => node e.op = name)

/-- The consumers: on each node one for each topic with operators there. Topics no operator writes are written from
    outside. -/
def consumers (entries : List (Registered ω)) (partitions : String → Nat) (node : ω → String) :
    Dataflow.Network (String × String) String ω where
  reads i        := i.2
  bound i        := boundTo (onNode entries node i.1) i.2
  external topic := entries.all (fun e => topic ∉ e.outputTopics)
  partitions     := partitions

theorem external_of_unwritten {entries : List (Registered ω)} (partitions : String → Nat) (node : ω → String)
    {t : String} (h : ∀ e ∈ entries, t ∉ e.outputTopics) : (consumers entries partitions node).external t = true :=
  List.all_eq_true.mpr fun e he => decide_eq_true (h e he)

/-- The operators, with the output topics they have been registered with. -/
def operators [DecidableEq ω] {σ : ω → Type} (bridge : BridgeProducer) (mp : MessagePack F)
    (cls : (o : ω) → BaseOperator F (σ o)) (entries : List (Registered ω)) :
    Dataflow.Operators String ω σ (Clock F) (List UInt8) where
  routes             := routesOf entries
  handle o clock m s := respond bridge mp (cls o) (routesOf entries o) clock m s
  readable m         := (deserializeRecord mp m).isOk
  routed             := respond_routed

omit [PyRuntime F] in
/-- **The tie to the engine**: registering operators one after the other binds what `boundTo` says. -/
theorem bindings_registerAll (entries : List (Registered Nat)) (e : Engine F σ) (topic : String) :
    (entries.foldl (fun e x => e.registerOperator x.op x.inputTopics x.outputTopics) e).bindings topic =
      e.bindings topic ++ (boundTo entries topic).map (fun op => e.operatorIdOf op) := by
  induction entries generalizing e with
  | nil => simp [boundTo]
  | cons x entries ih =>
      obtain ⟨e₂, hheap, -, -, -, -, heq⟩ := Engine.registerOperator_eq e x.op x.inputTopics x.outputTopics
      have hids : ∀ op, (e.registerOperator x.op x.inputTopics x.outputTopics).operatorIdOf op =
          e.operatorIdOf op := by
        intro op
        rw [heq]
        unfold Engine.operatorIdOf
        split
        · exact congrArg (fun heap => (heap op).cls.operatorId (heap op).state) hheap
        · rw [hheap]
      rw [List.foldl_cons, ih, Engine.bindings_registerOperator]
      simp only [hids, boundTo, List.flatMap_cons, List.map_append, List.map_replicate, List.append_assoc]

end Hea
end HybridStream
