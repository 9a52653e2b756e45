import HybridStream.Hea.Engine

/-!
# `Hea.Correctness.InlineRun` — an inline operator runs over the records of its topic

Every record of a topic goes to every operator bound to it, without a look at what is in the record. An operator that
is bound once, and processes inline, therefore runs over the whole topic: its attributes after any records are those
of its class after the same records (`heap_consumeAll`), whoever else is bound to the topic.
-/

namespace HybridStream
namespace Hea
namespace Engine

open Lib Py

variable {F σ : Type} {accepts : Nat → Bool} {e e' : Engine F σ} {topic oid : String} {op : Nat}

/-- The object at `op` is registered as `oid`, processes inline, and is bound to the topic once. -/
structure InlineOn (e : Engine F σ) (topic oid : String) (op : Nat) : Prop where
  registered : e.operators.get oid = some op
  inline     : (e.heap op).cpuBound = false
  once       : (e.bindings topic).count oid = 1
  sole       : ∀ oid' ∈ e.bindings topic, e.operators.get oid' = some op → oid' = oid

/-- Records of a topic, consumed one after the other. -/
def consumeAll (accepts : Nat → Bool) (e : Engine F σ) (ds : List (Delivery F)) : Engine F σ :=
  ds.foldl (fun e d => (e.consume accepts d).1) e

/-- The object after it has processed a record. -/
def afterRecord (obj : OperatorObject F σ) (d : Delivery F) : OperatorObject F σ :=
  { obj with state := ((obj.cls.process d.clock d.record).exec obj.state).2 }

theorem InlineOn.of_sameRegistry (h : e.InlineOn topic oid op) (hsame : SameRegistry e e') :
    e'.InlineOn topic oid op where
  registered := by rw [hsame.operators]; exact h.registered
  inline     := by rw [hsame.cpuBound]; exact h.inline
  once       := by
    unfold Engine.bindings
    rw [hsame.topicBindings]
    exact h.once
  sole       := by
    unfold Engine.bindings
    rw [hsame.topicBindings, hsame.operators]
    exact h.sole

/-- A registration leaves the operator objects alone. -/
theorem heap_registerOperator (e : Engine F σ) (op : Nat) (inputTopics outputTopics : List String) :
    (e.registerOperator op inputTopics outputTopics).heap = e.heap := by
  obtain ⟨e₂, hheap, -, -, -, -, heq⟩ := registerOperator_eq e op inputTopics outputTopics
  rw [heq, ← hheap]
  split
  · rfl
  · rfl

/-! ## One record

A dispatch to another operator leaves the object alone; a dispatch to this one leaves it as its class does. Over the
bindings of the topic, in which it is listed once, that is one call of its `process`. -/

/-- Inline, an operator's process changes its own object only. -/
theorem heap_processInline_of_ne {op' : Nat} (h : op ≠ op') (d : Delivery F) :
    (e.processInline accepts oid op' d).heap op = e.heap op := by
  unfold processInline
  dsimp only
  rw [heap_conclude]
  exact Function.update_of_ne h _ _

/-- What does not make the operator process a record leaves its object alone. -/
theorem heap_dispatch_of_ne (h : e.operators.get oid ≠ some op ∨ (e.heap op).cpuBound = true) (d : Delivery F) :
    (e.dispatch accepts oid d).1.heap op = e.heap op := by
  unfold dispatch
  split
  · rfl
  · rename_i op' hop
    split
    · -- the CPU path queues the record
      split <;> rfl
    · rename_i hcpu
      refine heap_processInline_of_ne ?_ d
      -- the inline path runs the object that is registered
      rintro rfl
      rcases h with h | h
      · exact h hop
      · exact hcpu h

/-- A dispatch to the operator makes the object process the record. -/
theorem heap_dispatch_self (hop : e.operators.get oid = some op) (hcpu : (e.heap op).cpuBound = false)
    (d : Delivery F) : (e.dispatch accepts oid d).1.heap op = afterRecord (e.heap op) d := by
  have hinline : (e.dispatch accepts oid d).1 = e.processInline accepts oid op d := by
    unfold dispatch
    rw [hop]
    dsimp only
    rw [hcpu]
    rfl
  rw [hinline]
  unfold processInline
  dsimp only
  rw [heap_conclude]
  exact Function.update_self _ _ _

/-- Dispatches to other operators leave the object alone. -/
theorem heap_dispatchAll_of_ne (d : Delivery F) {oids : List String}
    (hother : ∀ oid' ∈ oids, e.operators.get oid' ≠ some op) :
    (dispatchAll accepts d oids e).1.heap op = e.heap op := by
  induction oids generalizing e with
  | nil => rfl
  | cons oid' oids ih =>
      have hhead : (e.dispatch accepts oid' d).1.heap op = e.heap op :=
        heap_dispatch_of_ne (Or.inl (hother oid' List.mem_cons_self)) d
      have hsame : e.SameRegistry (e.dispatch accepts oid' d).1 := .dispatch d
      unfold dispatchAll
      dsimp only
      rw [ih, hhead]
      intro oid'' hmem
      rw [hsame.operators]
      exact hother oid'' (List.mem_cons_of_mem oid' hmem)

theorem dispatchAll_append (d : Delivery F) (oids oids' : List String) (e : Engine F σ) :
    (dispatchAll accepts d (oids ++ oids') e).1 =
      (dispatchAll accepts d oids' (dispatchAll accepts d oids e).1).1 := by
  induction oids generalizing e with
  | nil => rfl
  | cons oid oids ih => exact ih _

/-- **One record of the topic** is processed once. -/
theorem heap_consume (h : e.InlineOn topic oid op) {d : Delivery F} (hd : d.origin.topic = topic) :
    (e.consume accepts d).1.heap op = afterRecord (e.heap op) d := by
  have hmem : oid ∈ e.bindings topic := List.count_pos_iff.mp (by rw [h.once]; exact Nat.one_pos)
  obtain ⟨before, rest, hsplit⟩ := List.append_of_mem hmem
  -- the one place of the id in the bindings
  have hcount := h.once
  rw [hsplit, List.count_append, List.count_cons_self] at hcount
  have hother : ∀ oids : List String, oids.count oid = 0 → (∀ oid' ∈ oids, oid' ∈ e.bindings topic) →
      ∀ oid' ∈ oids, e.operators.get oid' ≠ some op := by
    intro oids hzero hsub oid' hin hget
    rw [h.sole oid' (hsub oid' hin) hget] at hin
    exact List.count_eq_zero.mp hzero hin
  have hbefore := hother before (by omega) fun oid' hin => by rw [hsplit]; exact List.mem_append_left _ hin
  have hrest := hother rest (by omega) fun oid' hin => by
    rw [hsplit]
    exact List.mem_append_right _ (List.mem_cons_of_mem _ hin)
  unfold consume
  rw [hd, hsplit, dispatchAll_append]
  have hsame : e.SameRegistry (dispatchAll accepts d before e).1 := .dispatchAll d before e
  have hheap : (dispatchAll accepts d before e).1.heap op = e.heap op := heap_dispatchAll_of_ne d hbefore
  generalize (dispatchAll accepts d before e).1 = e₁ at hsame hheap
  have hop₁ : e₁.operators.get oid = some op := by rw [hsame.operators]; exact h.registered
  have hcpu₁ : (e₁.heap op).cpuBound = false := by rw [hheap]; exact h.inline
  have hsame₂ : e₁.SameRegistry (e₁.dispatch accepts oid d).1 := .dispatch d
  show (dispatchAll accepts d rest (e₁.dispatch accepts oid d).1).1.heap op = _
  rw [heap_dispatchAll_of_ne d, heap_dispatch_self hop₁ hcpu₁, hheap]
  intro oid' hin
  rw [hsame₂.operators, hsame.operators]
  exact hrest oid' hin

/-! ## All records

Record by record, so that what is known of the class over a stream is known of the object in the engine. -/

theorem InlineOn.consume (h : e.InlineOn topic oid op) (d : Delivery F) :
    (e.consume accepts d).1.InlineOn topic oid op := h.of_sameRegistry (.dispatchAll d _ e)

/-- **Records of the topic** leave the object as its class leaves it. -/
theorem heap_consumeAll (h : e.InlineOn topic oid op) {ds : List (Delivery F)}
    (hds : ∀ d ∈ ds, d.origin.topic = topic) :
    (e.consumeAll accepts ds).heap op = ds.foldl afterRecord (e.heap op) := by
  induction ds generalizing e with
  | nil => rfl
  | cons d ds ih =>
      show ((e.consume accepts d).1.consumeAll accepts ds).heap op = _
      rw [ih (h.consume d) fun d' hd' => hds d' (List.mem_cons_of_mem d hd'), heap_consume h (hds d List.mem_cons_self),
        List.foldl_cons]

/-- What records make of an object are the attributes its class leaves. -/
theorem foldl_afterRecord (obj : OperatorObject F σ) (ds : List (Delivery F)) :
    ds.foldl afterRecord obj =
      { obj with state := ds.foldl (fun s d => ((obj.cls.process d.clock d.record).exec s).2) obj.state } := by
  induction ds generalizing obj with
  | nil => rfl
  | cons d ds ih => exact ih (afterRecord obj d)

end Engine
end Hea
end HybridStream
