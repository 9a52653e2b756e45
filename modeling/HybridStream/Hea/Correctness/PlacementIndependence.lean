import HybridStream.Hea.Bridge
import HybridStream.Lib.Determinacy

/-!
# `Hea.Correctness.PlacementIndependence` — what a pipeline computes does not depend on where it runs

The operators of a pipeline are distributed over nodes, and the consumers of the nodes run interleaved. A set of
topics is regular if the operators that write one of them all read one topic of the set and nothing else. Let these
operators be steady (on the records expected there they do not look at the clock, and what they put out is portable),
let the writers of a topic be kept on one node, let what comes from outside be as expected, and let no send to a topic
of the set be refused (`deployment`).

A topic with one writer then carries what the writer makes of the records of its input topic in the order in which its
consumer has got them (`topic_of_single`). That order keeps the order of each partition, and with more than one
partition it depends on the run. Where the topics that are read have one partition each, it does not, and the topics of
the set carry the same, once the consumers have caught up, on every placement and under every schedule
(`placement_independent`).
-/

namespace HybridStream
namespace Hea

open Lib Py Dataflow

variable {F ω : Type} [PyRuntime F] [DecidableEq ω] {σ : ω → Type} {bridge : BridgeProducer} {mp : MessagePack F}
  {cls : (o : ω) → BaseOperator F (σ o)} {entries : List (Registered ω)} {partitions partitions' : String → Nat}
  {node node' : ω → String} {D : Set String}
  {expected : String → Record F → Prop} {inv : (o : ω) → σ o → Prop} {clock₀ : Clock F} {l : (o : ω) → σ o}

/-- On the expected records the clock does not matter, and what is put out is portable. -/
structure Steady {σ : Type} (C : BaseOperator F σ) (clock₀ : Clock F) (expected : Record F → Prop) (inv : σ → Prop) :
    Prop where
  timeless : ∀ clock record s, expected record → (C.process clock record).exec s = (C.process clock₀ record).exec s
  keeps    : ∀ record s, inv s → inv ((C.process clock₀ record).exec s).2
  portable : ∀ record s, record.Portable → inv s →
    ∀ out ∈ emitted ((C.process clock₀ record).exec s).1, out.Portable

/-- The writers of a topic of `D` all read one topic of `D` and nothing else. Something is asked of the records on the
    topics that are written from outside. -/
structure Regular (entries : List (Registered ω)) (D : Set String) (expected : String → Record F → Prop) : Prop where
  distinct : (entries.map Registered.op).Nodup
  inner    : ∀ t ∈ D, ∀ e ∈ entries, t ∈ e.outputTopics → ∃ t' ∈ D, e.inputTopics = [t'] ∧
    ∀ e' ∈ entries, t ∈ e'.outputTopics → e'.inputTopics = [t']
  free     : ∀ t ∈ D, ∀ e ∈ entries, t ∈ e.outputTopics → ∀ record, expected t record

/-- A placement that keeps the writers of a topic together. -/
def Colocates (entries : List (Registered ω)) (D : Set String) (node : ω → String) : Prop :=
  ∀ t ∈ D, ∀ e ∈ entries, ∀ e' ∈ entries, t ∈ e.outputTopics → t ∈ e'.outputTopics → node e.op = node e'.op

/-- The writers of the topics of `D` are steady. -/
def AllSteady (cls : (o : ω) → BaseOperator F (σ o)) (entries : List (Registered ω)) (D : Set String)
    (expected : String → Record F → Prop) (inv : (o : ω) → σ o → Prop) (clock₀ : Clock F) : Prop :=
  ∀ t ∈ D, ∀ e ∈ entries, t ∈ e.outputTopics → ∀ t', e.inputTopics = [t'] →
    Steady (cls e.op) clock₀ (expected t') (inv e.op)

/-- The consumer whose operators write a topic. -/
def sourceOf (entries : List (Registered ω)) (node : ω → String) (t : String) : Option (String × String) :=
  (entries.find? (fun e => t ∈ e.outputTopics)).bind (fun e => e.inputTopics.head?.map (fun t' => (node e.op, t')))

/-- What a payload has to carry, and what the attributes have to keep. -/
def contract (mp : MessagePack F) (expected : String → Record F → Prop) (inv : (o : ω) → σ o → Prop) :
    Contract String ω σ (List UInt8) where
  clean t payload := ∃ record, Carries mp payload record ∧ expected t record
  inv             := inv

/-! ## The operators and their topics

From the registrations of the nodes to the data of a network: which consumer the writers of a topic are bound to, and
that the topics in question are determined in the sense of the library. -/

omit [DecidableEq ω] in
theorem mem_boundTo {t : String} {o : ω} (h : o ∈ boundTo entries t) :
    ∃ e ∈ entries, e.op = o ∧ t ∈ e.inputTopics := by
  obtain ⟨e, he, ho⟩ := List.mem_flatMap.mp h
  obtain ⟨hcount, rfl⟩ := List.mem_replicate.mp ho
  exact ⟨e, he, rfl, List.count_pos_iff.mp (Nat.pos_of_ne_zero hcount)⟩

/-- The registrations of other operators. -/
theorem foldl_routes {o : ω} (es : List (Registered ω)) (topics : List String) (h : o ∉ es.map Registered.op) :
    es.foldl (fun topics e => if e.op = o then e.outputTopics else topics) topics = topics := by
  induction es generalizing topics with
  | nil => rfl
  | cons e es ih =>
      rw [List.map_cons, List.mem_cons, not_or] at h
      rw [List.foldl_cons, if_neg fun heq => h.1 heq.symm]
      exact ih topics h.2

/-- Among distinct operators each has the topics of its own registration. -/
theorem routesOf_eq (hdistinct : (entries.map Registered.op).Nodup) {e : Registered ω} (he : e ∈ entries) :
    routesOf entries e.op = e.outputTopics := by
  obtain ⟨before, after, rfl⟩ := List.append_of_mem he
  rw [List.map_append, List.map_cons, List.nodup_append] at hdistinct
  unfold routesOf
  rw [List.foldl_append, List.foldl_cons, if_pos rfl]
  exact foldl_routes after _ (List.nodup_cons.mp hdistinct.2.1).1

/-- A writer of a topic is in its registration. -/
theorem writer_of_mem (hdistinct : (entries.map Registered.op).Nodup) {name t t' : String} {o : ω}
    (hbound : o ∈ boundTo (onNode entries node name) t') (hroutes : t ∈ routesOf entries o) :
    ∃ e ∈ entries, e.op = o ∧ node o = name ∧ t' ∈ e.inputTopics ∧ t ∈ e.outputTopics := by
  obtain ⟨e, he, rfl, ht'⟩ := mem_boundTo hbound
  obtain ⟨hmem, hname⟩ := List.mem_filter.mp he
  rw [routesOf_eq hdistinct hmem] at hroutes
  exact ⟨e, hmem, rfl, of_decide_eq_true hname, ht', hroutes⟩

omit [PyRuntime F] [DecidableEq ω] in
/-- The consumer of the writers of a topic. -/
theorem sourceOf_eq (hregular : Regular entries D expected) (hnode : Colocates entries D node) {t : String}
    (ht : t ∈ D) {e : Registered ω} (he : e ∈ entries) (hwrites : t ∈ e.outputTopics) :
    ∃ t' ∈ D, e.inputTopics = [t'] ∧ sourceOf entries node t = some (node e.op, t') := by
  obtain ⟨t', ht', hinput, hall⟩ := hregular.inner t ht e he hwrites
  refine ⟨t', ht', hinput, ?_⟩
  unfold sourceOf
  cases hfind : entries.find? (fun e => t ∈ e.outputTopics) with
  | none =>
      have hnone := List.find?_eq_none.mp hfind e he
      simp only [decide_eq_true_eq] at hnone
      exact absurd hwrites hnone
  | some e' =>
      have he' := List.mem_of_find?_eq_some hfind
      have hwrites' : t ∈ e'.outputTopics := by simpa using List.find?_some hfind
      simp [hall e' he' hwrites', hnode t ht e' he' e he hwrites' hwrites]

omit [PyRuntime F] [DecidableEq ω] in
theorem writer_of_sourceOf {t : String} {i : String × String} (h : sourceOf entries node t = some i) :
    ∃ e ∈ entries, t ∈ e.outputTopics := by
  obtain ⟨e, hfind, -⟩ := Option.bind_eq_some_iff.mp h
  exact ⟨e, List.mem_of_find?_eq_some hfind, by simpa using List.find?_some hfind⟩

omit [PyRuntime F] [DecidableEq ω] in
/-- A topic without a source has no writers. -/
theorem no_writer (hregular : Regular entries D expected) (hnode : Colocates entries D node) {t : String}
    (ht : t ∈ D) (h : sourceOf entries node t = none) {e : Registered ω} (he : e ∈ entries) : t ∉ e.outputTopics := by
  intro hwrites
  obtain ⟨t', -, -, hsource⟩ := sourceOf_eq hregular hnode ht he hwrites
  rw [h] at hsource
  cases hsource

/-- **The topics of `D` are determined**, on a placement that keeps their writers together. -/
theorem determinate (hregular : Regular entries D expected) (hnode : Colocates entries D node)
    (hsteady : AllSteady cls entries D expected inv clock₀) :
    Determinate (operators bridge mp cls entries) (consumers entries partitions node) (contract mp expected inv) clock₀
      D (sourceOf entries node) where
  -- a topic without a writer among the entries is written to by nobody
  fed := by
    intro t ht hnone i o ho hroutes
    obtain ⟨e, he, -, -, -, hwrites⟩ := writer_of_mem hregular.distinct ho hroutes
    exact no_writer hregular hnode ht hnone he hwrites
  written := by
    intro t ht i hi
    obtain ⟨e, he, hwrites⟩ := writer_of_sourceOf hi
    obtain ⟨t', ht', -, hsource⟩ := sourceOf_eq hregular hnode ht he hwrites
    rw [hsource] at hi
    cases hi
    refine ⟨?_, ht'⟩
    show entries.all (fun e => t ∉ e.outputTopics) = false
    rw [List.all_eq_false]
    exact ⟨e, he, by simpa using hwrites⟩
  -- and the writer of any other topic is the one that the entries name for it
  own := by
    intro t ht i hi j o ho hroutes
    obtain ⟨e, he, rfl, hname, ht', hwrites⟩ := writer_of_mem hregular.distinct ho hroutes
    obtain ⟨t', -, hinput, hsource⟩ := sourceOf_eq hregular hnode ht he hwrites
    rw [hsource] at hi
    cases hi
    rw [hinput, List.mem_singleton] at ht'
    exact Prod.ext hname.symm ht'
  answers := by
    intro t ht i hi o ho hroutes clock payload s hclean hinv
    obtain ⟨e, he, rfl, hname, ht', hwrites⟩ := writer_of_mem hregular.distinct ho hroutes
    obtain ⟨t', -, hinput, hsource⟩ := sourceOf_eq hregular hnode ht he hwrites
    rw [hsource] at hi
    cases hi
    -- the class is steady: it looks at no clock, keeps its invariant, and what it puts out is expected
    obtain ⟨record, hcarries, hexpected⟩ := hclean
    have hclass := hsteady t ht e he hwrites t' hinput
    simp only [operators, respond_of_carries hcarries]
    refine ⟨by rw [hclass.timeless clock record s hexpected], hclass.keeps record s hinv, ?_⟩
    rintro x hx rfl
    have hportable : ∀ x ∈ Engine.payloads (routesOf entries e.op)
        (emitted (((cls e.op).process clock₀ record).exec s).1), x.2.Portable :=
      fun x hx => hclass.portable record s hcarries.2 hinv x.2 (mem_payloads hx).2
    obtain ⟨record', hcarries'⟩ := carries_of_mem_payloadsOf hportable hx
    exact ⟨record', hcarries', hregular.free x.1 ht e he hwrites record'⟩
  readable := by
    rintro t ht payload ⟨record, hcarries, -⟩
    show (deserializeRecord mp payload).isOk = true
    rw [hcarries.read.1]
    rfl

/-! ## Two placements

A placement decides which loop an operator is on and nothing else, so two of them that keep the writers of each topic
together give the same equations. The result is then the one about one set of operators in two networks. -/

/-- An operator that does not write the topic. -/
theorem filter_replicate_of_not {t : String} {o : ω} (h : t ∉ routesOf entries o) (n : Nat) :
    (List.replicate n o).filter (fun o => t ∈ routesOf entries o) = [] := by
  rw [List.filter_eq_nil_iff]
  intro o' ho'
  rw [(List.mem_replicate.mp ho').2]
  simpa using h

/-- The writers of a topic are bound to their consumer in the order of their registrations. -/
theorem writers_bound (hdistinct : (entries.map Registered.op).Nodup) {t t' name : String}
    (hname : ∀ e ∈ entries, t ∈ e.outputTopics → node e.op = name) :
    (boundTo (onNode entries node name) t').filter (fun o => t ∈ routesOf entries o) =
      (boundTo entries t').filter (fun o => t ∈ routesOf entries o) := by
  have hsub : ∀ es : List (Registered ω), (∀ e ∈ es, e ∈ entries) →
      (boundTo (onNode es node name) t').filter (fun o => t ∈ routesOf entries o) =
        (boundTo es t').filter (fun o => t ∈ routesOf entries o) := by
    intro es
    induction es with
    | nil => exact fun _ => rfl
    | cons e es ih =>
        intro hes
        have hrest := ih fun e' he' => hes e' (List.mem_cons_of_mem e he')
        have he := hes e List.mem_cons_self
        unfold boundTo onNode at hrest ⊢
        rw [List.filter_cons, List.flatMap_cons, List.filter_append]
        split
        · rw [List.flatMap_cons, List.filter_append, hrest]
        · -- an operator of another node does not write the topic
          rename_i hother
          have hnot : t ∉ routesOf entries e.op := by
            intro hroutes
            rw [routesOf_eq hdistinct he] at hroutes
            exact hother (decide_eq_true (hname e he hroutes))
          rw [hrest, filter_replicate_of_not hnot, List.nil_append]
  exact hsub entries fun _ he => he

theorem sameEquations (hregular : Regular entries D expected) (hnode : Colocates entries D node)
    (hnode' : Colocates entries D node') :
    SameEquations (operators bridge mp cls entries) (consumers entries partitions node)
      (consumers entries partitions' node') D (sourceOf entries node) (sourceOf entries node') := by
  intro t ht
  constructor
  · have hnone : ∀ {node node' : ω → String}, Colocates entries D node →
        sourceOf entries node t = none → sourceOf entries node' t = none := by
      intro node node' hnode h
      by_contra hsome
      obtain ⟨i, hi⟩ := Option.ne_none_iff_exists'.mp hsome
      obtain ⟨e, he, hwrites⟩ := writer_of_sourceOf hi
      exact no_writer hregular hnode ht h he hwrites
    exact ⟨hnone hnode, hnone hnode'⟩
  · intro i i' hi hi'
    obtain ⟨e, he, hwrites⟩ := writer_of_sourceOf hi
    obtain ⟨t', -, hinput, hsource⟩ := sourceOf_eq hregular hnode ht he hwrites
    obtain ⟨t'', -, hinput', hsource'⟩ := sourceOf_eq hregular hnode' ht he hwrites
    rw [hsource] at hi
    rw [hsource'] at hi'
    cases hi
    cases hi'
    rw [hinput] at hinput'
    cases hinput'
    refine ⟨rfl, ?_⟩
    show (boundTo (onNode entries node (node e.op)) t').filter (fun o => t ∈ routesOf entries o) =
      (boundTo (onNode entries node' (node' e.op)) t').filter (fun o => t ∈ routesOf entries o)
    rw [writers_bound hregular.distinct fun e' he' hwrites' => hnode t ht e' he' e he hwrites' hwrites,
      writers_bound hregular.distinct fun e' he' hwrites' => hnode' t ht e' he' e he hwrites' hwrites]

/-- A deployment of the operators: what it can reach while the records from outside are as expected and no send to a
    topic of `D` is refused. -/
def deployment (bridge : BridgeProducer) (mp : MessagePack F) (cls : (o : ω) → BaseOperator F (σ o))
    (entries : List (Registered ω)) (partitions : String → Nat) (node : ω → String) (l : (o : ω) → σ o)
    (expected : String → Record F → Prop) (inv : (o : ω) → σ o → Prop) (D : Set String) :
    Lts (Dataflow.State (String × String) String ω σ (List UInt8))
      (Dataflow.Event (String × String) String (Clock F) (List UInt8)) :=
  ((consumers entries partitions node).system (operators bridge mp cls entries) l).restrict
    (Faithful (contract mp expected inv) D)

/-- The topics of `D` that are read for other topics of `D` have one partition. -/
def OnePartition (entries : List (Registered ω)) (partitions : String → Nat) (D : Set String) : Prop :=
  ∀ e ∈ entries, ∀ t ∈ D, t ∈ e.outputTopics → ∀ t' ∈ e.inputTopics, partitions t' = 1

omit [PyRuntime F] [DecidableEq ω] in
theorem unsplit (hregular : Regular entries D expected) (hnode : Colocates entries D node)
    (hone : OnePartition entries partitions D) :
    Unsplit (consumers entries partitions node) D (sourceOf entries node) := by
  intro t ht i hi
  obtain ⟨e, he, hwrites⟩ := writer_of_sourceOf hi
  obtain ⟨t', -, hinput, hsource⟩ := sourceOf_eq hregular hnode ht he hwrites
  rw [hsource] at hi
  cases hi
  exact hone e he t ht hwrites t' (by rw [hinput]; exact List.mem_singleton_self t')

/-- **The placement does not matter**: two deployments that were given the same and have caught up have the same on
    every topic of `D`. Both solve the same equations between the topics, in which the placement does not occur. -/
theorem placement_independent (hregular : Regular entries D expected)
    (hsteady : AllSteady cls entries D expected inv clock₀) (hinv : ∀ o, inv o (l o))
    (hone : OnePartition entries partitions D) (hone' : OnePartition entries partitions' D)
    (hnode : Colocates entries D node) (hnode' : Colocates entries D node')
    {s s' : Dataflow.State (String × String) String ω σ (List UInt8)}
    (hs : (deployment bridge mp cls entries partitions node l expected inv D).Reachable s)
    (hquiet : (consumers entries partitions node).Quiescent s)
    (hs' : (deployment bridge mp cls entries partitions' node' l expected inv D).Reachable s')
    (hquiet' : (consumers entries partitions' node').Quiescent s')
    (hfed : ∀ t ∈ D, (∀ e ∈ entries, t ∉ e.outputTopics) → s.written t = s'.written t) :
    ∀ t ∈ D, s.written t = s'.written t :=
  quiescent_unique (determinate hregular hnode hsteady) (determinate hregular hnode' hsteady)
    (unsplit hregular hnode hone) (unsplit hregular hnode' hone') (sameEquations hregular hnode hnode') hinv hs hquiet
    hs' hquiet' fun t ht hnone => hfed t ht fun _ he => no_writer hregular hnode ht hnone he

/-! ## What a topic carries

The stream of a topic spelled out where it has one writer: what the operator answers the payloads of the topic it
reads with, one after the other, from the attributes it starts with. -/

/-- What an operator sends for a list of payloads, one after the other. -/
def served (bridge : BridgeProducer) (mp : MessagePack F) {σ : Type} (C : BaseOperator F σ)
    (outputTopics : List String) (clock : Clock F) : σ → List (List UInt8) → List (String × List UInt8)
  | _, []                  => []
  | s, payload :: payloads =>
      (respond bridge mp C outputTopics clock payload s).1 ++
        served bridge mp C outputTopics clock (respond bridge mp C outputTopics clock payload s).2 payloads

/-- The stream of a topic with one writer, which lists its input topic once. -/
theorem stream_of_single {ι : Type} {N : Network ι String ω} {i : ι} {t : String} {o : ω}
    (hbound : (N.bound i).filter (fun o => t ∈ routesOf entries o) = [o]) (l : (o : ω) → σ o)
    (ms : List (List UInt8)) :
    stream (operators bridge mp cls entries) N clock₀ l i t ms =
      valuesAt t (served bridge mp (cls o) (routesOf entries o) clock₀ (l o) ms) := by
  have hwriter : t ∈ routesOf entries o := by
    have hmem : o ∈ (N.bound i).filter (fun o => t ∈ routesOf entries o) := by
      rw [hbound]
      exact List.mem_singleton_self o
    simpa using (List.mem_filter.mp hmem).2
  unfold stream
  induction ms generalizing l with
  | nil => rfl
  | cons m ms ih =>
      have hfirst : ∀ l, flush (operators bridge mp cls entries) t clock₀ (N.deliveries i m) l =
          (valuesAt t (respond bridge mp (cls o) (routesOf entries o) clock₀ m (l o)).1,
            Function.update l o (respond bridge mp (cls o) (routesOf entries o) clock₀ m (l o)).2) := by
        intro l
        have hbound' : (N.bound i).filter (fun o => t ∈ (operators bridge mp cls entries).routes o) = [o] := hbound
        unfold Network.deliveries
        rw [flush_filter, hbound']
        simp only [List.map_cons, List.map_nil, flush]
        rw [if_pos (show t ∈ (operators bridge mp cls entries).routes o from hwriter), List.append_nil]
        rfl
      rw [List.flatMap_cons, flush_append, hfirst]
      dsimp only
      rw [ih, Function.update_self, served, valuesAt_append]

/-- The only writer of a topic, bound once. -/
theorem writers_of_sole (hdistinct : (entries.map Registered.op).Nodup) {t t' : String} {e : Registered ω}
    (he : e ∈ entries) (hwrites : t ∈ e.outputTopics) (hinput : e.inputTopics = [t'])
    (hsole : ∀ e' ∈ entries, t ∈ e'.outputTopics → e'.op = e.op) :
    (boundTo entries t').filter (fun o => t ∈ routesOf entries o) = [e.op] := by
  have hothers : ∀ es : List (Registered ω), (∀ e' ∈ es, e' ∈ entries) → e.op ∉ es.map Registered.op →
      (boundTo es t').filter (fun o => t ∈ routesOf entries o) = [] := by
    intro es hes hout
    rw [List.filter_eq_nil_iff]
    intro o ho
    obtain ⟨e', he', rfl, -⟩ := mem_boundTo ho
    rw [routesOf_eq hdistinct (hes e' he'), decide_eq_true_eq]
    intro hwrites'
    exact hout (List.mem_map.mpr ⟨e', he', hsole e' (hes e' he') hwrites'⟩)
  have hroutes := routesOf_eq hdistinct he
  obtain ⟨before, after, heq⟩ := List.append_of_mem he
  have hparts := hdistinct
  rw [heq, List.map_append, List.map_cons, List.nodup_append] at hparts
  obtain ⟨-, hafter, hdisjoint⟩ := hparts
  have hbefore := hothers before (fun e' he' => by rw [heq]; exact List.mem_append_left _ he')
    fun hmem => hdisjoint _ hmem _ List.mem_cons_self rfl
  have hafter' := hothers after (fun e' he' => by rw [heq]; exact List.mem_append_right _ (List.mem_cons_of_mem _ he'))
    (List.nodup_cons.mp hafter).1
  have hself : (List.replicate (e.inputTopics.count t') e.op).filter (fun o => t ∈ routesOf entries o) = [e.op] := by
    rw [hinput, List.count_singleton_self, List.replicate_one, List.filter_cons, if_pos]
    · rfl
    · rw [hroutes]
      exact decide_eq_true hwrites
  conv_lhs => rw [heq]
  unfold boundTo at hbefore hafter' ⊢
  rw [List.flatMap_append, List.flatMap_cons, List.filter_append, List.filter_append, ← heq, hbefore, hself, hafter']
  rfl

/-- **What a topic carries**: of what its only writer makes of the records of the topic it reads, in the order in which
    its consumer has got them, a part at any time, and all of it once the consumers have caught up. The consumer gets
    the records of each partition in their order. -/
theorem topic_of_single (hregular : Regular entries D expected)
    (hsteady : AllSteady cls entries D expected inv clock₀) (hinv : ∀ o, inv o (l o))
    (hnode : Colocates entries D node) {s : Dataflow.State (String × String) String ω σ (List UInt8)}
    (hs : (deployment bridge mp cls entries partitions node l expected inv D).Reachable s) {t t' : String} (ht : t ∈ D)
    {e : Registered ω} (he : e ∈ entries) (hwrites : t ∈ e.outputTopics) (hinput : e.inputTopics = [t'])
    (hsole : ∀ e' ∈ entries, t ∈ e'.outputTopics → e'.op = e.op) :
    let made := valuesAt t (served bridge mp (cls e.op) e.outputTopics clock₀ (l e.op) (s.handled (node e.op, t')))
    (s.written t <+: made ∧ ∀ p, valuesAt p (s.taken (node e.op, t')) <+: s.partition t' p) ∧
      ((consumers entries partitions node).Quiescent s →
        s.written t = made ∧ ∀ p, valuesAt p (s.taken (node e.op, t')) = s.partition t' p) ∧
      (partitions t' = 1 → s.handled (node e.op, t') <+: s.written t' ∧
        ((consumers entries partitions node).Quiescent s → s.handled (node e.op, t') = s.written t')) := by
  have hdet : Determinate (operators bridge mp cls entries) (consumers entries partitions node) _ _ D _ :=
    determinate hregular hnode hsteady
  have haccounted := accounted_of_reachable hdet hinv hs
  obtain ⟨t'', ht'', hinput', hsource⟩ := sourceOf_eq hregular hnode ht he hwrites
  rw [hinput] at hinput'
  cases hinput'
  -- the one operator of the topic's consumer on that node that writes to the topic is this one
  have hbound : (boundTo (onNode entries node (node e.op)) t').filter (fun o => t ∈ routesOf entries o) = [e.op] := by
    rw [writers_bound hregular.distinct fun e' he' hwrites' => hnode t ht e' he' e he hwrites' hwrites]
    exact writers_of_sole hregular.distinct he hwrites hinput hsole
  have hruns : (consumers entries partitions node).runs (node e.op, t') = true := by
    apply Network.runs_of_mem (o := e.op)
    have hmem : e.op ∈ [e.op] := List.mem_singleton_self _
    rw [← hbound] at hmem
    exact (List.mem_filter.mp hmem).1
  -- so the stream of the topic is what this operator makes of the messages
  have hstream : ∀ ms, stream (operators bridge mp cls entries) (consumers entries partitions node) clock₀ l
      (node e.op, t') t ms = valuesAt t (served bridge mp (cls e.op) e.outputTopics clock₀ (l e.op) ms) := by
    intro ms
    rw [stream_of_single (N := consumers entries partitions node) (i := (node e.op, t')) hbound,
      routesOf_eq hregular.distinct he]
  intro made
  have hmade : made = stream (operators bridge mp cls entries) (consumers entries partitions node) clock₀ l
      (node e.op, t') t (s.handled (node e.op, t')) := (hstream _).symm
  rw [hmade]
  refine ⟨⟨?_, fun p => haccounted.taken_prefix (i := (node e.op, t')) ht'' p⟩, fun hquiet => ?_, fun hone => ?_⟩
  · exact haccounted.written_prefix_stream ht hsource
  · obtain ⟨hwritten, htaken⟩ := haccounted.written_of_quiescent hquiet ht hsource ht''
    exact ⟨hwritten, htaken hruns⟩
  · exact ⟨haccounted.handled_prefix (i := (node e.op, t')) ht'' hone,
      fun hquiet => haccounted.handled_of_quiescent hquiet hruns ht'' hone⟩

end Hea
end HybridStream
