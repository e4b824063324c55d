import DataLineage.Graph.Memory

/-!
# Which edges a graph lists

A graph lists the edges at a side of a vertex in the order in which they were added. This module
says which list of edges a graph holds, apart from the two tables that it keeps of them:

* `listed es side vertex label` -- the edges of a list that lie at a side of a vertex and have a
  label, in the order of the list;
* `GraphAccess.Shows g es` -- the access `g` answers exactly these lists, every edge of `es` can
  be identified, and the targets of `es` are at most `g.order` many;
* `MemoryGraph.Built` -- a graph made by adding vertices and edges;
* `MemoryGraph.Built.shows` -- a graph that was built shows the edges that were added to it, each
  once on either side. Both tables are read off one list, so neither can lose an edge.
-/

namespace DataLineage

/-! ## 1. Keys of values -/

/-- Has the value the key? -/
def Value.hasKey (v : Value) (k : Key) : Bool :=
  match v with
  | .scalar s => s.key == k
  | _ => false

theorem Value.hasKey_iff (v : Value) (k : Key) : v.hasKey k = true ↔ v.key = .ok k := by
  cases v <;> simp [hasKey, key]

/-- A value is the same as another one when it has its key. -/
theorem Value.same_eq_hasKey {v other : Value} {k : Key} (h : other.key = .ok k) :
    v.same other = v.hasKey k := by
  obtain ⟨s, rfl, rfl⟩ := (Value.key_eq_ok_iff _ _).mp h
  cases v <;> rfl

theorem Value.same_iff_key (v : Value) (s : Scalar) :
    v.same (.scalar s) = true ↔ v.key = .ok s.key := by
  rw [same_eq_hasKey (k := s.key) rfl, hasKey_iff]

/-- Only what is not a number has its key. -/
theorem Scalar.key_eq_nan_iff (s : Scalar) : s.key = .nan ↔ s = .float .nan := by
  cases s with
  | float x => cases x <;> simp [Scalar.key, Double.key]
  | _ => simp [Scalar.key]

/-- Only null has the key of null. -/
theorem Scalar.key_eq_null_iff (s : Scalar) : s.key = .null ↔ s = .null := by
  cases s with
  | float x => cases x <;> simp [Scalar.key, Double.key]
  | _ => simp [Scalar.key]

/-- **What a scalar is equal to depends on its key alone.** -/
theorem Value.equal_scalar (s : Scalar) (w : Value) :
    (Value.scalar s).equal w = (!(s.key == .nan) && w.hasKey s.key) := by
  have hsame : (Value.scalar s).same w = w.hasKey s.key := by
    cases w <;> simp [same, hasKey, Bool.beq_comm (a := s.key)]
  by_cases hs : s = .float .nan
  · subst hs
    rfl
  · have hk : (s.key == Key.nan) = false :=
      beq_eq_false_iff_ne.mpr fun h => hs ((Scalar.key_eq_nan_iff s).mp h)
    rw [hk, ← hsame]
    unfold equal
    split
    · rename_i h
      exact absurd (Value.scalar.inj h) hs
    · rfl

theorem Value.equal_congr {v v' : Value} {k : Key} (hv : v.key = .ok k) (hv' : v'.key = .ok k)
    (w : Value) : v.equal w = v'.equal w := by
  obtain ⟨s, rfl, hs⟩ := (key_eq_ok_iff v k).mp hv
  obtain ⟨s', rfl, hs'⟩ := (key_eq_ok_iff v' k).mp hv'
  rw [equal_scalar, equal_scalar, hs, hs']

theorem Edge.keys_eq_ok_iff (e : Edge) (k : EdgeKeys) :
    e.keys = .ok k ↔
      e.label.key = .ok k.label ∧ e.source.id.key = .ok k.source ∧ e.target.id.key = .ok k.target := by
  simp only [Edge.keys, Outcome.bind_eq_ok, pure, Except.pure, Except.ok.injEq]
  constructor
  · intro h
    obtain ⟨l, hl, s, hs, t, ht, rfl⟩ := h
    exact ⟨hl, hs, ht⟩
  · intro h
    obtain ⟨hl, hs, ht⟩ := h
    exact ⟨_, hl, _, hs, _, ht, rfl⟩

theorem EdgeKeys.endAt_key {e : Edge} {k : EdgeKeys} (h : e.keys = .ok k) (side : Side) :
    (e.endAt side).id.key = .ok (k.endAt side) := by
  obtain ⟨_, hs, ht⟩ := (Edge.keys_eq_ok_iff e k).mp h
  cases side with
  | incoming => exact ht
  | outgoing => exact hs

/-! ## 2. The edges at a vertex -/

/-- Does the edge lie at the side of the vertex, and has it the label? -/
def Edge.liesAt (e : Edge) (side : Side) (vertex label : Key) : Bool :=
  (e.endAt side).id.hasKey vertex && e.label.hasKey label

theorem Edge.liesAt_iff (e : Edge) (side : Side) (vertex label : Key) :
    e.liesAt side vertex label = true ↔
      (e.endAt side).id.key = .ok vertex ∧ e.label.key = .ok label := by
  simp [liesAt, Value.hasKey_iff]

/-- **The edges of a list that lie at a side of a vertex and have a label.** -/
def listed (es : List Edge) (side : Side) (vertex label : Key) : List Edge :=
  es.filter fun e => e.liesAt side vertex label

theorem mem_listed {es : List Edge} {side : Side} {vertex label : Key} {e : Edge} :
    e ∈ listed es side vertex label ↔
      e ∈ es ∧ (e.endAt side).id.key = .ok vertex ∧ e.label.key = .ok label := by
  rw [listed, List.mem_filter, Edge.liesAt_iff]

/-- An edge added last is listed last, at its two ends and nowhere else. -/
theorem listed_concat {es : List Edge} {e : Edge} {k : EdgeKeys} (h : e.keys = .ok k) (side : Side)
    (vertex label : Key) :
    listed (es ++ [e]) side vertex label =
      listed es side vertex label ++ if k.endAt side = vertex ∧ k.label = label then [e] else [] := by
  have hl : e.label.key = .ok k.label := ((Edge.keys_eq_ok_iff e k).mp h).1
  have hc : (e.liesAt side vertex label = true) ↔ (k.endAt side = vertex ∧ k.label = label) := by
    rw [Edge.liesAt_iff, EdgeKeys.endAt_key h side, hl, Except.ok.injEq, Except.ok.injEq]
  rw [listed, listed, List.filter_append]
  congr 1
  by_cases hm : k.endAt side = vertex ∧ k.label = label
  · rw [if_pos hm]
    exact List.filter_cons_of_pos (hc.mpr hm)
  · rw [if_neg hm]
    exact List.filter_cons_of_neg fun ht => hm (hc.mp ht)

/-- **The access answers the lists of `es`**, and its order bounds the targets. -/
structure GraphAccess.Shows (g : GraphAccess Outcome) (es : List Edge) : Prop where
  edges : ∀ (v : Vertex) (side : Side) (label : Value),
    g.edges v side label = do return listed es side (← v.id.key) (← label.key)
  keyed : ∀ e ∈ es, ∃ k, e.keys = .ok k
  bounded : ∃ ks : List Key, ks.length ≤ g.order ∧
    ∀ e ∈ es, ∀ k, e.target.id.key = .ok k → k ∈ ks

/-- What is listed for a vertex and a label that can be identified. -/
theorem GraphAccess.Shows.edges_eq {g : GraphAccess Outcome} {es : List Edge} (h : g.Shows es)
    {v : Vertex} {label : Value} {vk lk : Key} (hv : v.id.key = .ok vk) (hl : label.key = .ok lk)
    (side : Side) : g.edges v side label = .ok (listed es side vk lk) := by
  rw [h.edges, hv, hl]
  rfl

theorem GraphAccess.Shows.end_key {g : GraphAccess Outcome} {es : List Edge} (h : g.Shows es)
    {e : Edge} (he : e ∈ es) (side : Side) : ∃ k, (e.endAt side).id.key = .ok k := by
  obtain ⟨k, hk⟩ := h.keyed e he
  exact ⟨_, EdgeKeys.endAt_key hk side⟩

/-! ## 3. Graphs that were built -/

namespace MemoryGraph

/-- **A graph made by adding vertices and edges**, in any order. What is refused leaves the graph
as it was. -/
inductive Built : MemoryGraph → Prop where
  | empty : Built .empty
  | vertex {g g' : MemoryGraph} {id typeName : Value} {properties : Record} {v : Vertex}
      (h : Built g) (ha : g.addVertex id typeName properties = .ok (v, g')) : Built g'
  | edge {g g' : MemoryGraph} {label source target relationshipId : Value} {properties : Record}
      {e : Edge} (h : Built g)
      (ha : g.addEdge label source target relationshipId properties = .ok (e, g')) : Built g'

/-- The invariant of a graph that was built: its index lists the added edges, and every vertex is
kept under its own key. -/
structure Indexed (g : MemoryGraph) : Prop where
  edges : ∀ side vertex label,
    g.index.edges side vertex label = listed g.added.toList side vertex label
  keyed : ∀ e ∈ g.added.toList, ∃ k, e.keys = .ok k ∧ k.source ∈ g.vertices ∧ k.target ∈ g.vertices
  stored : ∀ (k : Key) (v : Vertex), g.vertices[k]? = some v → v.id.key = .ok k

/-- The vertex that an edge ends at is the one of the graph. -/
theorem endpoint_ok {g : MemoryGraph} {id : Value} {k : Key} {v : Vertex}
    (h : g.endpoint id = .ok (k, v)) : id.key = .ok k ∧ g.vertices[k]? = some v := by
  obtain ⟨k', hk, h⟩ := Outcome.bind_eq_ok.mp h
  cases hv : g.vertices[k']? with
  | none => simp only [hv] at h; cases h
  | some v' =>
      simp only [hv] at h
      cases h
      exact ⟨hk, hv⟩

/-- **What adding an edge does**: its ends are the vertices of the graph, and it comes last. -/
theorem addEdge_ok {g g' : MemoryGraph} {label source target relationshipId : Value}
    {properties : Record} {e : Edge}
    (h : g.addEdge label source target relationshipId properties = .ok (e, g')) :
    ∃ k : EdgeKeys, label.key = .ok k.label ∧ source.key = .ok k.source ∧
      target.key = .ok k.target ∧ g.vertices[k.source]? = some e.source ∧
      g.vertices[k.target]? = some e.target ∧ e.label = label ∧
      e.relationshipId = relationshipId ∧
      g' = { g with index := g.index.add k e, added := g.added.push e } := by
  obtain ⟨_, _, h⟩ := Outcome.bind_eq_ok.mp h
  obtain ⟨⟨sk, s⟩, hs, h⟩ := Outcome.bind_eq_ok.mp h
  obtain ⟨⟨tk, t⟩, ht, h⟩ := Outcome.bind_eq_ok.mp h
  obtain ⟨lk, hl, h⟩ := Outcome.bind_eq_ok.mp h
  obtain ⟨hsk, hsv⟩ := endpoint_ok hs
  obtain ⟨htk, htv⟩ := endpoint_ok ht
  cases h
  exact ⟨⟨lk, sk, tk⟩, hl, hsk, htk, hsv, htv, rfl, rfl, rfl⟩

theorem Indexed.empty : Indexed .empty where
  edges side vertex label := EdgeIndex.edges_empty side vertex label
  keyed _ he := absurd he List.not_mem_nil
  stored k v h := by simp [MemoryGraph.empty] at h

theorem Indexed.addVertex {g g' : MemoryGraph} {id typeName : Value} {properties : Record}
    {v : Vertex} (hI : g.Indexed) (h : g.addVertex id typeName properties = .ok (v, g')) :
    g'.Indexed := by
  obtain ⟨key, hk, rfl, rfl⟩ := addVertex_vertices h
  refine ⟨hI.edges, fun e he => ?_, fun k w hw => ?_⟩
  · obtain ⟨k, hek, hs, ht⟩ := hI.keyed e he
    exact ⟨k, hek, Std.HashMap.mem_insert.mpr (.inr hs), Std.HashMap.mem_insert.mpr (.inr ht)⟩
  · rw [Std.HashMap.getElem?_insert] at hw
    split at hw
    · rename_i hkk
      cases hw
      rw [beq_iff_eq] at hkk
      exact hkk ▸ hk
    · exact hI.stored k w hw

theorem Indexed.addEdge {g g' : MemoryGraph} {label source target relationshipId : Value}
    {properties : Record} {e : Edge} (hI : g.Indexed)
    (h : g.addEdge label source target relationshipId properties = .ok (e, g')) : g'.Indexed := by
  obtain ⟨k, hl, _, _, hs, ht, rfl, _, rfl⟩ := addEdge_ok h
  have hk : e.keys = .ok k :=
    (Edge.keys_eq_ok_iff e k).mpr ⟨hl, hI.stored _ _ hs, hI.stored _ _ ht⟩
  refine ⟨fun side vertex label => ?_, fun x hx => ?_, hI.stored⟩
  · rw [EdgeIndex.edges_add, hI.edges, Array.toList_push, listed_concat hk]
  · rw [Array.toList_push, List.mem_append, List.mem_singleton] at hx
    rcases hx with hx | rfl
    · exact hI.keyed x hx
    · exact ⟨k, hk, Std.HashMap.mem_iff_isSome_getElem?.mpr (hs ▸ rfl),
        Std.HashMap.mem_iff_isSome_getElem?.mpr (ht ▸ rfl)⟩

/-- **Every graph that was built keeps its tables in step.** -/
theorem Built.indexed {g : MemoryGraph} (h : g.Built) : g.Indexed := by
  induction h with
  | empty => exact .empty
  | vertex _ ha ih => exact ih.addVertex ha
  | edge _ ha ih => exact ih.addEdge ha

/-- The vertices of a graph are at most as many as its order. -/
theorem Indexed.shows {g : MemoryGraph} (h : g.Indexed)
    (answer : Script → Outcome (List Edge)) : (g.accessWith answer).Shows g.added.toList where
  edges v side label := by
    simp only [accessWith, MemoryGraph.edges, h.edges]
  keyed e he := by
    obtain ⟨k, hk, _⟩ := h.keyed e he
    exact ⟨k, hk⟩
  bounded := by
    refine ⟨g.vertices.keys, Nat.le_of_eq Std.HashMap.length_keys, fun e he k hk => ?_⟩
    obtain ⟨k', hk', _, ht⟩ := h.keyed e he
    have hkk : e.target.id.key = .ok k'.target := EdgeKeys.endAt_key hk' .incoming
    rw [hk] at hkk
    cases hkk
    exact Std.HashMap.mem_keys.mpr ht

/-- **A graph that was built shows the edges that were added to it.** -/
theorem Built.shows {g : MemoryGraph} (h : g.Built) (answer : Script → Outcome (List Edge)) :
    (g.accessWith answer).Shows g.added.toList :=
  h.indexed.shows answer

end MemoryGraph

end DataLineage
