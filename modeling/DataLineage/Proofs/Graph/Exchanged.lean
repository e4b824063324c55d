import DataLineage.Proofs.Graph.Listing
import DataLineage.Proofs.Lineage.Twin

/-!
# Graphs with exchanged labels

A graph in memory is made by additions, one after the other, where a refused addition leaves the
graph as it was. The same additions with the two labels of lineage exchanged on every edge make a
graph whose edges say the opposite: what a process read it writes, and what it wrote it reads.

* `MemoryGraph.Addition`, `MemoryGraph.made` -- the graph that additions make;
* `EdgeLabels.exchange`, `Addition.exchanged` -- the other of the two labels;
* `MemoryGraph.Exchanges.take`, `MemoryGraph.made_exchanges` -- **one addition, and all of them**:
  the vertices are the same, and the edges are the same but for their labels;
* `Edge.Turned`, `GraphAccess.Turns` -- an edge and a graph that say the opposite;
* `MemoryGraph.made_turns` -- so the second graph is the first one turned.
-/

namespace DataLineage

/-! ## 1. Additions -/

namespace MemoryGraph

/-- One more vertex, or one more edge. -/
inductive Addition where
  | vertex (id typeName : Value) (properties : Record)
  | edge (label source target relationshipId : Value) (properties : Record)
  deriving Repr, Inhabited

/-- The graph after an addition; one that is refused changes nothing. -/
def take (g : MemoryGraph) : Addition → MemoryGraph
  | .vertex id typeName properties =>
    match g.addVertex id typeName properties with
    | .ok (_, g') => g'
    | .error _ => g
  | .edge label source target relationshipId properties =>
    match g.addEdge label source target relationshipId properties with
    | .ok (_, g') => g'
    | .error _ => g

/-- **The graph that additions make**, one after the other. -/
def made (additions : List Addition) : MemoryGraph := additions.foldl take .empty

/-- One more addition to a graph that was built builds a graph. -/
theorem Built.take {g : MemoryGraph} (h : g.Built) (a : Addition) : (g.take a).Built := by
  cases a with
  | vertex id typeName properties =>
      show Built (match g.addVertex id typeName properties with | .ok (_, g') => g' | .error _ => g)
      split
      · rename_i hok
        exact .vertex h hok
      · exact h
  | edge label source target relationshipId properties =>
      show Built (match g.addEdge label source target relationshipId properties with
        | .ok (_, g') => g'
        | .error _ => g)
      split
      · rename_i hok
        exact .edge h hok
      · exact h

/-- **Additions build a graph.** -/
theorem made_built (additions : List Addition) : (made additions).Built := by
  have hfold (g : MemoryGraph) (hg : g.Built) : (additions.foldl MemoryGraph.take g).Built := by
    induction additions generalizing g with
    | nil => exact hg
    | cons a rest ih => exact ih _ (hg.take a)
  exact hfold _ .empty

end MemoryGraph

/-! ## 2. The other label -/

namespace EdgeLabels

/-- The two labels identify two different things, as they are meant to be different texts. -/
structure Distinct (labels : EdgeLabels) (inKey outKey : Key) : Prop where
  inputs : labels.inputs.key = .ok inKey
  outputs : labels.outputs.key = .ok outKey
  differ : inKey ≠ outKey
  number : inKey ≠ .nan

/-- **The other label** for each of the two labels of lineage, and the label itself otherwise. -/
def exchange (labels : EdgeLabels) (label : Value) : Value :=
  if label.same labels.inputs then labels.outputs
  else if label.same labels.outputs then labels.inputs
  else label

variable {labels : EdgeLabels} {inKey outKey : Key}

/-- A label and what it is exchanged for can both be identified, or neither can. -/
theorem Distinct.exchange_key (h : labels.Distinct inKey outKey) (label : Value) :
    Outcome.Alike (fun _ _ => True) label.key (labels.exchange label).key := by
  unfold exchange
  rw [Value.same_eq_hasKey h.inputs, Value.same_eq_hasKey h.outputs]
  split
  · rename_i hin
    rw [(Value.hasKey_iff _ _).mp hin, h.outputs]
    exact .ok trivial
  · split
    · rename_i _ hout
      rw [(Value.hasKey_iff _ _).mp hout, h.inputs]
      exact .ok trivial
    · exact (Outcome.Alike.refl _).imp fun _ _ _ => trivial

/-- **What has the one label has the other one afterwards**, and nothing else has. -/
theorem Distinct.exchange_hasKey (h : labels.Distinct inKey outKey) (label : Value) :
    (labels.exchange label).hasKey outKey = label.hasKey inKey ∧
      (labels.exchange label).hasKey inKey = label.hasKey outKey := by
  have hone {v : Value} {k k' : Key} (hv : v.key = .ok k) : v.hasKey k' = decide (k = k') := by
    rw [Bool.eq_iff_iff, Value.hasKey_iff, hv, Except.ok.injEq, decide_eq_true_eq]
  unfold exchange
  rw [Value.same_eq_hasKey h.inputs, Value.same_eq_hasKey h.outputs]
  split
  · rename_i hin
    rw [hone h.outputs, hone h.outputs, hin, hone ((Value.hasKey_iff _ _).mp hin)]
    simp [h.differ, h.differ.symm]
  · rename_i hin
    split
    · rename_i hout
      rw [hone h.inputs, hone h.inputs, hout, Bool.eq_false_iff.mpr hin]
      simp [h.differ]
    · rename_i hout
      rw [Bool.eq_false_iff.mpr hin, Bool.eq_false_iff.mpr hout]
      exact ⟨rfl, rfl⟩

end EdgeLabels

/-- The edge with the other label. -/
def Edge.exchanged (e : Edge) (labels : EdgeLabels) : Edge :=
  { e with label := labels.exchange e.label }

namespace MemoryGraph

/-- The addition with the other label, if it adds an edge. -/
def Addition.exchanged (labels : EdgeLabels) : Addition → Addition
  | .vertex id typeName properties => .vertex id typeName properties
  | .edge label source target relationshipId properties =>
    .edge (labels.exchange label) source target relationshipId properties

/-- The second graph has the vertices of the first one, and its edges with the other label. -/
structure Exchanges (labels : EdgeLabels) (g g' : MemoryGraph) : Prop where
  vertices : g'.vertices = g.vertices
  added : g'.added.toList = g.added.toList.map (·.exchanged labels)

variable {labels : EdgeLabels} {inKey outKey : Key} {g g' : MemoryGraph}

/-- **An addition is accepted with either label or refused with either**, and edges with the other
label stay so. -/
theorem Exchanges.take (h : Exchanges labels g g') (hl : labels.Distinct inKey outKey)
    (a : Addition) : Exchanges labels (g.take a) (g'.take (a.exchanged labels)) := by
  obtain ⟨vertices, index, added⟩ := g
  obtain ⟨vertices', index', added'⟩ := g'
  obtain ⟨rfl, hadded⟩ := h
  have hadded : added'.toList = added.toList.map (·.exchanged labels) := hadded
  cases a with
  | vertex id typeName properties =>
      unfold Addition.exchanged MemoryGraph.take addVertex
      dsimp only
      cases checkNames reservedOfVertex properties with
      | error e => exact ⟨rfl, hadded⟩
      | ok _ =>
          cases id.key with
          | error e => exact ⟨rfl, hadded⟩
          | ok key => exact ⟨rfl, hadded⟩
  | edge label source target relationshipId properties =>
      unfold Addition.exchanged MemoryGraph.take addEdge
      dsimp only
      cases checkNames reservedOfEdge properties with
      | error e => exact ⟨rfl, hadded⟩
      | ok _ =>
          -- where an edge ends depends on the vertices alone
          have hend (id : Value) : endpoint ⟨vertices', index', added'⟩ id =
            endpoint ⟨vertices', index, added⟩ id := rfl
          simp only [hend, Outcome.ok_bind]
          cases endpoint ⟨vertices', index, added⟩ source with
          | error e => exact ⟨rfl, hadded⟩
          | ok s =>
              simp only [Outcome.ok_bind]
              cases endpoint ⟨vertices', index, added⟩ target with
              | error e => exact ⟨rfl, hadded⟩
              | ok t =>
                  have hkeys := hl.exchange_key label
                  simp only [Outcome.ok_bind]
                  generalize label.key = k, (labels.exchange label).key = k' at hkeys
                  cases hkeys with
                  | error e => exact ⟨rfl, hadded⟩
                  | ok _ =>
                      refine ⟨rfl, ?_⟩
                      simp only [Outcome.ok_bind, pure, Except.pure, Array.toList_push, hadded,
                        List.map_append]
                      rfl

/-- **The same additions with the other labels make the same vertices and edges**, but for the
labels. -/
theorem made_exchanges (hl : labels.Distinct inKey outKey) (additions : List Addition) :
    Exchanges labels (made additions) (made (additions.map (·.exchanged labels))) := by
  have hfold (g g' : MemoryGraph) (h : Exchanges labels g g') :
      Exchanges labels (additions.foldl MemoryGraph.take g)
        ((additions.map (·.exchanged labels)).foldl MemoryGraph.take g') := by
    induction additions generalizing g g' with
    | nil => exact h
    | cons a rest ih => exact ih _ _ (h.take hl a)
  exact hfold _ _ ⟨rfl, rfl⟩

end MemoryGraph

/-! ## 3. What is shown -/

/-- **The edge says the opposite**: it lies between the same vertices under the same id, and leads
to what its process reads exactly if the other one does not. -/
structure Edge.Turned (labels : EdgeLabels) (e e' : Edge) : Prop where
  source : e'.source = e.source
  target : e'.target = e.target
  relationshipId : e'.relationshipId = e.relationshipId
  label : e'.label.equal labels.inputs = !e.label.equal labels.inputs

/-- **The graph is turned**: where the one lists what is read, the other lists the same as written.
Neither can run a script. -/
structure GraphAccess.Turns (labels : EdgeLabels) (g g' : GraphAccess Outcome) : Prop where
  order : g'.order = g.order
  find : ∀ id, g'.find id = g.find id
  inputs : ∀ v side, Outcome.Alike (List.Forall₂ (Edge.Turned labels))
    (g.edges v side labels.inputs) (g'.edges v side labels.outputs)
  outputs : ∀ v side, Outcome.Alike (List.Forall₂ (Edge.Turned labels))
    (g.edges v side labels.outputs) (g'.edges v side labels.inputs)
  scripts : ∃ e, ∀ s, g.runScript s = .error e ∧ g'.runScript s = .error e

/-- An edge with one of the two labels says the opposite under the other one. -/
theorem EdgeLabels.Distinct.turned {labels : EdgeLabels} {inKey outKey : Key}
    (h : labels.Distinct inKey outKey) {e : Edge}
    (he : e.label.key = .ok inKey ∨ e.label.key = .ok outKey) :
    e.Turned labels (e.exchanged labels) := by
  have hequal {label : Value} {k : Key} (hk : label.key = .ok k) :
      label.equal labels.inputs = decide (k = inKey) := by
    obtain ⟨s, rfl, rfl⟩ := (Value.key_eq_ok_iff _ _).mp hk
    rw [Value.equal_scalar, Bool.eq_iff_iff, Bool.and_eq_true, Bool.not_eq_true',
      beq_eq_false_iff_ne, Value.hasKey_iff, h.inputs, Except.ok.injEq, decide_eq_true_eq]
    exact ⟨fun hk => hk.2.symm, fun hk => ⟨hk ▸ h.number, hk.symm⟩⟩
  obtain ⟨hout, hin⟩ := h.exchange_hasKey e.label
  refine ⟨rfl, rfl, rfl, ?_⟩
  rcases he with he | he
  · rw [(Value.hasKey_iff _ _).mpr he, Value.hasKey_iff] at hout
    rw [hequal he, show (e.exchanged labels).label = labels.exchange e.label from rfl, hequal hout]
    simp [h.differ.symm]
  · rw [(Value.hasKey_iff _ _).mpr he, Value.hasKey_iff] at hin
    rw [hequal he, show (e.exchanged labels).label = labels.exchange e.label from rfl, hequal hin]
    simp [h.differ.symm]

namespace MemoryGraph

variable {labels : EdgeLabels} {inKey outKey : Key} {g g' : MemoryGraph}

/-- **Two graphs whose edges have the labels exchanged are turned.** -/
theorem Exchanges.turns (h : Exchanges labels g g') (hl : labels.Distinct inKey outKey)
    (hg : g.Built) (hg' : g'.Built) : GraphAccess.Turns labels g.access g'.access := by
  have hlisted {l l' : Value} {k k' : Key} (hk : l.key = .ok k) (hk' : l'.key = .ok k')
      (hexchange : ∀ label, (labels.exchange label).hasKey k' = label.hasKey k)
      (hone : k = inKey ∨ k = outKey) (v : Vertex) (side : Side) :
      Outcome.Alike (List.Forall₂ (Edge.Turned labels)) (g.access.edges v side l)
        (g'.access.edges v side l') := by
    have hshows : g.access.Shows g.added.toList := hg.shows _
    have hshows' : g'.access.Shows g'.added.toList := hg'.shows _
    rw [hshows.edges, hshows'.edges, hk, hk']
    refine .bind_self v.id.key fun vk => .ok ?_
    have hmap : listed g'.added.toList side vk k' =
        (listed g.added.toList side vk k).map (·.exchanged labels) := by
      unfold listed
      rw [h.added, List.filter_map]
      refine congrArg _ (List.filter_congr fun e _ => ?_)
      show ((e.endAt side).id.hasKey vk && (labels.exchange e.label).hasKey k') = e.liesAt side vk k
      rw [hexchange]
      rfl
    rw [hmap, List.forall₂_map_right_iff]
    refine List.forall₂_same.mpr fun e he => hl.turned ?_
    have hkey := (mem_listed.mp he).2.2
    rcases hone with rfl | rfl
    · exact .inl hkey
    · exact .inr hkey
  refine ⟨congrArg Std.HashMap.size h.vertices, fun id => ?_,
    hlisted hl.inputs hl.outputs (fun label => (hl.exchange_hasKey label).1) (.inl rfl),
    hlisted hl.outputs hl.inputs (fun label => (hl.exchange_hasKey label).2) (.inr rfl),
    .lineage .noQueryLanguage .null, fun s => ⟨rfl, rfl⟩⟩
  show g'.find id = g.find id
  unfold find
  rw [h.vertices]

/-- **The same additions with the labels exchanged make the graph turned.** -/
theorem made_turns (hl : labels.Distinct inKey outKey) (additions : List Addition) :
    GraphAccess.Turns labels (made additions).access
      (made (additions.map (·.exchanged labels))).access :=
  (made_exchanges hl additions).turns hl (made_built _) (made_built _)

end MemoryGraph

end DataLineage
