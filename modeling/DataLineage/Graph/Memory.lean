import DataLineage.Graph.Index
import DataLineage.Taxonomy.Basic

/-!
# A graph held in memory

Vertices are found by id and edges by vertex, side and label. A vertex that is added again replaces
the one that is found, while edges keep the vertices that they were made with. There is no query
language, unless answers to scripts are supplied from outside.

* `MemoryGraph.addVertex_vertices`, `MemoryGraph.addEdge_unknown` -- what adding changes, and when
  an edge is refused.
-/

namespace DataLineage

/-- **A graph held in memory**, with its edges in the order in which they were added. -/
structure MemoryGraph where
  vertices : Std.HashMap Key Vertex
  index : EdgeIndex
  added : Array Edge

namespace MemoryGraph

/-- The graph without vertices. -/
def empty : MemoryGraph := ⟨∅, .empty, #[]⟩

instance : Inhabited MemoryGraph := ⟨empty⟩

/-- Names that no property of a vertex can have. -/
def reservedOfVertex : List String := ["self", "vertex_id", "type_name"]

/-- Names that no property of an edge can have. -/
def reservedOfEdge : List String := ["self", "label", "source_id", "target_id", "relationship_id"]

/-- Can a property have the name? It must be a text that is not reserved. -/
def isFree (reserved : List String) : Scalar → Bool
  | .text name => !reserved.contains name
  | _ => false

/-- Refuses properties of which one cannot have its name. -/
def checkNames (reserved : List String) (properties : Record) : Outcome Unit :=
  if properties.all fun f => isFree reserved f.1 then .ok () else .error .wrongKind

/-- **Adds a vertex**, or replaces the one with its id. -/
def addVertex (g : MemoryGraph) (id typeName : Value) (properties : Record) :
    Outcome (Vertex × MemoryGraph) := do
  checkNames reservedOfVertex properties
  let key ← id.key
  let v : Vertex := { id, typeName, properties }
  return (v, { g with vertices := g.vertices.insert key v })

/-- The vertex that an edge shall end at. -/
def endpoint (g : MemoryGraph) (id : Value) : Outcome (Key × Vertex) := do
  let key ← id.key
  match g.vertices[key]? with
  | some v => return (key, v)
  | none => throw (.seed (.unknownVertex id))

/-- **Adds an edge** between two vertices of the graph, as they are now. -/
def addEdge (g : MemoryGraph) (label sourceId targetId relationshipId : Value)
    (properties : Record) : Outcome (Edge × MemoryGraph) := do
  checkNames reservedOfEdge properties
  let (sourceKey, source) ← g.endpoint sourceId
  let (targetKey, target) ← g.endpoint targetId
  let labelKey ← label.key
  let e : Edge := { label, source, target, relationshipId, properties }
  return (e, { g with
    index := g.index.add ⟨labelKey, sourceKey, targetKey⟩ e
    added := g.added.push e })

/-- The vertex with an id. -/
def find (g : MemoryGraph) (id : Value) : Outcome (Option Vertex) := do
  return g.vertices[← id.key]?

/-- The edges of a label at a side of a vertex. -/
def edges (g : MemoryGraph) (v : Vertex) (side : Side) (label : Value) : Outcome (List Edge) := do
  return g.index.edges side (← v.id.key) (← label.key)

/-- Access to the graph, with the given answers to scripts. -/
def accessWith (g : MemoryGraph) (answer : Script → Outcome (List Edge)) : GraphAccess Outcome where
  order := g.vertices.size
  find := g.find
  edges := g.edges
  runScript := answer

/-- Access to the graph, which has no query language. -/
def access (g : MemoryGraph) : GraphAccess Outcome :=
  g.accessWith fun _ => .error (.lineage .noQueryLanguage .null)

/-- **Adding a vertex changes what is found under its id and nothing else.** -/
theorem addVertex_vertices {g g' : MemoryGraph} {id typeName : Value} {properties : Record}
    {v : Vertex} (h : g.addVertex id typeName properties = .ok (v, g')) :
    ∃ key, id.key = .ok key ∧ v = ⟨id, typeName, properties⟩ ∧
      g' = { g with vertices := g.vertices.insert key v } := by
  unfold addVertex at h
  cases hn : checkNames reservedOfVertex properties with
  | error e => simp [hn, bind, Except.bind] at h
  | ok _ =>
    cases hk : id.key with
    | error e => simp [hn, hk, bind, Except.bind] at h
    | ok key =>
      simp only [hn, hk, bind, Except.bind, pure, Except.pure, Except.ok.injEq,
        Prod.mk.injEq] at h
      exact ⟨key, rfl, h.1.symm, by rw [← h.2, ← h.1]⟩

/-- An id without a vertex cannot be the end of an edge. -/
theorem addEdge_unknown {g : MemoryGraph} {id : Value} {key : Key} (hk : id.key = .ok key)
    (hv : g.vertices[key]? = none) : g.endpoint id = .error (.seed (.unknownVertex id)) := by
  simp [endpoint, hk, hv, bind, Except.bind, throw, throwThe, MonadExceptOf.throw]

end MemoryGraph

end DataLineage
