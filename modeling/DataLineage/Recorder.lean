import DataLineage.Lineage.Recording
import DataLineage.Request

/-!
# Recording what a walk finds

A walk meets pairs of edges that lead from one dataset through a process to another. Expanded, both
edges of a pair become relations; with hidden processes the pair becomes one relation that names
its process. A pair is skipped when the visibility of its datasets forbids to record it, and then
the lineage is left as it was. Headers and relations are entered one after the other: where one of
them fails, those before it stay.

* `Recorder.materialize_known`, `Recorder.recordEdge_known` -- an entity and a relationship are
  recorded once.
* `Recorder.addPair_hidden`, `Recorder.addPair_expanded` -- which mode records a pair.
-/

namespace DataLineage

/-- What recording needs to know: the request, the types, and whether both datasets of a pair have
to be visible. -/
structure Recorder where
  context : Context
  taxonomy : Taxonomy
  requireBoth : Bool
  deriving Inhabited

namespace Recorder

/-! ## 1. Entities and relations -/

/-- Can the dataset be seen, being the root or visible? -/
def sees (r : Recorder) (v : Vertex) : Outcome Bool :=
  if r.context.isRoot v then .ok true else r.context.admits v

/-- Enters the header of a vertex that has none yet. -/
def materialize (r : Recorder) (v : Vertex) : Recording Unit := do
  let id ← MonadExcept.ofExcept v.id.identifier
  if !(← get).hasEntity id then
    let header ← MonadExcept.ofExcept (r.context.header v)
    Recording.put fun g => g.putEntity id header

/-- An entity is recorded once. -/
theorem materialize_known (r : Recorder) (g : LineageGraph) (v : Vertex) (id : Scalar)
    (hv : v.id = .scalar id) (h : g.hasEntity id = true) :
    Recording.on (r.materialize v) g = .ok ((), g) := by
  simp [materialize, hv, Value.identifier, Recording.on_bind, Recording.on_ofExcept,
    Recording.on_get, Except.map, Except.bind, h, Recording.on_pure]

/-- Does the edge lead to what its process reads? -/
def isInput (r : Recorder) (e : Edge) : Bool := e.label.equal r.taxonomy.labels.inputs

/-- **The relation of an edge**: data flows from what a process reads, to what it writes. -/
def relationOf (r : Recorder) (e : Edge) : Outcome Relation :=
  if r.isInput e then Relation.ofValues e.target.id e.source.id e.relationshipId .null
  else Relation.ofValues e.source.id e.target.id e.relationshipId .null

/-- Records the relation of an edge, unless its relationship is recorded. -/
def recordEdge (r : Recorder) (e : Edge) : Recording Unit := do
  let g ← get
  if !(← MonadExcept.ofExcept (g.containsRelationship e.relationshipId)) then
    let relation ← MonadExcept.ofExcept (r.relationOf e)
    Recording.put fun g => g.addRelation relation

/-- **A relationship is recorded once.** -/
theorem recordEdge_known (r : Recorder) (g : LineageGraph) (e : Edge)
    (h : g.containsRelationship e.relationshipId = .ok true) :
    Recording.on (r.recordEdge e) g = .ok ((), g) := by
  simp [recordEdge, Recording.on_bind, Recording.on_ofExcept, Recording.on_get, Except.map,
    Except.bind, h, Recording.on_pure]

/-! ## 2. Pairs

Each of the following steps answers whether the pair or edge was skipped. -/

/-- **Both edges of a pair become relations.** -/
def addEdges (r : Recorder) (into out : Edge) : Recording Bool := do
  let left ← MonadExcept.ofExcept (r.sees into.target)
  let right ← MonadExcept.ofExcept (r.sees out.target)
  if if r.requireBoth then left && right else left || right then
    r.materialize into.target
    r.materialize into.source
    r.materialize out.target
    r.recordEdge into
    r.recordEdge out
    return false
  else
    return true

/-- The relation between the datasets of a pair, through its process. -/
def relationThrough (r : Recorder) (into out : Edge) : Outcome Relation :=
  if r.isInput into then Relation.ofValues into.target.id out.target.id .null out.source.id
  else Relation.ofValues out.target.id into.target.id .null out.source.id

/-- Is a pair with a hidden process open? The dataset further out has to be visible, the nearer one
visible or the root. -/
def opensHidden (r : Recorder) (into out : Edge) : Outcome Bool := do
  if ← r.context.admits out.target then r.sees into.target else return false

/-- **A pair becomes one relation through its hidden process.** -/
def addHidden (r : Recorder) (into out : Edge) : Recording Bool := do
  if ← MonadExcept.ofExcept (r.opensHidden into out) then
    r.materialize into.target
    r.materialize out.target
    let relation ← MonadExcept.ofExcept (r.relationThrough into out)
    Recording.put fun g => g.addRelation relation
    return false
  else
    return true

/-- Records a pair in the mode that the request asks for. -/
def addPair (r : Recorder) (into out : Edge) : Recording Bool :=
  if r.context.hidesProcesses then r.addHidden into out else r.addEdges into out

theorem addPair_hidden (r : Recorder) (into out : Edge)
    (h : r.context.hidesProcesses = true) : r.addPair into out = r.addHidden into out := by
  simp [addPair, h]

theorem addPair_expanded (r : Recorder) (into out : Edge)
    (h : r.context.hidesProcesses = false) : r.addPair into out = r.addEdges into out := by
  simp [addPair, h]

/-! ## 3. Single edges -/

/-- Does the vertex justify to record a single edge: the root, or a visible vertex that is no
process? -/
def justifies (r : Recorder) (v : Vertex) : Outcome Bool := do
  if r.context.isRoot v then
    return true
  if ← r.taxonomy.isProcess v.typeName then
    return false
  r.context.admits v

/-- Does one of the two ends justify to record the edge? -/
def opensEdge (r : Recorder) (e : Edge) : Outcome Bool := do
  if ← r.justifies e.source then return true else r.justifies e.target

/-- **Records a single edge**, if one of its ends justifies it. -/
def addEdge (r : Recorder) (e : Edge) : Recording Bool := do
  let g ← get
  if ← MonadExcept.ofExcept (g.containsRelationship e.relationshipId) then
    return false
  if ← MonadExcept.ofExcept (r.opensEdge e) then
    r.materialize e.source
    r.materialize e.target
    r.recordEdge e
    return false
  else
    return true

end Recorder

end DataLineage
