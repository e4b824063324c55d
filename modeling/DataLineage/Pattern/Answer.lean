import DataLineage.Pattern.Query
import DataLineage.Graph.Index
import Std.Data.HashSet

/-!
# Lineages from answered edges

The edges that a database answers for a pattern make a small graph of their own, an `AnswerGraph`.
An edge that is answered again, by its relationship id or else by its label and ends, counts once.
The walk of the request is made over this graph, so that visibility, the visited vertices and the
hop budget mean the same as in a walk over the whole graph.

* `AnswerGraph.add_known` -- an edge that is answered again changes nothing.
-/

namespace DataLineage

/-- What an answered edge is known by. -/
inductive AnswerKey where
  | relationship (id : Key)
  | ends (label source target : Key)
  deriving DecidableEq, Hashable, Repr, Inhabited

/-- What the edge is known by: its relationship id if that counts as true, else label and ends. -/
def Edge.answerKey (e : Edge) : Outcome AnswerKey := do
  if e.relationshipId.truth then
    return .relationship (← e.relationshipId.key)
  let k ← e.keys
  return .ends k.label k.source k.target

/-- **The graph of answered edges**, its vertices in the order in which they were first seen. -/
structure AnswerGraph where
  seen : Std.HashSet AnswerKey
  vertices : List (Key × Vertex)
  index : EdgeIndex

namespace AnswerGraph

/-- The graph of no answer. -/
def empty : AnswerGraph := ⟨∅, [], .empty⟩

instance : Inhabited AnswerGraph := ⟨empty⟩

/-- The vertices, with one more unless its key is there. -/
def putVertex (vertices : List (Key × Vertex)) (key : Key) (v : Vertex) : List (Key × Vertex) :=
  if (vertices.lookup key).isSome then vertices else vertices ++ [(key, v)]

/-- One more answered edge. -/
def add (g : AnswerGraph) (e : Edge) : Outcome AnswerGraph := do
  let answerKey ← e.answerKey
  if g.seen.contains answerKey then
    return g
  let k ← e.keys
  return {
    seen := g.seen.insert answerKey
    vertices := putVertex (putVertex g.vertices k.source e.source) k.target e.target
    index := g.index.add k e
  }

/-- **An edge that is answered again changes nothing.** -/
theorem add_known {g : AnswerGraph} {e : Edge} {key : AnswerKey} (hk : e.answerKey = .ok key)
    (h : g.seen.contains key = true) : g.add e = .ok g := by
  simp only [add, hk, bind, Except.bind, h, if_true]; rfl

/-- The graph of a list of answered edges. -/
def ofEdges (edges : List Edge) : Outcome AnswerGraph := edges.foldlM add empty

/-- The first vertex seen with an id. -/
def find (g : AnswerGraph) (id : Value) : Outcome (Option Vertex) := do
  return g.vertices.lookup (← id.key)

/-- The edges of a label at a side of a vertex. -/
def edges (g : AnswerGraph) (v : Vertex) (side : Side) (label : Value) : Outcome (List Edge) := do
  return g.index.edges side (← v.id.key) (← label.key)

/-- Access to answered edges, over which no further script can be run. -/
def access (g : AnswerGraph) : GraphAccess Outcome where
  order := g.vertices.length
  find := g.find
  edges := g.edges
  runScript _ := .error (.lineage .answerNotQueried .null)

end AnswerGraph

namespace Walker

section

variable {m : Type → Type} [Monad m] [MonadExceptOf Fault m]

/-- **One walk over what the database answers** for the pattern of the request. -/
def walkAnswer (w : Walker m) (c : Context) (direction : Direction) (budget : VertexBudget) :
    m (LineageGraph × VertexBudget) := do
  let pattern ← MonadExcept.ofExcept
    (LineagePattern.make w.taxonomy c.guid direction c.depth c.isDataset)
  let edges ← w.graph.runScript pattern.script
  MonadExcept.ofExcept do
    let answer ← AnswerGraph.ofEdges edges
    let replay : Walker Outcome := ⟨answer.access, w.taxonomy, w.requireBoth, w.maxVertices⟩
    replay.walk c direction budget

/-- **The lineage of a request by patterns**, which show every process. -/
def traverseAnswers (w : Walker m) (c : Context) : m LineageGraph := do
  if c.hidesProcesses then
    throw (.lineage .patternHidesNothing c.guid)
  return c.aggregate (← walkAll (w.walkAnswer c) c.direction.walks (.start w.maxVertices))

end

end Walker

end DataLineage
