import DataLineage.Value.Access

/-!
# Vertices, edges and access to a graph

A vertex has an id, a type and properties. An edge leads from a process to a dataset and carries
the two vertices as they were when the edge was made. A lineage is resolved over a `GraphAccess`,
which says how to find a vertex, how to list the edges at a vertex, and how to run a script in the
query language of the graph, in whatever monad the graph needs.

* `Side.parse_name` -- a side is read from its own name.
* `Vertex.property_of_get?` -- a property is the value of its field.
-/

namespace DataLineage

/-! ## 1. Vertices and edges -/

/-- A thing of the catalogue: a dataset, a process, or of no known kind. -/
structure Vertex where
  id : Value
  typeName : Value
  properties : Record
  deriving Repr, Inhabited

/-- The property of a vertex, null where it has none. -/
def Vertex.property (v : Vertex) (name : String) : Value := Record.get v.properties name

/-- A property is the value of its field. -/
theorem Vertex.property_of_get? {v : Vertex} {name : String} {x : Value}
    (h : Record.get? v.properties name = some x) : v.property name = x := by
  simp [property, Record.get, h]

/-- An edge from a process to a dataset; its relationship id is null where it has none. -/
structure Edge where
  label : Value
  source : Vertex
  target : Vertex
  relationshipId : Value
  properties : Record
  deriving Repr, Inhabited

/-- The side of a vertex at which its edges are listed. -/
inductive Side where
  | incoming
  | outgoing
  deriving DecidableEq, Repr, Inhabited

namespace Side

/-- The name of a side. -/
def name : Side → String
  | incoming => "in"
  | outgoing => "out"

/-- The side that a value names. -/
def parse : Value → Outcome Side
  | .text "in" => .ok incoming
  | .text "out" => .ok outgoing
  | _ => .error .badValue

/-- **A side is read from its own name.** -/
theorem parse_name (s : Side) : parse (.text s.name) = .ok s := by
  cases s <;> rfl

end Side

/-- The end of an edge that lies at a vertex when the edge is listed on that side. -/
def Edge.endAt (e : Edge) : Side → Vertex
  | .incoming => e.target
  | .outgoing => e.source

/-! ## 2. Access -/

/-- A text in the query language of a graph, with the values of its parameters. -/
structure Script where
  text : String
  bindings : Record
  deriving Repr, Inhabited

/-- **How a graph is read.** `order` bounds the number of different vertices that its edges can lead
to. -/
structure GraphAccess (m : Type → Type) where
  order : Nat
  find : Value → m (Option Vertex)
  edges : Vertex → Side → Value → m (List Edge)
  runScript : Script → m (List Edge)

/-- The same graph read in another monad. -/
def GraphAccess.map {m n : Type → Type} (lift : {α : Type} → m α → n α) (g : GraphAccess m) :
    GraphAccess n where
  order := g.order
  find id := lift (g.find id)
  edges v side label := lift (g.edges v side label)
  runScript s := lift (g.runScript s)

end DataLineage
