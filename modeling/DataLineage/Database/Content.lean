import DataLineage.Graph.Basic

/-!
# What a graph database holds

Nodes with labels and properties, and relationships of a type between two nodes. A node is known by
its number; a number beyond the nodes stands for a node without labels and properties. A property
that is null does not exist.

* `Content.node_of_get?`, `Content.node_absent` -- which node a number stands for.
-/

namespace DataLineage

/-- A node of a database. -/
structure Node where
  labels : List String
  properties : Record
  deriving Repr, Inhabited

/-- A relationship between the nodes of two numbers, with its own number among the relationships. -/
structure Relationship where
  number : Nat
  label : Value
  start : Int
  finish : Int
  properties : Record
  deriving Repr, Inhabited

/-- The properties that exist: those that are not null. -/
def existing (properties : Record) : Record := properties.filter fun f => !f.2.isNull

/-- **The nodes and relationships of a database**, in the order in which it lists them. -/
structure Content where
  nodes : Array Node
  relationships : Array Relationship
  deriving Repr, Inhabited

namespace Content

/-- The node of a number. -/
def node (c : Content) (number : Int) : Node :=
  match number with
  | .ofNat n => (c.nodes[n]?).getD ⟨[], []⟩
  | .negSucc _ => ⟨[], []⟩

theorem node_of_get? {c : Content} {n : Nat} {x : Node} (h : c.nodes[n]? = some x) :
    c.node n = x := by
  simp [node, h]

/-- **A number beyond the nodes stands for an empty node.** -/
theorem node_absent {c : Content} {n : Nat} (h : c.nodes.size ≤ n) : c.node n = ⟨[], []⟩ := by
  simp [node, h]

/-- The id property of a node, null where it has none. -/
def idOf (c : Content) (number : Int) : Value := Record.get (c.node number).properties "id"

/-- The relationships of one type. -/
def ofType (c : Content) (label : Value) : List Relationship :=
  c.relationships.toList.filter fun r => r.label.equal label

/-- The number of the first node with an id. -/
def findNode (c : Content) (id : Value) : Option Int :=
  ((List.range c.nodes.size).map Int.ofNat).find? fun n => (c.idOf n).equal id

end Content

end DataLineage
