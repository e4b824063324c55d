import DataLineage.Graph.Basic
import Std.Data.HashMap

/-!
# Edges by vertex and label

An `EdgeIndex` lists the edges of one label at one side of a vertex in the order in which they were
added. Every edge is entered on both sides: at its source and at its target.

* `EdgeIndex.edges_empty`, `EdgeIndex.edges_add` -- what the lists are after each operation.
-/

namespace DataLineage

/-- The keys under which an edge is entered. -/
structure EdgeKeys where
  label : Key
  source : Key
  target : Key
  deriving DecidableEq, Hashable, Repr, Inhabited

/-- The key of the vertex at which an edge is listed on a side. -/
def EdgeKeys.endAt (k : EdgeKeys) : Side → Key
  | .incoming => k.target
  | .outgoing => k.source

/-- The keys of an edge; an edge that cannot be identified has none. -/
def Edge.keys (e : Edge) : Outcome EdgeKeys := do
  let label ← e.label.key
  let source ← e.source.id.key
  let target ← e.target.id.key
  return { label, source, target }

/-- **Edges listed by vertex and label**, the newest first in each list. -/
structure EdgeIndex where
  incoming : Std.HashMap (Key × Key) (List Edge)
  outgoing : Std.HashMap (Key × Key) (List Edge)

namespace EdgeIndex

/-- The index without edges. -/
def empty : EdgeIndex := ⟨∅, ∅⟩

instance : Inhabited EdgeIndex := ⟨empty⟩

/-- One more edge at the front of a list. -/
def enter (table : Std.HashMap (Key × Key) (List Edge)) (vertex label : Key) (e : Edge) :
    Std.HashMap (Key × Key) (List Edge) :=
  table.insert (vertex, label) (e :: table.getD (vertex, label) [])

/-- The index with one more edge, entered at both of its ends. -/
def add (ix : EdgeIndex) (k : EdgeKeys) (e : Edge) : EdgeIndex where
  incoming := enter ix.incoming k.target k.label e
  outgoing := enter ix.outgoing k.source k.label e

/-- The edges of a label at a side of a vertex, in the order in which they were added. -/
def edges (ix : EdgeIndex) (side : Side) (vertex label : Key) : List Edge :=
  match side with
  | .incoming => (ix.incoming.getD (vertex, label) []).reverse
  | .outgoing => (ix.outgoing.getD (vertex, label) []).reverse

@[simp] theorem edges_empty (side : Side) (vertex label : Key) :
    empty.edges side vertex label = [] := by
  cases side <;> simp [edges, empty]

/-- **An added edge comes last in the lists of its two ends and in no other.** -/
theorem edges_add (ix : EdgeIndex) (k : EdgeKeys) (e : Edge) (side : Side) (vertex label : Key) :
    (ix.add k e).edges side vertex label =
      ix.edges side vertex label ++
        if k.endAt side = vertex ∧ k.label = label then [e] else [] := by
  have h (a : Key) : (a = vertex ∧ k.label = label) ↔ ((a, k.label) = (vertex, label)) := by simp
  cases side <;>
    simp only [edges, add, enter, EdgeKeys.endAt, Std.HashMap.getD_insert, beq_iff_eq, h]
  · by_cases hk : (k.target, k.label) = (vertex, label)
    · simp only [hk, if_true, List.reverse_cons]
    · simp only [if_neg hk, List.append_nil]
  · by_cases hk : (k.source, k.label) = (vertex, label)
    · simp only [hk, if_true, List.reverse_cons]
    · simp only [if_neg hk, List.append_nil]

end EdgeIndex

end DataLineage
