import DataLineage.Entity
import DataLineage.Lineage.Direction
import DataLineage.Lineage.Relation
import Std.Data.HashSet

/-!
# Lineage graphs

The answer to a lineage request: the entities that were found, in the order in which they were
found, and the relations between them, no two of them the same. The ids of the relationships that
were recorded are kept apart, so that an edge met again is known at once.

* `LineageGraph.mem_addRelation` -- what is recorded after one more relation.
* `LineageGraph.hasEntity_putEntity` -- which entities are there after one more header.
* `LineageGraph.listing_perm` -- the listing holds every relation once.
-/

namespace DataLineage

/-! ## 1. Entities by id -/

/-- Headers by the id of their entity, in the order in which the ids were entered. -/
abbrev EntityMap := List (Scalar × EntityHeader)

namespace EntityMap

/-- Is there a header for the entity? -/
def has (entities : EntityMap) (id : Scalar) : Bool := entities.any fun e => e.1.same id

/-- The header of an entity. -/
def get? (entities : EntityMap) (id : Scalar) : Option EntityHeader :=
  (entities.find? fun e => e.1.same id).map (·.2)

/-- Enters a header: in the place of the one with its id, otherwise at the end. -/
def put : EntityMap → Scalar → EntityHeader → EntityMap
  | [], id, h => [(id, h)]
  | e :: rest, id, h => if e.1.key = id.key then (e.1, h) :: rest else e :: put rest id h

/-- **After a header is entered its entity is there**, and so is every other that was. -/
theorem has_put (entities : EntityMap) (id : Scalar) (h : EntityHeader) (x : Scalar) :
    has (put entities id h) x = (has entities x || x.key == id.key) := by
  simp only [has, Scalar.same_eq]
  induction entities with
  | nil => simp [put, Bool.beq_comm (a := x.key)]
  | cons e rest ih =>
    by_cases he : e.1.key = id.key
    · simp only [put, he, if_true, List.any_cons]
      by_cases hx : id.key = x.key
      · simp [hx]
      · have : (x.key == id.key) = false := by simpa using fun h => hx h.symm
        simp [this]
    · simp only [put, he, if_false, List.any_cons, ih, Bool.or_assoc]

end EntityMap

/-! ## 2. Lineage graphs -/

/-- **The entities and relations found around a root.** -/
structure LineageGraph where
  guid : Value
  direction : Direction
  depth : Value
  entities : EntityMap
  relations : List Relation
  relationshipIds : Std.HashSet Key
  deriving Inhabited

namespace LineageGraph

/-- The graph without entities and relations. -/
def empty (guid : Value) (direction : Direction) (depth : Value) : LineageGraph where
  guid := guid
  direction := direction
  depth := depth
  entities := []
  relations := []
  relationshipIds := ∅

/-- Is the relation recorded? -/
def hasRelation (g : LineageGraph) (r : Relation) : Bool := g.relations.any r.same

/-- The ids in use, with the one of a relation that has one. -/
def noteId (ids : Std.HashSet Key) (r : Relation) : Std.HashSet Key :=
  if r.relationshipId = .null then ids else ids.insert r.relationshipId.key

/-- **Records a relation**, unless it is recorded already. -/
def addRelation (g : LineageGraph) (r : Relation) : LineageGraph where
  guid := g.guid
  direction := g.direction
  depth := g.depth
  entities := g.entities
  relations := if g.hasRelation r then g.relations else g.relations ++ [r]
  relationshipIds := noteId g.relationshipIds r

/-- Records the relations of a list, in order. -/
def addRelations (g : LineageGraph) (rs : List Relation) : LineageGraph := rs.foldl addRelation g

/-- The graph with the given relations and no entities. -/
def ofRelations (guid : Value) (direction : Direction) (depth : Value) (rs : List Relation) :
    LineageGraph :=
  (empty guid direction depth).addRelations rs

/-- Is a relation of that relationship id recorded? A null id is none. -/
def containsRelationship (g : LineageGraph) (id : Value) : Outcome Bool :=
  if id.isNull then .ok false else do return g.relationshipIds.contains (← id.key)

/-- Is there a header for the entity? -/
def hasEntity (g : LineageGraph) (id : Scalar) : Bool := EntityMap.has g.entities id

/-- Enters the header of an entity, in the place of an earlier one. -/
def putEntity (g : LineageGraph) (id : Scalar) (h : EntityHeader) : LineageGraph :=
  { g with entities := EntityMap.put g.entities id h }

/-- **The union of two graphs**; the headers of the second one win. -/
def merge (g other : LineageGraph) : LineageGraph :=
  (other.entities.foldl (fun g e => g.putEntity e.1 e.2) g).addRelations other.relations

/-- The distinct ends of the relations. -/
def ends (g : LineageGraph) : List Scalar :=
  g.relations.foldl (fun seen r => note (note seen r.source) r.target) []
where
  /-- One more id, unless it is there. -/
  note (seen : List Scalar) (s : Scalar) : List Scalar :=
    if seen.any fun t => t.key == s.key then seen else seen ++ [s]

/-- The ends of relations for which there is no header. -/
def missingEntities (g : LineageGraph) : List Scalar := g.ends.filter fun s => !g.hasEntity s

/-- **The relations in the order of their listing**, where every two of them can be compared. -/
def listing (g : LineageGraph) : Outcome (List Relation) :=
  match sortBy? (fun (r : Relation) => families? r.sortKey)
      (fun a b => compareAll? a.sortKey b.sortKey) g.relations with
  | some sorted => .ok sorted
  | none => .error .wrongKind

/-- The parts of a graph as they are written, with the entities in the given form. -/
def written (g : LineageGraph) (entities : Value) : Outcome Value := do
  return .record [
    ("baseEntityGuid", g.guid),
    ("lineageDirection", .text g.direction.name),
    ("lineageDepth", g.depth),
    ("guidEntityMap", entities),
    ("relations", .list ((← g.listing).map Relation.toValue))]

/-- **Only the added relation is new.** -/
theorem mem_addRelation {g : LineageGraph} {r x : Relation} (h : x ∈ (g.addRelation r).relations) :
    x ∈ g.relations ∨ x = r := by
  simp only [addRelation] at h
  split at h
  · exact Or.inl h
  · simpa using h

/-- No recorded relation is lost. -/
theorem mem_addRelation_of_mem {g : LineageGraph} {r x : Relation} (h : x ∈ g.relations) :
    x ∈ (g.addRelation r).relations := by
  simp only [addRelation]
  split
  · exact h
  · simp [h]

/-- **An entered header is there, and so is every earlier one.** -/
theorem hasEntity_putEntity (g : LineageGraph) (id : Scalar) (h : EntityHeader) (x : Scalar) :
    (g.putEntity id h).hasEntity x = (g.hasEntity x || x.key == id.key) :=
  EntityMap.has_put ..

/-- **The listing holds every relation once.** -/
theorem listing_perm {g : LineageGraph} {rs : List Relation} (h : g.listing = .ok rs) :
    rs.Perm g.relations := by
  unfold listing at h
  split at h
  · rename_i sorted hs
    cases h
    exact sortBy?_perm _ _ hs
  · cases h

end LineageGraph

end DataLineage
