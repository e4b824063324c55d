import DataLineage.Filter

/-!
# Entities as callers see them

A vertex is shown as an `EntityHeader`. A `Projector` makes headers and says which vertices are
visible at all; an `Authorizer` says whether the entity of a header may be read.

* `Projector.visible_append` -- a further criterion can only hide.
* `Authorizer.permits_allowAll` -- without a deny list everything may be read.
-/

namespace DataLineage

/-! ## 1. Headers -/

/-- **What a caller learns about an entity.** The attributes are a record and the classification
names a list in every header that is made from a vertex. -/
structure EntityHeader where
  guid : Value
  typeName : Value
  status : Value
  displayText : Value
  attributes : Value
  classificationNames : Value
  deriving Repr, Inhabited

/-- The status of an entity that states none. -/
def EntityHeader.activeStatus : Value := .text "ACTIVE"

/-- The status of an entity that is deleted but still recorded. -/
def EntityHeader.deletedStatus : Value := .text "DELETED"

/-- A header as a record. -/
def EntityHeader.toValue (h : EntityHeader) : Value :=
  .record [
    ("guid", h.guid),
    ("typeName", h.typeName),
    ("status", h.status),
    ("displayText", h.displayText),
    ("attributes", h.attributes),
    ("classificationNames", h.classificationNames)]

/-! ## 2. Projection -/

/-- Which vertices are shown: deleted ones or not, and only those that meet the predicate. -/
structure Projector where
  includeDeleted : Bool
  predicate : VertexPredicate
  deriving Inhabited

namespace Projector

/-- The properties that can name an entity, the preferred one first. -/
def displayAttributes : List String := ["name", "displayName", "qualifiedName"]

/-- The text under which a vertex is shown: its first name that counts as true, or its id. -/
def displayText (v : Vertex) : Value :=
  ((displayAttributes.map v.property).find? Value.truth).getD v.id

/-- One attribute of a vertex, if the vertex has it. -/
def attributeOf (v : Vertex) (name : Value) : Outcome (Option (Scalar × Value)) := do
  let name ← name.identifier
  return (Record.valueOf? v.properties name.key).map (name, ·)

/-- The record with a field added at the end, unless it has one of that name. -/
def addField (r : Record) (field : Scalar × Value) : Record :=
  if Record.hasKey r field.1.key then r else r ++ [field]

/-- The named attributes that a vertex has, each once, in the order in which they are named. -/
def attributes (v : Vertex) (names : List Value) : Outcome Record := do
  return ((← names.mapM (attributeOf v)).filterMap id).foldl addField []

/-- **The header of a vertex.** -/
def header (v : Vertex) (names : List Value) : Outcome EntityHeader := do
  let attributes ← attributes v names
  let classificationNames ← (v.property "classifications").elementsOrNone
  return {
    guid := v.id
    typeName := v.typeName
    status := (Record.get? v.properties "status").getD EntityHeader.activeStatus
    displayText := displayText v
    attributes := .record attributes
    classificationNames := .list classificationNames
  }

/-- Is the vertex marked as deleted? -/
def isDeleted (v : Vertex) : Bool := (v.property "status").same EntityHeader.deletedStatus

/-- **Is the vertex shown at all?** -/
def visible (p : Projector) (v : Vertex) : Outcome Bool :=
  if !p.includeDeleted && isDeleted v then .ok false else p.predicate v

/-- A further criterion is asked only of vertices that are visible without it. -/
theorem visible_append (includeDeleted : Bool) (first more : List Criterion) (v : Vertex) :
    visible ⟨includeDeleted, admitsAll (first ++ more)⟩ v =
      (do if ← visible ⟨includeDeleted, admitsAll first⟩ v then admitsAll more v
          else return false) := by
  unfold visible
  by_cases h : (!includeDeleted && isDeleted v) = true
  · simp [h, bind, Except.bind, pure, Except.pure]
  · simp only [h, admitsAll_append]; rfl

end Projector

/-! ## 3. Authorization -/

/-- **Who may be read**: what is answered to the header of an entity. -/
structure Authorizer where
  permits : EntityHeader → Outcome Bool
  deriving Inhabited

namespace Authorizer

/-- Everything may be read. -/
def allowAll : Authorizer := ⟨fun _ => .ok true⟩

/-- Everything may be read but entities of some types. -/
def deny (types : List Key) : Authorizer :=
  ⟨fun h => do return !types.contains (← h.typeName.key)⟩

/-- The authorizer that denies the types which a collection names. -/
def denying (types : Value) : Outcome Authorizer := do
  return deny (← (← types.elements).mapM Value.key)

/-- **Without a deny list everything may be read.** -/
theorem permits_allowAll (h : EntityHeader) : allowAll.permits h = .ok true := rfl

end Authorizer

end DataLineage
