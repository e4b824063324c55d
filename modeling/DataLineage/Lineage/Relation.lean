import DataLineage.Value.Access

/-!
# Relations

A relation says that data flows from one entity to another. It carries the id of the relationship
that it was read from, and the id of the process where the process itself is hidden; each of them
is null where there is none. Two relations are the same when all four ids are.

* `Relation.same_iff` -- sameness is equality of the four keys.
-/

namespace DataLineage

/-- **Data flows from the source to the target.** -/
structure Relation where
  source : Scalar
  target : Scalar
  relationshipId : Scalar
  processId : Scalar
  deriving DecidableEq, Repr, Inhabited

namespace Relation

/-- The relation between the given values; values that identify nothing make none. -/
def ofValues (source target relationshipId processId : Value) : Outcome Relation := do
  let source ← source.identifier
  let target ← target.identifier
  let relationshipId ← relationshipId.identifier
  let processId ← processId.identifier
  return { source, target, relationshipId, processId }

/-- Are all four ids the same? -/
def same (a b : Relation) : Bool :=
  a.source.same b.source && a.target.same b.target &&
    a.relationshipId.same b.relationshipId && a.processId.same b.processId

/-- **Relations are the same exactly when their four keys are.** -/
theorem same_iff (a b : Relation) :
    a.same b = true ↔ a.source.key = b.source.key ∧ a.target.key = b.target.key ∧
      a.relationshipId.key = b.relationshipId.key ∧ a.processId.key = b.processId.key := by
  simp [same, Scalar.same_iff, and_assoc]

theorem same_refl (a : Relation) : a.same a = true := by simp [same_iff]

/-- The id, or the empty text for an id that counts as false. -/
def idOrBlank (s : Scalar) : Scalar := if s.truth then s else .text ""

/-- What relations are listed by: source, target, relationship and process. -/
def sortKey (r : Relation) : List Scalar :=
  [r.source, r.target, idOrBlank r.relationshipId, idOrBlank r.processId]

/-- A relation as a record; the process is written only where it is hidden. -/
def toValue (r : Relation) : Value :=
  let flow : Record := [
    ("fromEntityId", .scalar r.source),
    ("toEntityId", .scalar r.target),
    ("relationshipId", .scalar r.relationshipId)]
  let hidden : Record := if r.processId = .null then [] else [("processId", .scalar r.processId)]
  .record (flow ++ hidden)

end Relation

end DataLineage
