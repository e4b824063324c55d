import DataLineage.Value.Access

/-!
# The type taxonomy

Entity types form a hierarchy by direct supertypes. Types are named by scalars, as a rule by texts,
and a name means the type whose name has the same key. A `Taxonomy` holds the declared types with
their closures (the type itself and every type above it), the two category markers that make a type
dataset-like or process-like, and the labels of the two edges that a process can have.

* `Taxonomy.isOfCategory_text` -- a type is of a category when its closure holds the marker.
* `EdgeLabels.forDirection_swap` -- the two directions use the same labels in opposite roles.
-/

namespace DataLineage

/-! ## 1. Edge labels -/

/-- The labels of the edges from a process to what it reads and to what it writes. -/
structure EdgeLabels where
  inputs : Value
  outputs : Value
  deriving Repr, Inhabited

namespace EdgeLabels

/-- The labels of the edge into a dataset and of the edge out of the process found there. Backward,
these lead to the process that wrote the dataset and to what it read; forward to the process that
read it and to what it wrote. -/
def forDirection (labels : EdgeLabels) (backward : Bool) : Value × Value :=
  if backward then (labels.outputs, labels.inputs) else (labels.inputs, labels.outputs)

theorem forDirection_swap (labels : EdgeLabels) (backward : Bool) :
    labels.forDirection (!backward) = (labels.forDirection backward).swap := by
  cases backward <;> rfl

/-- Is the value one of the two labels? -/
def has (labels : EdgeLabels) (label : Value) : Bool :=
  label.same labels.inputs || label.same labels.outputs

end EdgeLabels

/-! ## 2. Types -/

/-- A declared type with its direct supertypes and its closure. -/
structure EntityType where
  name : Scalar
  superTypes : List Scalar
  closure : List Scalar
  deriving Repr, Inhabited

/-- **A hierarchy of types** with its markers and edge labels, in the order of declaration. -/
structure Taxonomy where
  datasetMarker : Value
  processMarker : Value
  labels : EdgeLabels
  types : List EntityType
  deriving Repr, Inhabited

namespace Taxonomy

/-- The declared type of a name. -/
def type? (t : Taxonomy) (name : Key) : Option EntityType :=
  t.types.find? fun e => e.name.key == name

/-- The closure of the type of a name; an undeclared type has an empty one. -/
def closureOf (t : Taxonomy) (name : Key) : List Scalar :=
  match t.type? name with
  | some e => e.closure
  | none => []

/-- The closure of the type that a value names. -/
def closure (t : Taxonomy) (typeName : Value) : Outcome (List Scalar) := do
  return t.closureOf (← typeName.key)

/-- Is a type of that name declared? -/
def knows (t : Taxonomy) (name : Key) : Bool := (t.type? name).isSome

/-- Does the value name a declared type? -/
def isKnown (t : Taxonomy) (typeName : Value) : Outcome Bool := do
  return t.knows (← typeName.key)

/-- Is a name of that key in the closure of the type? -/
def reaches (t : Taxonomy) (name marker : Key) : Bool :=
  (t.closureOf name).any fun s => s.key == marker

/-- **Does the type reach the marker?** -/
def isOfCategory (t : Taxonomy) (typeName marker : Value) : Outcome Bool := do
  let name ← typeName.key
  return t.reaches name (← marker.key)

theorem isOfCategory_text (t : Taxonomy) (name marker : String) :
    t.isOfCategory (.text name) (.text marker) = .ok (t.reaches (.text name) (.text marker)) := rfl

/-- Is the type dataset-like? -/
def isDataset (t : Taxonomy) (typeName : Value) : Outcome Bool :=
  t.isOfCategory typeName t.datasetMarker

/-- Is the type process-like? -/
def isProcess (t : Taxonomy) (typeName : Value) : Outcome Bool :=
  t.isOfCategory typeName t.processMarker

end Taxonomy

end DataLineage
