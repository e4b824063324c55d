import DataLineage.Taxonomy.Closure

/-!
# Reading a type model

A type model is a record with the fields `categories`, `edge_labels` and `entity_types`, each of
them optional. It is accepted when the two edge labels differ, every named supertype is declared
and no type is above itself.

* `Taxonomy.ofModel` -- the taxonomy of a model, or the first rule that the model breaks.
-/

namespace DataLineage

namespace TypeModel

/-- The field of a part of the model; a missing field takes the default, a null one does not. -/
def setting (part : Value) (name default : String) : Outcome Value := do
  return (← part.field? name).getD (.text default)

/-- The part of a model under a name; a part that counts as false is an empty record. -/
def part (model : Value) (name : String) : Outcome Value := do
  return (← model.field name).orElse (.record [])

/-- The direct supertypes that a definition names: one text, or the elements of a collection. -/
def superTypes (definition : Value) : Outcome (List Value) := do
  let named := (← (definition.orElse (.record [])).field "super_types").orElse (.list [])
  match named with
  | .text name => return [.text name]
  | other => other.elements

/-- The names of declared supertypes; the first one that is not declared is reported, if it and the
type can be written. -/
def declared (types : Record) (typeName : Scalar) (named : List Value) : Outcome (List Scalar) :=
  named.mapM fun v => do
    let name ← v.identifier
    if Record.hasKey types name.key then return name
    else if typeName.isWritable && name.isWritable then
      throw (.typeModel (.unknownSuperType typeName v))
    else throw .badValue

/-- The declared types of a model with their direct supertypes. -/
def declarations (model : Value) : Outcome Declarations := do
  match ← part model "entity_types" with
  | .record types =>
    types.mapM fun (typeName, definition) => do
      return (typeName, ← declared types typeName (← superTypes definition))
  | _ => throw (.typeModel .typesNotRecord)

end TypeModel

open TypeModel in
/-- **The taxonomy of a type model.** -/
def Taxonomy.ofModel (model : Value) : Outcome Taxonomy := do
  let categories ← part model "categories"
  let datasetMarker ← setting categories "dataset" "DataSet"
  let processMarker ← setting categories "process" "Process"
  let edges ← part model "edge_labels"
  let inputs ← setting edges "process_inputs" "consumes-input"
  let outputs ← setting edges "process_outputs" "produces-output"
  if inputs.equal outputs then
    throw (.typeModel .equalLabels)
  let ds ← declarations model
  let closures ← Closure.all ds
  return {
    datasetMarker, processMarker
    labels := ⟨inputs, outputs⟩
    types := ds.map fun (name, supers) => ⟨name, supers, (closures.lookup name.key).getD []⟩
  }

end DataLineage
