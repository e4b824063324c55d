import DataLineage.Database.Content

/-!
# Statements

What is sent to a database: the queries that read vertices and edges, scripts, and the statements
that load a graph. Each has a text in the query language of the database and the values of its
parameters; labels and types cannot be parameters, so they stand in the text. A script with the
very text of a reading statement is that statement.

* `Statement.parameters_clear` -- schema and clearing statements have no parameters.
-/

namespace DataLineage

/-- **A statement for a database.** -/
inductive Statement where
  /-- finds a node by its id -/
  | findNode (id : Value)
  /-- lists the relationships of a type at a side of the nodes with an id -/
  | edgesAt (side : Side) (id label : Value)
  /-- any text with its parameters -/
  | script (s : Script)
  /-- removes every node and relationship -/
  | clear
  /-- makes the id unique among the nodes with a label -/
  | uniqueId (label : String)
  /-- merges one node with a label for each row -/
  | mergeNodes (label : String) (rows : Value)
  /-- merges one relationship of a quoted type for each row -/
  | mergeRelationships (quotedType : String) (rows : List Record)
  deriving Repr, Inhabited

namespace Statement

/-! ## 1. Texts and parameters -/

/-- The text that finds a node. -/
def findNodeText : String := "\nMATCH (n \x7bid: $vertex_id\x7d)\nRETURN n\nLIMIT 1\n"

/-- The text that lists relationships at a side. -/
def edgesAtText : Side → String
  | .outgoing =>
    "\nMATCH (n \x7bid: $vertex_id\x7d)-[r]->(m)\nWHERE type(r) = $label\n" ++
      "RETURN r, n AS source, m AS target\n"
  | .incoming =>
    "\nMATCH (n \x7bid: $vertex_id\x7d)<-[r]-(m)\nWHERE type(r) = $label\n" ++
      "RETURN r, m AS source, n AS target\n"

/-- The text of a statement. -/
def text : Statement → String
  | findNode _ => findNodeText
  | edgesAt side _ _ => edgesAtText side
  | script s => s.text
  | clear => "MATCH (n) DETACH DELETE n"
  | uniqueId label =>
    "CREATE CONSTRAINT uniq_" ++ label ++ "_id IF NOT EXISTS FOR (n:" ++ label ++
      ") REQUIRE n.id IS UNIQUE"
  | mergeNodes label _ =>
    "UNWIND $rows AS row MERGE (n:" ++ label ++ " \x7bid: row.id\x7d) SET n += row"
  | mergeRelationships quotedType _ =>
    "UNWIND $rows AS row MATCH (a \x7bid: row.from_id\x7d) MATCH (b \x7bid: row.to_id\x7d) " ++
      "MERGE (a)-[r:" ++ quotedType ++ " \x7brelationship_id: row.relationship_id\x7d]->(b)"

/-- The parameters of a statement, null for a statement that takes none. -/
def parameters : Statement → Value
  | findNode id => .record [("vertex_id", id)]
  | edgesAt _ id label => .record [("vertex_id", id), ("label", label)]
  | script s => .record s.bindings
  | clear => .null
  | uniqueId _ => .null
  | mergeNodes _ rows => .record [("rows", rows)]
  | mergeRelationships _ rows => .record [("rows", .list (rows.map .record))]

/-- Statements about the whole database have no parameters. -/
theorem parameters_clear (label : String) :
    clear.parameters = .null ∧ (uniqueId label).parameters = .null := ⟨rfl, rfl⟩

/-! ## 2. Scripts that are statements -/

/-- The value of a parameter that a script needs. -/
def parameterOf (s : Script) (name : String) : Outcome Value :=
  match Record.get? s.bindings name with
  | some v => .ok v
  | none => .error .missingField

/-- The statement that a script means: one that reads if it has its text, or else the script. -/
def ofScript (s : Script) : Outcome Statement := do
  if s.text = findNodeText then
    return findNode (← parameterOf s "vertex_id")
  else if s.text = edgesAtText .outgoing then
    return edgesAt .outgoing (← parameterOf s "vertex_id") (← parameterOf s "label")
  else if s.text = edgesAtText .incoming then
    return edgesAt .incoming (← parameterOf s "vertex_id") (← parameterOf s "label")
  else return script s

/-- **What a statement means to a database**, which knows it by its text. -/
def meant : Statement → Outcome Statement
  | script s => ofScript s
  | s => .ok s

end Statement

end DataLineage
