import DataLineage.Database.Session
import DataLineage.Taxonomy.Basic

/-!
# A graph read from a database

A node is a vertex: its id is the property `id`, its type the label that the taxonomy knows. A
relationship is an edge: its label is the type of the relationship, its id the property
`relationship_id`. The relationships that a script answers are its edges, whether they stand alone
or in lists; nodes are passed over, and any other value is passed over with a warning.

* `Store.typeName_known` -- a known label is preferred.
* `Store.checkNamed_text` -- a text is no collection of named values, unless it is empty.
* `Store.reported_foreign` -- only reports of the database itself are told as failed queries.
-/

namespace DataLineage

namespace Store

/-! ## 1. Vertices and edges -/

/-- **The type of a node**: the first label, in ascending order, that is known, or else the first
one. -/
def typeName (t : Taxonomy) (labels : List String) : String :=
  let ordered := sortTexts labels
  (ordered.find? fun l => t.knows (.text l)).getD (ordered.head?.getD "")

/-- A known label is preferred. -/
theorem typeName_known {t : Taxonomy} {labels : List String} {l : String}
    (h : ((sortTexts labels).find? fun l => t.knows (.text l)) = some l) :
    typeName t labels = l := by
  simp [typeName, h]

/-- The vertex of a node. -/
def vertex (t : Taxonomy) (c : Content) (number : Int) : Outcome Vertex :=
  let n := c.node number
  let id := Record.get n.properties "id"
  if id.isNull then .error (.lineage (.nodeWithoutId number) .null)
  else .ok ⟨id, .text (typeName t n.labels), n.properties⟩

/-- The edge of a relationship between two vertices. -/
def edgeBetween (r : Relationship) (source target : Vertex) : Edge where
  label := r.label
  source := source
  target := target
  relationshipId := Record.get r.properties "relationship_id"
  properties := r.properties

/-- The edge of a relationship. -/
def edge (t : Taxonomy) (c : Content) (r : Relationship) : Outcome Edge := do
  let source ← vertex t c r.start
  let target ← vertex t c r.finish
  return edgeBetween r source target

/-! ## 2. Parts of answers -/

/-- The part of a row under a name. -/
def part (row : AnswerRow) (name : String) : Outcome Item :=
  match row.lookup name with
  | some item => .ok item
  | none => .error .missingField

/-- The members of a part: the items of a list, the names of a node or relationship, the elements
of a value. -/
def members (c : Content) : Item → Outcome (List Item)
  | .list items => .ok items
  | .node n => .ok ((c.node n).properties.map fun f => .value (.scalar f.1))
  | .relationship r => .ok (r.properties.map fun f => .value (.scalar f.1))
  | .value v => do return (← v.elements).map .value

/-- Can the part identify something? -/
def checkIdentity : Item → Outcome Unit
  | .value v => discard v.key
  | .list _ => .error .wrongKind
  | _ => .ok ()

/-- Accepts a part with two members, the first of which can identify something. -/
def checkPair (c : Content) (item : Item) : Outcome Unit := do
  match ← members c item with
  | [name, _] => checkIdentity name
  | _ => throw .badValue

/-- Accepts a part that can be read as named values: a node, a relationship, a record, or any
collection of pairs. -/
def checkNamed (c : Content) (item : Item) : Outcome Unit :=
  match item with
  | .node _ => .ok ()
  | .relationship _ => .ok ()
  | .value (.record _) => .ok ()
  | other => do (← members c other).forM (checkPair c)

/-- **A text that is not empty holds no named values.** -/
theorem checkNamed_text (c : Content) (first : Char) (rest : List Char) :
    checkNamed c (.value (.text (String.ofList (first :: rest)))) = .error .badValue := by
  simp [checkNamed, members, Value.elements, checkPair, bind, Except.bind, pure, Except.pure,
    throw, throwThe, MonadExceptOf.throw]

/-- The vertex of a part that is a node. A relationship has properties but no labels; named values
alone have neither. -/
def vertexOf (t : Taxonomy) (c : Content) : Item → Outcome Vertex
  | .node n => vertex t c n
  | .relationship r =>
    if (Record.get r.properties "id").isNull then .error (.lineage (.nodeWithoutId r.number) .null)
    else .error .noSuchOperation
  | other => do
    checkNamed c other
    throw .noSuchOperation

/-- The edge of a row with a relationship and its two ends. -/
def edgeOf (t : Taxonomy) (c : Content) (row : AnswerRow) : Outcome Edge := do
  let r ← part row "r"
  let source ← vertexOf t c (← part row "source")
  let target ← vertexOf t c (← part row "target")
  checkNamed c r
  match r with
  | .relationship r => return edgeBetween r source target
  | _ => throw .noSuchOperation

/-- The name of the kind of a part, as reports write it. -/
def kindName : Item → String
  | .value v => v.kindName
  | .list _ => "list"
  | .node _ => "Node"
  | .relationship _ => "Relationship"

/-- The parts of a part: those of a list, or the part itself. -/
def parts : Item → List Item
  | .list items => items
  | .value (.list items) => items.map .value
  | item => [item]

/-! ## 3. Access -/

/-- The failure of a query, as it is told: reports of the database are wrapped, all else is not. -/
def reported : Fault → Fault
  | .database .foreign report => .database .foreign report
  | .database _ report => .lineage (.queryFailed report) .null
  | e => e

theorem reported_foreign (report : String) :
    reported (.database .foreign report) = .database .foreign report := rfl

/-- Sends a statement that reads. -/
def query (s : Statement) : Session (List AnswerRow) :=
  tryCatch (Session.perform s) fun e => throw (reported e)

/-- What the database contains. -/
def content : Session Content := return (← get).content

/-- The vertex with an id. -/
def find (t : Taxonomy) (id : Value) : Session (Option Vertex) := do
  match ← query (.findNode id) with
  | [] => return none
  | row :: _ =>
    let c ← content
    MonadExcept.ofExcept do return some (← vertexOf t c (← part row "n"))

/-- The edges of a label at a side of a vertex. -/
def edges (t : Taxonomy) (v : Vertex) (side : Side) (label : Value) : Session (List Edge) := do
  let rows ← query (.edgesAt side v.id label)
  let c ← content
  MonadExcept.ofExcept (rows.mapM (edgeOf t c))

/-- The edges with one more for a part that is a relationship; a part that is neither relationship
nor node is reported. -/
def collect (t : Taxonomy) (found : List Edge) (item : Item) : Session (List Edge) := do
  match item with
  | .relationship r =>
    let c ← content
    let e ← MonadExcept.ofExcept (edge t c r)
    return found ++ [e]
  | .node _ => return found
  | other =>
    Session.note .warning
      ("Invalid value of type " ++ kindName other ++ " found in lineage query result, ignoring")
    return found

/-- **The edges that a script answers**, in the order of rows, parts and lists. -/
def runScript (t : Taxonomy) (s : Script) : Session (List Edge) := do
  let rows ← query (.script s)
  (rows.flatMap fun row => row.flatMap fun p => parts p.2).foldlM (collect t) []

end Store

/-- **Access to the graph of a database** with the given content. -/
def Content.access (c : Content) (t : Taxonomy) : GraphAccess Session where
  order := c.nodes.size
  find := Store.find t
  edges := Store.edges t
  runScript := Store.runScript t

end DataLineage
