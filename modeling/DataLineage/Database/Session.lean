import DataLineage.Database.Statement

/-!
# Sessions with a database

A `Connection` holds what a database contains and what was sent to it. What the database answers is
not said here: it is a part of the connection, for every statement by how many were sent before it,
and so are the ids that are issued. `Session.perform` sends a statement, which counts as sent even if
the database fails.

To try sessions out there is a plain database: it answers what is laid down for it, or else what its
content says, in the order in which the content lists things (`Connection.answer`).

* `Connection.answer_find`, `Connection.answer_clear` -- what is computed for some statements.
-/

namespace DataLineage

/-! ## 1. Answers -/

/-- One part of an answer: a node, a relationship, a value, or a list of parts. -/
inductive Item where
  | node (number : Int)
  | relationship (r : Relationship)
  | value (v : Value)
  | list (items : List Item)
  deriving Repr, Inhabited

/-- One row of an answer: parts by name. -/
abbrev AnswerRow := List (String × Item)

/-- What is laid down for a statement: nothing, rows, or a failure. -/
inductive Reply where
  | computed
  | rows (rows : List AnswerRow)
  | failure (kind : DatabaseErrorKind) (report : String)
  deriving Repr, Inhabited

/-! ## 2. Connections -/

/-- A statement that was sent, with the name of the database it was meant for. -/
structure Sent where
  statement : Statement
  database : Value
  deriving Repr, Inhabited

/-- Is the statement a script, with parameters of its own? -/
def Statement.IsScript : Statement → Prop
  | .script _ => True
  | _ => False

/-- **A connection with a database.** `answers` gives what the database answers to a statement when so
many were sent before it, and `freshIds` the ids that are issued, counted from 1. A database fails
with reports of its own; only a script may lack a parameter. -/
structure Connection where
  content : Content
  answers : Nat → Statement → Outcome (List AnswerRow)
  reports : ∀ n s e, answers n s = .error e → ¬s.IsScript →
    ∃ kind report, e = .database kind report
  freshIds : Nat → String
  database : Value
  sent : Array Sent
  journal : Array LogEntry
  issuedIds : Nat

namespace Connection

/-- A relationship with its two ends, as an answer. -/
def relationshipRow (r : Relationship) : AnswerRow :=
  [("r", .relationship r), ("source", .node r.start), ("target", .node r.finish)]

/-- The number of the node at which a relationship is listed on a side. -/
def endAt (r : Relationship) : Side → Int
  | .incoming => r.finish
  | .outgoing => r.start

/-- What the content answers to a script that names two types: their relationships. -/
def answerScript (c : Content) (s : Script) : Outcome (List AnswerRow) :=
  match Record.get? s.bindings "incomingEdgeLabel" with
  | some incoming => do
    let outgoing ← Statement.parameterOf s "outgoingEdgeLabel"
    return (c.relationships.toList.filter fun r =>
      r.label.same incoming || r.label.same outgoing).map relationshipRow
  | none => .ok []

/-- **What the content answers to a statement.** -/
def answer (c : Content) (s : Statement) : Outcome (List AnswerRow) := do
  match ← s.meant with
  | .findNode id =>
    match c.findNode id with
    | some n => return [[("n", .node n)]]
    | none => return []
  | .edgesAt side id label =>
    return ((c.ofType label).filter fun r => (c.idOf (endAt r side)).equal id).map relationshipRow
  | .script s => answerScript c s
  | _ => return []

theorem answer_clear (c : Content) : answer c .clear = .ok [] := rfl

/-- A node that is found is answered alone. -/
theorem answer_find {c : Content} {id : Value} {n : Int} (h : c.findNode id = some n) :
    answer c (.findNode id) = .ok [[("n", .node n)]] := by
  simp [answer, Statement.meant, h, bind, Except.bind, pure, Except.pure]

/-- What is answered where something is laid down: just that, or what the content says. -/
def answerLaid (c : Content) (laid : Option Reply) (s : Statement) : Outcome (List AnswerRow) :=
  match laid with
  | some (.rows rows) => .ok rows
  | some (.failure kind report) => .error (.database kind report)
  | _ => answer c s

/-- Only a script is answered with a failure that is not laid down. -/
theorem answerLaid_reports (c : Content) (laid : Option Reply) {s : Statement} {e : Fault}
    (h : answerLaid c laid s = .error e) (hs : ¬s.IsScript) :
    ∃ kind report, e = .database kind report := by
  have hanswer : answer c s ≠ .error e := by
    cases s with
    | findNode id =>
        cases hn : c.findNode id <;>
          simp [answer, Statement.meant, hn, bind, Except.bind, pure, Except.pure]
    | script s => exact absurd trivial hs
    | _ => nofun
  unfold answerLaid at h
  split at h
  · cases h
  · cases h
    exact ⟨_, _, rfl⟩
  · exact absurd h hanswer

/-- **A connection with a database to try things out**, over which nothing was sent yet: the replies
are for the first statements, one for each. The ids that it issues are counted. -/
def start (content : Content) (replies : List Reply) (database : Value) : Connection where
  content := content
  answers n := answerLaid content replies[n]?
  reports _ _ _ := answerLaid_reports content _
  freshIds n := "generated-" ++ toString n
  database := database
  sent := #[]
  journal := #[]
  issuedIds := 0

instance : Inhabited Connection := ⟨start default [] .null⟩

end Connection

/-! ## 3. Sessions -/

/-- A computation with a connection, which can fail without losing what was sent. -/
abbrev Session := ExceptT Fault (StateM Connection)

namespace Session

/-- **Sends a statement** and gives the rows of its answer. -/
def perform (s : Statement) : Session (List AnswerRow) := do
  let c ← get
  set { c with sent := c.sent.push ⟨s, c.database⟩ }
  MonadExcept.ofExcept (c.answers c.sent.size s)

/-- Enters a line into the journal. -/
def note (level : LogLevel) (text : String) : Session Unit :=
  modify fun c => { c with journal := c.journal.push ⟨level, text⟩ }

/-- The next id that is issued. -/
def freshId : Session String := do
  let c ← get
  let n := c.issuedIds + 1
  set { c with issuedIds := n }
  return c.freshIds n

end Session

end DataLineage
