import DataLineage.Database.Loader
import DataLineage.Proofs.Graph.Rows

/-!
# The statements of a load

A session is a chain of steps over a connection, and sending a statement is one of them. The
statements of a load are made of the seed data alone:

* `Session.bind_of_ok`, `Session.perform_run` -- how a session goes on, and what sending a statement
  comes to;
* `Loader.constraintStatements`, `Loader.nodeStatements` -- what is sent for the types and their
  rows;
* `Loader.buckets`, `Loader.mem_addRow` -- the rows of relationships, those of one type together;
* `Loader.label_text` -- a label that can be quoted is a text;
* `Content.after`, `Connection.left` -- what statements leave in the plain database.
-/

namespace DataLineage

/-! ## 1. Sessions -/

namespace Session

variable {α β : Type} {a : α}

theorem bind_of_ok {x : Session α} {f : α → Session β} {conn conn₁ : Connection}
    (h : x.run.run conn = (.ok a, conn₁)) : (x >>= f).run.run conn = (f a).run.run conn₁ := by
  rw [ExceptT.run_bind, StateT.run_bind, h]
  rfl

theorem bind_of_error {x : Session α} {f : α → Session β} {e : Fault} {conn conn₁ : Connection}
    (h : x.run.run conn = (.error e, conn₁)) : (x >>= f).run.run conn = (.error e, conn₁) := by
  rw [ExceptT.run_bind, StateT.run_bind, h]
  rfl

/-- What is worked out without the database leaves the connection alone. -/
theorem ofExcept_run (x : Outcome α) (conn : Connection) :
    (MonadExcept.ofExcept x : Session α).run.run conn = (x, conn) := by
  cases x <;> rfl

end Session

/-- The connection once the statement was sent over it. -/
def Connection.told (conn : Connection) (s : Statement) : Connection :=
  { conn with sent := conn.sent.push ⟨s, conn.database⟩ }

/-- **A statement that is sent is answered**, and counts as sent in any case. -/
theorem Session.perform_run (s : Statement) (conn : Connection) :
    (perform s).run.run conn = (conn.answers conn.sent.size s, conn.told s) :=
  ofExcept_run (conn.answers conn.sent.size s) (conn.told s)

/-! ## 2. What a load sends -/

namespace Loader

/-- The row of a relationship. -/
def rowOf (r : SeedRelationship) : Record :=
  [("from_id", r.source), ("to_id", r.target), ("relationship_id", r.id)]

/-- The buckets with one more relationship, in the bucket of its label. -/
def enter (bs : List Bucket) (r : SeedRelationship) : List Bucket :=
  match r.label with
  | .scalar l => addRow bs l (rowOf r)
  | _ => bs

/-- The buckets of relationships that have ids. -/
def buckets (rs : List SeedRelationship) : List Bucket := rs.foldl enter []

/-- The label between backquotes. -/
def quoted (label : Scalar) : String := "\x60" ++ (Value.scalar label).display ++ "\x60"

/-- The statements that make ids unique. -/
def constraintStatements (seed : Seed) : List Statement :=
  seed.assets.flatMap fun a => [.uniqueId (Value.scalar a.1).display]

/-- The statements that merge the nodes of the types that have rows. -/
def nodeStatements (seed : Seed) : List Statement :=
  seed.assets.flatMap fun a => if a.2.isEmpty then []
    else [.mergeNodes (Value.scalar a.1).display (.list (a.2.map .record))]

/-- Only relationships are put into buckets. -/
theorem mem_addRow {bs : List Bucket} {l : Scalar} {row : Record} {b : Bucket}
    (h : b ∈ addRow bs l row) : b.label = l ∨ ∃ b' ∈ bs, b.label = b'.label := by
  induction bs with
  | nil =>
      obtain rfl := List.mem_singleton.mp h
      exact .inl rfl
  | cons x rest ih =>
      unfold addRow at h
      split at h
      · rcases List.mem_cons.mp h with rfl | h
        · exact .inr ⟨x, List.mem_cons_self, rfl⟩
        · exact .inr ⟨b, List.mem_cons_of_mem _ h, rfl⟩
      · rcases List.mem_cons.mp h with rfl | h
        · exact .inr ⟨_, List.mem_cons_self, rfl⟩
        · exact (ih h).imp_right fun ⟨b', hb', hl⟩ => ⟨b', List.mem_cons_of_mem _ hb', hl⟩

end Loader

/-- Of scalars, only texts are safe names. -/
theorem Loader.safe_text {name : Scalar} {v : Value} (h : safeIdentifier (.scalar name) = .ok v) :
    ∃ s, name = .text s := by
  cases name with
  | text s => exact ⟨s, rfl⟩
  | _ =>
      unfold safeIdentifier at h
      split at h <;> cases h

/-- Of scalars, only texts can be quoted. -/
theorem Loader.quote_text {label : Scalar} {q : String}
    (h : quoteRelationshipType (.scalar label) = .ok q) : ∃ s, label = .text s := by
  cases label with
  | text s => exact ⟨s, rfl⟩
  | _ =>
      unfold quoteRelationshipType at h
      split at h <;> cases h

/-- **A lineage label that can be quoted is a text**, where the labels of the taxonomy are
scalars. -/
theorem Loader.label_text {labels : EdgeLabels} {label : Value} {q : String}
    (hi : ∃ s, labels.inputs = .scalar s) (ho : ∃ s, labels.outputs = .scalar s)
    (hq : quoteRelationshipType label = .ok q) (hl : labels.has label = true) :
    ∃ s, label = .text s := by
  obtain ⟨i, hi⟩ := hi
  obtain ⟨o, ho⟩ := ho
  rw [EdgeLabels.has, hi, ho] at hl
  cases label with
  | scalar l =>
      obtain ⟨s, rfl⟩ := quote_text hq
      exact ⟨s, rfl⟩
  | _ => cases hl

namespace Loader

/-- A label that can be quoted is put between backquotes. -/
theorem quote_eq {label : Scalar} {q : String}
    (h : quoteRelationshipType (.scalar label) = .ok q) : q = quoted label := by
  unfold quoteRelationshipType at h
  cases ht : (Value.scalar label).truth with
  | false =>
      rw [ht] at h
      cases h
  | true =>
      rw [ht] at h
      obtain ⟨inside, _, h⟩ := Outcome.bind_eq_ok.mp h
      cases inside with
      | true => cases h
      | false => exact (Except.ok.inj h).symm

end Loader

/-! ## 3. What statements leave -/

namespace Content

/-- The content with a node for one more row of a type. -/
def addNode (label : String) (c : Content) (row : Value) : Content :=
  match row with
  | .record fields => { c with nodes := c.nodes.push ⟨[label], existing fields⟩ }
  | _ => c

/-- The content with a relationship for one more row, between the nodes that the row names. -/
def addRelationship (label : String) (c : Content) (row : Record) : Content :=
  match c.findNode (Record.get row "from_id"), c.findNode (Record.get row "to_id") with
  | some start, some finish =>
    { c with relationships := c.relationships.push {
        number := c.relationships.size
        label := .text label
        start, finish
        properties := existing [("relationship_id", Record.get row "relationship_id")] } }
  | _, _ => c

/-- The text between two backquotes. -/
def unquoted (quoted : String) : String := String.ofList quoted.toList.tail.dropLast

/-- **What a statement leaves of the content**, where rows to be merged are new: clearing leaves
nothing, and merging makes a node or a relationship of each row. -/
def after (c : Content) : Statement → Content
  | .clear => ⟨#[], #[]⟩
  | .mergeNodes label (.list rows) => rows.foldl (addNode label) c
  | .mergeRelationships quotedType rows => rows.foldl (addRelationship (unquoted quotedType)) c
  | _ => c

end Content

/-- What the statements that were sent leave of a content. -/
def Connection.left (conn : Connection) (c : Content) : Content :=
  (conn.sent.toList.map (·.statement)).foldl Content.after c

end DataLineage
