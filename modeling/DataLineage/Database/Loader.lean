import DataLineage.Database.Session
import DataLineage.Graph.Seed
import DataLineage.Text.Alphanumeric

/-!
# Loading seed data into a database

Seed data is checked first; then the database is cleared, ids are made unique for every type, and
nodes and relationships are merged, all nodes before any relationship. Labels and types stand in
the text of statements, so only safe ones are let through.

* `Loader.safeIdentifier_text` -- which texts are safe labels.
* `Loader.loadAll_invalid` -- invalid seed data is reported before anything is sent.
-/

namespace DataLineage

/-! ## 1. Safe names -/

namespace Loader

/-- Is the part of a label safe: letters and digits alone, or an underscore? -/
def isSafePart (part : Value) : Outcome Bool :=
  match part with
  | .text s => .ok ((!s.isEmpty && s.toList.all Text.isAlphanumeric) || s == "_")
  | _ => .error .noSuchOperation

/-- Are all parts safe? The first one that is not decides. -/
def allSafe : List Value → Outcome Bool
  | [] => .ok true
  | part :: rest => do
    if ← isSafePart part then allSafe rest else return false

/-- **A label that may stand in a statement.** -/
def safeIdentifier (name : Value) : Outcome Value :=
  if name.truth then do
    if ← allSafe (← name.elements) then return name
    else throw (.seed (.unsafeIdentifier name))
  else .error (.seed (.unsafeIdentifier name))

/-- A relationship type between backquotes. -/
def quoteRelationshipType (label : Value) : Outcome String := do
  if !label.truth then
    throw (.seed (.unsafeRelationshipType label))
  if ← (Value.text "\x60").isElementOf label then
    throw (.seed (.unsafeRelationshipType label))
  return "\x60" ++ label.display ++ "\x60"

/-! ## 2. Statements -/

/-- Removes everything from the database. -/
def clear : Session Unit := do
  Session.note .info "Clearing graph"
  let _ ← Session.perform .clear

/-- Makes ids unique among the nodes of each type. -/
def createConstraints (typeNames : List Value) : Session Unit :=
  typeNames.forM fun typeName => do
    let label ← MonadExcept.ofExcept (safeIdentifier typeName)
    let _ ← Session.perform (.uniqueId label.display)

/-- How many members a value has; a scalar other than a text has none to count. -/
def memberCount (v : Value) : Outcome Nat := do return (← v.elements).length

/-- Merges the nodes of each type that has rows. -/
def createNodes (assets : Record) : Session Unit :=
  assets.forM fun (typeName, rows) => do
    if rows.truth then
      let label ← MonadExcept.ofExcept (safeIdentifier (.scalar typeName))
      let _ ← Session.perform (.mergeNodes label.display rows)
      let count ← MonadExcept.ofExcept (memberCount rows)
      Session.note .info ("Loaded " ++ toString count ++ " " ++ label.display ++ " nodes")

/-- Rows of relationships under one type. -/
structure Bucket where
  label : Scalar
  rows : List Record
  deriving Repr, Inhabited

/-- The buckets with one more row, at the end of the bucket of its type. -/
def addRow : List Bucket → Scalar → Record → List Bucket
  | [], label, row => [⟨label, [row]⟩]
  | b :: rest, label, row =>
    if b.label.key = label.key then ⟨b.label, b.rows ++ [row]⟩ :: rest
    else b :: addRow rest label row

/-- Puts a relationship into its bucket; one without id is given a new one. -/
def addToBucket (buckets : List Bucket) (r : SeedRelationship) : Session (List Bucket) := do
  let label ← MonadExcept.ofExcept r.label.identifier
  let id ← if r.id.truth then pure r.id else Value.text <$> Session.freshId
  return addRow buckets label [("from_id", r.source), ("to_id", r.target), ("relationship_id", id)]

/-- Merges the relationships, those of one type together. -/
def createRelationships (relationships : List SeedRelationship) : Session Unit := do
  let buckets ← relationships.foldlM addToBucket []
  buckets.forM fun b => do
    let quoted ← MonadExcept.ofExcept (quoteRelationshipType (.scalar b.label))
    let _ ← Session.perform (.mergeRelationships quoted b.rows)
    Session.note .info
      ("Loaded " ++ toString b.rows.length ++ " " ++ (Value.scalar b.label).display ++
        " relationships")

/-! ## 3. Seed data -/

/-- The assets of seed data as rows by type name. -/
def assetRows (seed : Seed) : Record :=
  seed.assets.map fun (typeName, records) => (typeName, .list (records.map .record))

/-- Loads accepted seed data. -/
def load (seed : Seed) (clearFirst constraints : Bool) : Session Unit := do
  if clearFirst then
    clear
  if constraints then
    createConstraints (seed.assets.map fun a => .scalar a.1)
  createNodes (assetRows seed)
  createRelationships seed.relationships
  Session.note .info
    ("Graph load complete: " ++ toString seed.assets.length ++ " types, " ++
      toString seed.relationships.length ++ " relationships")

/-- **Checks seed data and loads it.** -/
def loadAll (t : Taxonomy) (data : Value) (clearFirst constraints : Bool) : Session Unit := do
  let seed ← MonadExcept.ofExcept (Seed.validate t data)
  load seed clearFirst constraints

/-- A letter, a digit or an underscore. -/
def isSafeChar (c : Char) : Bool := Text.isAlphanumeric c || c == '_'

/-- A part of one character is safe exactly when the character is. -/
theorem isSafePart_singleton (c : Char) :
    isSafePart (.text c.toString) = .ok (isSafeChar c) := by
  have h : (String.singleton c == "_") = (c == '_') := by
    rw [Bool.eq_iff_iff]
    simp [← String.toList_inj]
  have he : (String.singleton c).isEmpty = false := by simp
  simp [isSafePart, isSafeChar, h, he]

/-- Characters are safe together exactly when each of them is. -/
theorem allSafe_characters (cs : List Char) :
    allSafe (cs.map fun c => .text c.toString) = .ok (cs.all isSafeChar) := by
  induction cs with
  | nil => rfl
  | cons c rest ih =>
    simp only [List.map_cons, allSafe, isSafePart_singleton, ih, List.all_cons, bind, Except.bind]
    cases isSafeChar c <;> rfl

/-- **A text is a safe label when it is not empty and has letters, digits and underscores
alone**; any other text is reported. -/
theorem safeIdentifier_text (s : String) :
    safeIdentifier (.text s) =
      if !s.isEmpty && s.toList.all isSafeChar then .ok (.text s)
      else .error (.seed (.unsafeIdentifier (.text s))) := by
  have h : safeIdentifier (.text s) =
      if !s.isEmpty then do
        if ← allSafe (s.toList.map fun c => .text c.toString) then return .text s
        else throw (.seed (.unsafeIdentifier (.text s)))
      else .error (.seed (.unsafeIdentifier (.text s))) := rfl
  rw [h, allSafe_characters]
  cases s.isEmpty <;> cases s.toList.all isSafeChar <;> rfl

/-- **Invalid seed data is reported before anything is sent.** -/
theorem loadAll_invalid {t : Taxonomy} {data : Value} {e : Fault}
    (h : Seed.validate t data = .error e) (clearFirst constraints : Bool) (c : Connection) :
    (loadAll t data clearFirst constraints).run.run c = (.error e, c) := by
  unfold loadAll
  rw [h]
  rfl

end Loader

end DataLineage
