import DataLineage.Catalog
import DataLineage.Settings

/-!
# Finding documents

A document is one of those that come with the library, or is read from a file. Type models and seed
data have to be records; a document without content counts as an empty one.

* `Document.mapping_null`, `Document.mapping_record` -- which documents are accepted.
-/

namespace DataLineage

namespace Document

/-- The content of a document as a record. -/
def mapping (path : String) : Value → Outcome Value
  | .null => .ok (.record [])
  | .record fields => .ok (.record fields)
  | other => .error (.typeModel (.notMapping path other.kindName))

theorem mapping_null (path : String) : mapping path .null = .ok (.record []) := rfl

/-- **A record is accepted as it is.** -/
theorem mapping_record (path : String) (fields : Record) :
    mapping path (.record fields) = .ok (.record fields) := rfl

section

variable {m : Type → Type} [Monad m] [MonadExceptOf Fault m]

/-- The document at a place, with files read by the given action. -/
def content (readFile : String → m Value) : Location → m Value
  | .bundledTypeModel => pure Catalog.typeModel
  | .bundledSeed => pure Catalog.seed
  | .file path => readFile (Path.normal path)

/-- **The record at a place.** -/
def load (readFile : String → m Value) (place : Location) : m Value := do
  MonadExcept.ofExcept (mapping place.path (← content readFile place))

/-- The taxonomy of the type model at a place. -/
def loadTaxonomy (readFile : String → m Value) (place : Location) : m Taxonomy := do
  MonadExcept.ofExcept (Taxonomy.ofModel (← load readFile place))

end

end Document

end DataLineage
