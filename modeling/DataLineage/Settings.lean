import DataLineage.Fault
import DataLineage.Text.Basic

/-!
# Settings

How a service is set up, read from named variables of the environment: where the database is, how
lineages are resolved, and which type model is used. Each setting can be replaced by any value; what
a value means is decided where the setting is used.

The documents that are read are named by paths. A path is kept in its shortest spelling: doubled
separators and single dots are left out, and the empty path is a single dot, the working directory.

* `Path.normal_empty`, `Path.joined_absolute` -- the special cases of paths.
* `Settings.ofEnvironment_empty` -- the settings where no variable is set.
* `Settings.typeModelLocation_text` -- a path that is set is where the type model is.
-/

namespace DataLineage

namespace Path

/-- The parts of a path between its separators. -/
def parts (path : List Char) : List (List Char) :=
  (path.splitBy fun a b => (a == '/') == (b == '/')).filter fun part =>
    part.head? != some '/' && part != ['.']

/-- The root of a path: one separator, or two where exactly two lead. -/
def root (path : List Char) : List Char :=
  match path with
  | '/' :: '/' :: '/' :: _ => ['/']
  | '/' :: '/' :: _ => ['/', '/']
  | '/' :: _ => ['/']
  | _ => []

/-- **The shortest spelling of a path.** -/
def normal (path : String) : String :=
  let start := root path.toList
  let spelling := start ++ ['/'].intercalate (parts path.toList)
  if spelling.isEmpty then "." else String.ofList spelling

theorem normal_empty : normal "" = "." := by decide +kernel

example : normal "a//b/./c/" = "a/b/c" := by decide +kernel

example : normal "//a/../b" = "//a/../b" := by decide +kernel

/-- Does the path start at the root? -/
def isAbsolute (path : String) : Bool := path.toList.head? == some '/'

/-- The path of a file in a directory; an absolute one is outside of it. -/
def joined (directory file : String) : String :=
  if isAbsolute file then normal file
  else normal (normal directory ++ "/" ++ file)

/-- An absolute path does not depend on the directory. -/
theorem joined_absolute (directory file : String) (h : isAbsolute file = true) :
    joined directory file = normal file := by
  simp [joined, h]

end Path

/-- Where a document is: among those that come with the library, or in a file. -/
inductive Location where
  | bundledTypeModel
  | bundledSeed
  | file (path : String)
  deriving DecidableEq, Repr, Inhabited

namespace Location

/-- The directory of the documents that come with the library. -/
def bundledDirectory : String := "metamodel"

/-- The path of a document that comes with the library; without a name, of their directory. -/
def bundledPath (name : String) : String :=
  if name.isEmpty then bundledDirectory else Path.joined bundledDirectory name

/-- The path of a document. -/
def path : Location → String
  | bundledTypeModel => bundledPath "type_model.yaml"
  | bundledSeed => bundledPath "seed_lineage.yaml"
  | file path => Path.normal path

end Location

/-- **How a service is set up.** -/
structure Settings where
  uri : Value
  user : Value
  password : Value
  database : Value
  usePatterns : Value
  typeModel : Value
  defaultDepth : Value
  maxVertices : Value
  requireBoth : Value
  deriving Repr, Inhabited

namespace Settings

/-- The texts that switch something on. -/
def switchedOn : List String := ["1", "true", "yes", "on"]

/-- Does the text of a variable switch something on? -/
def isOn (text : String) : Bool := switchedOn.contains (Text.inSmall (Text.trim text))

/-- The whole number that a variable holds. -/
def number (text : String) : Outcome Int :=
  match Text.readInt? text with
  | some n => .ok n
  | none => .error .badValue

/-- **The settings of an environment**, which answers the text of each variable that is set. -/
def ofEnvironment (textOf : String → Option String) : Outcome Settings := do
  let get (name default : String) : String := (textOf name).getD default
  let defaultDepth ← number (get "LINEAGE_DEFAULT_DEPTH" "3")
  let maxVertices ← number (get "LINEAGE_MAX_VERTICES" "0")
  return {
    uri := .text (get "NEO4J_URI" "bolt://localhost:7687")
    user := .text (get "NEO4J_USER" "neo4j")
    password := .text (get "NEO4J_PASSWORD" "password")
    database := .text (get "NEO4J_DATABASE" "neo4j")
    usePatterns := .bool (isOn (get "LINEAGE_USING_CYPHER" "false"))
    typeModel := .text (get "LINEAGE_TYPE_MODEL" "")
    defaultDepth := .int defaultDepth
    maxVertices := .int maxVertices
    requireBoth := .bool (isOn (get "LINEAGE_EXPANDED_REQUIRE_BOTH_VISIBLE" "false"))
  }

/-- Where the type model is: at the path that is set, or among the bundled documents. -/
def typeModelLocation (s : Settings) : Outcome Location :=
  if s.typeModel.truth then
    match s.typeModel with
    | .text path => .ok (.file path)
    | _ => .error .wrongKind
  else .ok .bundledTypeModel

/-- **A path that is set is where the type model is.** -/
theorem typeModelLocation_text (s : Settings) (path : String) (hs : s.typeModel = .text path) :
    s.typeModelLocation =
      .ok (if path.isEmpty then .bundledTypeModel else .file path) := by
  have ht : s.typeModel.truth = !path.isEmpty := by rw [hs]; rfl
  unfold typeModelLocation
  rw [ht, hs]
  cases path.isEmpty <;> rfl

/-- The settings as a record under the names of their variables. -/
def toValue (s : Settings) : Value :=
  .record [
    ("NEO4J_URI", s.uri),
    ("NEO4J_USER", s.user),
    ("NEO4J_PASSWORD", s.password),
    ("NEO4J_DATABASE", s.database),
    ("LINEAGE_USING_CYPHER", s.usePatterns),
    ("LINEAGE_TYPE_MODEL", s.typeModel),
    ("LINEAGE_DEFAULT_DEPTH", s.defaultDepth),
    ("LINEAGE_MAX_VERTICES", s.maxVertices),
    ("LINEAGE_EXPANDED_REQUIRE_BOTH_VISIBLE", s.requireBoth)]

/-- The settings where no variable is set. -/
def standard : Settings where
  uri := .text "bolt://localhost:7687"
  user := .text "neo4j"
  password := .text "password"
  database := .text "neo4j"
  usePatterns := .bool false
  typeModel := .text ""
  defaultDepth := .int 3
  maxVertices := .int 0
  requireBoth := .bool false

/-- **Where no variable is set the settings are the standard ones.** -/
theorem ofEnvironment_empty : ofEnvironment (fun _ => none) = .ok standard := by
  have h3 : number "3" = .ok 3 := by
    have : Text.readInt? "3" = some 3 := by decide +kernel
    simp [number, this]
  have h0 : number "0" = .ok 0 := by
    have : Text.readInt? "0" = some 0 := by decide +kernel
    simp [number, this]
  have hf : isOn "false" = false := by decide +kernel
  simp [ofEnvironment, h3, h0, hf, bind, Except.bind, pure, Except.pure, standard]

end Settings

end DataLineage
