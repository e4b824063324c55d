import DataLineage.Command.Run
import DataLineage.Database.Store
import DataLineage.Document.Json
import DataLineage.Document.Source
import DataLineage.Service

/-!
# The command that resolves a lineage

The lineage around a root is printed as JSON. The graph is the one of a seed document, held in
memory, or else the one of the database of the settings.

* `Resolve.readDirection_name` -- a direction is given by its name in capitals.
* `Resolve.lastOr_nil` -- an option that is not given has its default.
-/

namespace DataLineage.Resolve

open Options (Spec Given)

/-! ## 1. Command line -/

/-- The options of the command. -/
def specs : List Spec :=
  Options.helpSpecs ++ [
    ⟨"--direction", .one⟩,
    ⟨"--depth", .one⟩,
    ⟨"--hide-process", .flag⟩,
    ⟨"--attribute", .one⟩,
    ⟨"--seed", .optional⟩,
    ⟨"--verbose", .flag⟩]

/-- What is asked for. -/
structure Asked where
  guid : String
  direction : Value
  depth : Value
  hideProcess : Bool
  attributes : List Value
  seed : Option Location
  deriving Repr, Inhabited

/-- A direction given by its name, exactly. -/
def readDirection (text : String) : Option Value :=
  (Direction.ofName? text).map fun d => .text d.name

/-- **A direction is given by its name in capitals.** -/
theorem readDirection_name (d : Direction) : readDirection d.name = some (.text d.name) := by
  simp [readDirection, Direction.ofName?_name]

/-- A depth given by a numeral. -/
def readDepth (text : String) : Option Value := (Text.readInt? text).map .int

/-- What the values of an option stand for: one value is read, no value is the empty list. -/
def readOne (read : String → Option Value) : List String → Option Value
  | text :: _ => read text
  | [] => some (.list [])

/-- The last of several values, or the default where there is none. -/
def lastOr (default : Option Value) (values : List Value) : Option Value :=
  match values.getLast? with
  | some v => some v
  | none => default

/-- An option that is not given has its default. -/
theorem lastOr_nil (default : Option Value) : lastOr default [] = default := rfl

/-- The depth where none is given: the default of the settings, read where it is a text. -/
def defaultDepth (s : Settings) : Option Value :=
  match s.defaultDepth with
  | .text t => readDepth t
  | v => some v

/-- The directions that are given, if each of them is one. -/
def directionsOf (given : Given) : Option (List Value) :=
  (given.values "--direction").mapM (readOne readDirection)

/-- The depths that are given, if each of them is one. -/
def depthsOf (given : Given) : Option (List Value) :=
  (given.values "--depth").mapM (readOne readDepth)

/-- What a command line asks for; the last value of an option counts. -/
def optionsOf (s : Settings) (given : Given) : Option Asked := do
  let attributes ← (given.values "--attribute").mapM (readOne fun text => some (.text text))
  let direction ← lastOr (some (.text Direction.both.name)) (← directionsOf given)
  let depth ← lastOr (defaultDepth s) (← depthsOf given)
  match given.words, given.surplus with
  | [guid], false =>
    return {
      guid, direction, depth
      hideProcess := given.has "--hide-process"
      attributes
      seed := (given.values "--seed").getLast?.map fun
        | path :: _ => .file path
        | [] => .bundledSeed
    }
  | _, _ => none

/-! ## 2. Request and answer -/

/-- The request that is made. -/
def Asked.request (o : Asked) : LineageRequest where
  guid := .text o.guid
  depth := o.depth
  direction := o.direction
  hideProcess := .bool o.hideProcess
  attributes := .list o.attributes
  filters := .absent

/-- A lineage as it is printed, its entities under their ids. What JSON does not have is not
printed. -/
def printed (g : LineageGraph) : Outcome String := do
  let entities := g.entities.map fun e => (e.1, e.2.toValue)
  let answer ← g.written (.record entities)
  if answer.hasJson then return answer.toJson (.indented 2) ++ "\n" else throw .wrongKind

/-- The run that follows from an answer: the lineage, or the refusal and status 1. -/
def runOf (connection : Option Connection) : Outcome Resolution → Outcome Run
  | .ok r => do return ⟨0, ← printed r.lineage, "", connection⟩
  | .error (.lineage cause guid) =>
    let c := cause.classOf
    .ok ⟨1, "",
      "❌ " ++ c.name ++ " (" ++ toString c.httpStatus ++ "): " ++ cause.message guid ++ "\n",
      connection⟩
  | .error e => .error e

/-- The policy that shows everything which is not deleted. -/
def openPolicy (t : Taxonomy) : Policy := ⟨t, ⟨false, admitsAll []⟩, .allowAll⟩

/-- The service over a graph in memory. -/
def memoryService (t : Taxonomy) (g : MemoryGraph) : Service Outcome :=
  ⟨g.access, openPolicy t, false, false, .int 0⟩

/-- **The service of the settings**, over the graph of a database. -/
def databaseService (s : Settings) (p : Policy) (c : Content) : Service Session :=
  ⟨c.access p.taxonomy, p, s.usePatterns.truth, s.requireBoth.truth, s.maxVertices⟩

/-! ## 3. The command -/

/-- How the command is used. -/
def usageText : String :=
  "usage: resolve guid [--direction INPUT|OUTPUT|BOTH] [--depth N] [--hide-process] " ++
    "[--attribute NAME] [--seed [FILE]] [--verbose]\n"

section

variable {m : Type → Type} [Monad m] [MonadExceptOf Fault m]

/-- Resolves what is asked for. -/
def answer (s : Settings) (readFile : String → m Value) (connection : Connection) (o : Asked) :
    m Run := do
  let t ← Document.loadTaxonomy readFile (← MonadExcept.ofExcept s.typeModelLocation)
  match o.seed with
  | some place =>
    let data ← Document.load readFile place
    let g ← MonadExcept.ofExcept (MemoryGraph.ofSeed t data)
    MonadExcept.ofExcept (runOf none ((memoryService t g).resolve o.request))
  | none =>
    let service := databaseService s (openPolicy t) connection.content
    let (result, connection) := (service.resolve o.request).run.run connection
    MonadExcept.ofExcept (runOf (some connection) result)

/-- **The command**: its settings, its files, the connection it may use, and its words. -/
def command (s : Settings) (readFile : String → m Value) (connection : Connection)
    (words : List String) : m Run :=
  match Options.parse specs 1 words with
  | none => pure (.usage usageText)
  | some given =>
    if given.asksHelp && (directionsOf given).isSome && (depthsOf given).isSome then
      pure (.help usageText)
    else match optionsOf s given with
      | none => pure (.usage usageText)
      | some o => answer s readFile connection o

end

end DataLineage.Resolve
