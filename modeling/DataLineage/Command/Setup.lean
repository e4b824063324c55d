import DataLineage.Command.Run
import DataLineage.Database.Loader
import DataLineage.Document.Source

/-!
# The command that loads seed data

Seed data is loaded into the database of the settings, after what is there was cleared, unless it
shall be kept. Each step is told as it begins.

* `Setup.runOf_ok` -- a load that succeeds is told and ends with status 0.
-/

namespace DataLineage.Setup

open Options (Spec Given)

/-! ## 1. Command line -/

/-- The options of the command. -/
def specs : List Spec :=
  Options.helpSpecs ++ [⟨"--seed", .one⟩, ⟨"--keep-existing", .flag⟩]

/-- What is asked for. -/
structure Asked where
  seed : Location
  keepExisting : Bool
  deriving Repr, Inhabited

/-- What a command line asks for. -/
def optionsOf (given : Given) : Option Asked :=
  if given.surplus then none
  else some {
    seed := match (given.values "--seed").getLast? with
      | some (path :: _) => .file path
      | _ => .bundledSeed
    keepExisting := given.has "--keep-existing"
  }

/-! ## 2. What is told -/

/-- What is told before the database is reached. -/
def opening (s : Settings) (t : Taxonomy) : String :=
  "🚀 Starting graph setup...\n" ++
    "\n📖 Loading type model...\n" ++
    "   Entity types: " ++ toString t.types.length ++ "\n" ++
    "   Edge labels: " ++ t.labels.inputs.display ++ ", " ++ t.labels.outputs.display ++ "\n" ++
    "\n🔌 Connecting to Neo4j at " ++ s.uri.display ++ "...\n"

/-- The run that follows from a load: invalid seed data is told and ends with status 1. -/
def runOf (told : String) (connection : Connection) : Outcome Unit → Outcome Run
  | .ok _ => .ok ⟨0, told ++ "\n✨ Graph setup complete!\n", "", some connection⟩
  | .error (.seed cause) =>
    .ok ⟨1, told ++ "\n❌ Invalid seed data: " ++ cause.message ++ "\n", "", some connection⟩
  | .error e => .error e

/-- A load that succeeds is told and ends with status 0. -/
theorem runOf_ok (told : String) (c : Connection) :
    runOf told c (.ok ()) = .ok ⟨0, told ++ "\n✨ Graph setup complete!\n", "", some c⟩ := rfl

/-! ## 3. The command -/

/-- How the command is used. -/
def usageText : String := "usage: setup [--seed FILE] [--keep-existing]\n"

section

variable {m : Type → Type} [Monad m] [MonadExceptOf Fault m]

/-- Loads what is asked for. -/
def answer (s : Settings) (readFile : String → m Value) (connection : Connection) (o : Asked) :
    m Run := do
  let t ← Document.loadTaxonomy readFile (← MonadExcept.ofExcept s.typeModelLocation)
  let data ← Document.load readFile o.seed
  let (result, connection) := (Loader.loadAll t data (!o.keepExisting) true).run.run connection
  MonadExcept.ofExcept (runOf (opening s t) connection result)

/-- **The command**: its settings, its files, the connection it may use, and its words. -/
def command (s : Settings) (readFile : String → m Value) (connection : Connection)
    (words : List String) : m Run :=
  match Options.parse specs 0 words with
  | none => pure (.usage usageText)
  | some given =>
    if given.asksHelp then pure (.help usageText)
    else match optionsOf given with
      | none => pure (.usage usageText)
      | some o => answer s readFile connection o

end

end DataLineage.Setup
