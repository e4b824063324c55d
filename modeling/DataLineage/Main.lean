import DataLineage.Command.Resolve
import DataLineage.Command.Setup
import DataLineage.Document.Yaml

/-!
# The command line

The first word names the command, `resolve` or `setup`; the others are its own. Settings come from
the environment and documents from files. The database is one of this process and starts empty.
-/

namespace DataLineage.Main

/-- Reads a document from a file. -/
def readFile (path : String) : ExceptT Fault IO Value := do
  match ← (IO.FS.readFile path).toBaseIO with
  | .ok text => MonadExcept.ofExcept (Yaml.read text)
  | .error (.noFileOrDirectory ..) => throw .noSuchFile
  | .error _ => throw .directory

/-- The variables of the environment that settings are read from. -/
def environment : IO (List (String × Option String)) :=
  ["NEO4J_URI", "NEO4J_USER", "NEO4J_PASSWORD", "NEO4J_DATABASE", "LINEAGE_USING_CYPHER",
    "LINEAGE_TYPE_MODEL", "LINEAGE_DEFAULT_DEPTH", "LINEAGE_MAX_VERTICES",
    "LINEAGE_EXPANDED_REQUIRE_BOTH_VISIBLE"].mapM fun name => do return (name, ← IO.getEnv name)

/-- Runs the command that the words name. -/
def run (words : List String) : ExceptT Fault IO Run := do
  let values ← environment
  let settings ← MonadExcept.ofExcept
    (Settings.ofEnvironment fun name => (values.lookup name).join)
  let connection := Connection.start ⟨#[], #[]⟩ [] settings.database
  match words with
  | "resolve" :: rest => Resolve.command settings readFile connection rest
  | "setup" :: rest => Setup.command settings readFile connection rest
  | _ => return .usage (Resolve.usageText ++ Setup.usageText)

end DataLineage.Main

/-- Prints what the command leaves behind and ends with its status. -/
def main (words : List String) : IO UInt32 := do
  match ← (DataLineage.Main.run words).run with
  | .ok r =>
    IO.print r.output
    IO.eprint r.errors
    return r.status.toUInt32
  | .error e =>
    IO.eprintln e.message
    return 1
