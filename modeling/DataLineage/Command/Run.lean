import DataLineage.Command.Options
import DataLineage.Database.Session

/-!
# Runs of commands

What a command leaves behind: the status with which it ends, what it printed, and the connection
with the database if it made one.

* `Run.usage_status` -- a command line that cannot be read ends with status 2.
-/

namespace DataLineage

/-- **What a command leaves behind.** -/
structure Run where
  status : Nat
  output : String
  errors : String
  connection : Option Connection
  deriving Inhabited

namespace Run

/-- The run of a command whose command line cannot be read. -/
def usage (text : String) : Run := ⟨2, "", text, none⟩

theorem usage_status (text : String) : (usage text).status = 2 := rfl

/-- The run of a command that only explains itself. -/
def help (text : String) : Run := ⟨0, text, "", none⟩

end Run

namespace Options

/-- The option that asks for an explanation, in its two spellings. -/
def helpSpecs : List Spec := [⟨"-h", .last⟩, ⟨"--help", .last⟩]

/-- Is an explanation asked for? -/
def Given.asksHelp (g : Given) : Bool := g.options.any fun o => o.1 == "-h" || o.1 == "--help"

/-- The values given for an option, each time it is given, in order. -/
def Given.values (g : Given) (name : String) : List (List String) :=
  (g.options.filter fun o => o.1 == name).map (·.2)

/-- Is the option given? -/
def Given.has (g : Given) (name : String) : Bool := g.options.any fun o => o.1 == name

end Options

end DataLineage
