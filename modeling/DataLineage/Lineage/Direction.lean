import DataLineage.Value.Access
import DataLineage.Text.Basic

/-!
# The direction of a lineage

A lineage is traced backward (`input`: what produced the root), forward (`output`: what the root
produced), or both ways.

* `Direction.parse_name` -- a direction is read from its own name.
* `Direction.walks_single` -- only a lineage both ways is made of two walks.
-/

namespace DataLineage

/-- Which side of the root is traced. -/
inductive Direction where
  | input
  | output
  | both
  deriving DecidableEq, Repr, Inhabited

namespace Direction

/-- The name of a direction. -/
def name : Direction → String
  | input => "INPUT"
  | output => "OUTPUT"
  | both => "BOTH"

/-- The direction of a name. -/
def ofName? : String → Option Direction
  | "INPUT" => some input
  | "OUTPUT" => some output
  | "BOTH" => some both
  | _ => none

/-- **The direction that a value names**, whatever blanks are around the name and in whatever case
it is written. -/
def parse (given : Value) : Outcome Direction :=
  match ofName? (Text.inCapitals (Text.trim given.display)) with
  | some d => .ok d
  | none => .error .badValue

theorem ofName?_name (d : Direction) : ofName? d.name = some d := by
  cases d <;> rfl

/-- **A direction is read from its own name.** -/
theorem parse_name (d : Direction) : parse (.text d.name) = .ok d := by
  have h : Text.inCapitals (Text.trim d.name) = d.name := by cases d <;> decide +kernel
  simp [parse, h, ofName?_name]

/-- The walks that a lineage of the direction is made of. -/
def walks : Direction → List Direction
  | both => [input, output]
  | d => [d]

/-- Only a lineage both ways is made of two walks. -/
theorem walks_single (d : Direction) : d.walks = [d] ↔ d ≠ both := by
  cases d <;> simp [walks]

end Direction

end DataLineage
