import DataLineage.Walk

/-!
# The pattern of a lineage

A graph database can match the hops of a lineage itself: from the root, a number of steps from a
dataset over a process to a dataset, the steps of a process as root being preceded by one edge to a
dataset. A `LineagePattern` says which steps and how many; `LineagePattern.script` is its text in
the query language of the database, with the values of its parameters. The bounds of the number of
steps stand in the text itself, since they cannot be parameters.

* `LineagePattern.make_both` -- a pattern has one direction.
* `nextDepth_int` -- one hop further out the depth is smaller by one, and unbounded stays unbounded.
-/

namespace DataLineage

/-! ## 1. Depths -/

/-- Is it the depth that stands for an unbounded budget? -/
def isUnbounded (depth : Value) : Bool := depth.same HopBudget.unboundedDepth

/-- **The depth one hop further out**: smaller by one, unless unbounded. -/
def nextDepth (depth : Value) : Outcome Value :=
  if isUnbounded depth then .ok depth
  else match depth with
    | .int n => .ok (.int (n - 1))
    | .bool b => .ok (.int ((if b then 1 else 0) - 1))
    | .float x => .ok (.float x.pred)
    | _ => .error .wrongKind

theorem nextDepth_int (n : Int) :
    nextDepth (.int n) = .ok (.int (if n = -1 then n else n - 1)) := by
  by_cases h : n = -1
  · subst h; rfl
  · have hs : isUnbounded (.int n) = false := by
      simp [isUnbounded, HopBudget.unboundedDepth, Value.same, Scalar.key]
      intro hq
      exact h (Rat.intCast_inj.mp (by simpa using hq))
    simp [nextDepth, hs, h]

/-- The whole number of hops that a depth allows, its fraction left out. -/
def hopCount (depth : Value) : Outcome Int :=
  match depth with
  | .float .nan => .error .badValue
  | .float x =>
    match x.toRat? with
    | some q => .ok (q.num.tdiv q.den)
    | none => .error .tooLarge
  | other =>
    match other.wholeNumber? with
    | some n => .ok n
    | none => .error .wrongKind

/-! ## 2. Patterns -/

/-- **Which steps lead away from a root, and how many**: any number where `hops` is none. -/
structure LineagePattern where
  guid : Value
  fromProcess : Bool
  incoming : Value
  outgoing : Value
  depth : Value
  processDepth : Value
  hops : Option Int
  deriving Repr, Inhabited

namespace LineagePattern

/-- The pattern of a lineage in one direction. The number of steps has to be one that can be
written. -/
def make (t : Taxonomy) (guid : Value) (direction : Direction) (depth : Value)
    (rootIsDataset : Bool) : Outcome LineagePattern := do
  if direction == .both then
    throw .badValue
  let (incoming, outgoing) := t.labels.forDirection (direction == .input)
  let processDepth ← nextDepth depth
  let hops ←
    if isUnbounded depth then pure none
    else some <$> hopCount (if rootIsDataset then depth else processDepth)
  if hops.any fun n => !(Scalar.int n).isWritable then
    throw .badValue
  return { guid, fromProcess := !rootIsDataset, incoming, outgoing, depth, processDepth, hops }

/-- **A pattern has one direction.** -/
theorem make_both (t : Taxonomy) (guid depth : Value) (rootIsDataset : Bool) :
    make t guid .both depth rootIsDataset = .error .badValue := rfl

/-- The bounds of the number of steps, as they are written. -/
def bounds (p : LineagePattern) : String :=
  "\x7b" ++ (if p.fromProcess then "0" else "1") ++ "," ++
    (match p.hops with
      | some n => Text.ofInt n
      | none => "") ++ "\x7d"

/-- One step from a dataset over a process to a dataset, with the labels of its two edges. -/
def step : String :=
  "((ds)<-[incoming]-(process)-[outgoing]->(next) " ++
    "WHERE type(incoming) = $incomingEdgeLabel AND type(outgoing) = $outgoingEdgeLabel)"

/-- The text that finds the root. -/
def matchRoot : String := "MATCH (root \x7bid: $guid\x7d) "

/-- The text that answers every relationship of a path with its two ends. -/
def answerRelationships : String :=
  "UNWIND relationships(path) AS r " ++
    "RETURN DISTINCT r, startNode(r) AS source, endNode(r) AS target"

/-- The text of a pattern. -/
def text (p : LineagePattern) : String :=
  if p.fromProcess then
    matchRoot ++ "MATCH path = (root)-[first]->(start)" ++ step ++ p.bounds ++ "(last) " ++
      "WHERE type(first) = $outgoingEdgeLabel " ++ answerRelationships
  else
    matchRoot ++ "MATCH path = (root)" ++ step ++ p.bounds ++ "(last) " ++ answerRelationships

/-- The parameters of a pattern. -/
def bindings (p : LineagePattern) : Record :=
  [("guid", p.guid),
   ("incomingEdgeLabel", p.incoming),
   ("outgoingEdgeLabel", p.outgoing),
   ("dataSetDepth", p.depth),
   ("processDepth", p.processDepth)]

/-- **A pattern as a script.** -/
def script (p : LineagePattern) : Script := ⟨p.text, p.bindings⟩

end LineagePattern

end DataLineage
