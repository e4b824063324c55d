import DataLineage.Recorder

/-!
# Walking a graph

From a dataset a walk goes over each process at its near side to the datasets at the far side of the
process. It goes breadth first: vertices wait in a queue, a vertex is expanded at most once, and a
hop further out costs one unit of the hop budget. A process as root first goes to the datasets next
to it without cost. All walks of one request share a budget of vertices.

The recursion is on the number of expansions that remain; every expansion is of another vertex, so
one more than the graph has vertices are enough.

* `Walker.nextPending_nil`, `Walker.nextPending_spent` -- what waits without being expanded.
* `VertexBudget.exceeded_int`, `VertexBudget.charge_unlimited` -- a whole number is a limit unless
  it is 0.
-/

namespace DataLineage

/-! ## 1. Budgets and queues -/

/-- How many vertices a request may expand, and how many it has expanded. The limit is a number as
a rule; a limit that counts as false allows any number of vertices. -/
structure VertexBudget where
  limit : Value
  expanded : Nat
  deriving Repr, Inhabited

namespace VertexBudget

/-- The budget before anything is expanded. -/
def start (limit : Value) : VertexBudget := ⟨limit, 0⟩

/-- Is more expanded than may be? Only a number can be a limit. -/
def exceeded (b : VertexBudget) : Outcome Bool := do
  if b.limit.truth then
    match (← b.limit.key).compare? (.number b.expanded) with
    | some order => return order == .lt
    | none => throw .wrongKind
  else
    return false

/-- **Charges one more vertex** to the request of the guid. -/
def charge (b : VertexBudget) (guid : Value) : Outcome VertexBudget := do
  let b' : VertexBudget := ⟨b.limit, b.expanded + 1⟩
  if ← b'.exceeded then
    throw (.lineage (.budgetExceeded b.limit) guid)
  return b'

/-- **A whole number is a limit unless it is 0.** -/
theorem exceeded_int (limit : Int) (n : Nat) :
    exceeded ⟨.int limit, n⟩ = .ok (limit != 0 && decide (limit < n)) := by
  by_cases h : limit = 0
  · subst h; rfl
  · have ht : (Value.int limit).truth = true := by simp [Value.truth, Scalar.truth, h]
    obtain ⟨order, hc, hl⟩ : ∃ order, (Key.number limit).compare? (.number n) = some order ∧
        (order == .lt) = decide (limit < n) := by
      refine ⟨_, rfl, ?_⟩
      unfold compareOfLessAndEq
      by_cases hlt : limit < n
      · have hq : (limit : Rat) < (n : Rat) := by exact_mod_cast hlt
        rw [if_pos hq, decide_eq_true hlt]; rfl
      · have hq : ¬ (limit : Rat) < (n : Rat) := by exact_mod_cast hlt
        rw [if_neg hq, decide_eq_false hlt]
        split <;> rfl
    simp [exceeded, ht, Value.key, Scalar.key, bind, Except.bind, hc, pure, Except.pure, hl, h]

/-- A limit of 0 is none. -/
theorem charge_unlimited (n : Nat) (guid : Value) :
    charge ⟨.int 0, n⟩ guid = .ok ⟨.int 0, n + 1⟩ := by
  simp [charge, exceeded_int, bind, Except.bind, pure, Except.pure]

end VertexBudget

/-- A dataset that waits to be expanded, with the hop budget that is left there. -/
structure Pending where
  vertex : Vertex
  budget : HopBudget
  deriving Repr, Inhabited

/-- What an expansion has recorded, and the datasets that it found. -/
structure Harvest where
  lineage : LineageGraph
  found : List Pending
  deriving Inhabited

/-- A walk that is under way: what waits, what was expanded (the latest first), and what was
recorded. -/
structure WalkState where
  queue : List Pending
  visited : List Key
  budget : VertexBudget
  lineage : LineageGraph
  deriving Inhabited

/-- How walks are made over a graph. -/
structure Walker (m : Type → Type) where
  graph : GraphAccess m
  taxonomy : Taxonomy
  requireBoth : Bool
  maxVertices : Value

namespace Walker

/-- **The next dataset to expand**, with its key and what waits behind it: the first one in the
queue with budget left that was not expanded before. -/
def nextPending (visited : List Key) :
    List Pending → Outcome (Option (Pending × Key × List Pending))
  | [] => .ok none
  | p :: rest =>
    if p.budget.spent then nextPending visited rest
    else do
      let key ← p.vertex.id.key
      if visited.contains key then nextPending visited rest else return some (p, key, rest)

theorem nextPending_nil (visited : List Key) : nextPending visited [] = .ok none := rfl

theorem nextPending_spent (visited : List Key) (p : Pending) (rest : List Pending)
    (h : p.budget.spent = true) : nextPending visited (p :: rest) = nextPending visited rest := by
  simp [nextPending, h]

/-! ## 2. Expansion -/

/-- Records one pair; its far dataset is found, unless the pair is skipped or the dataset was
expanded before. -/
def takePair (r : Recorder) (visited : List Key) (budget : HopBudget) (into : Edge)
    (h : Harvest) (out : Edge) : Outcome Harvest := do
  let (skipped, lineage) ← Recording.on (r.addPair into out) h.lineage
  if skipped then
    return ⟨lineage, h.found⟩
  if visited.contains (← out.target.id.key) then
    return ⟨lineage, h.found⟩
  return ⟨lineage, h.found ++ [⟨out.target, budget⟩]⟩

section

variable {m : Type → Type} [Monad m] [MonadExceptOf Fault m]

/-- Records the pairs that lead over one edge into the expanded dataset. -/
def takeProcess (w : Walker m) (r : Recorder) (visited : List Key) (budget : HopBudget)
    (outLabel : Value) (h : Harvest) (into : Edge) : m Harvest := do
  let outs ← w.graph.edges into.source .outgoing outLabel
  MonadExcept.ofExcept (outs.foldlM (takePair r visited budget into) h)

/-- **Expands a dataset**: records every pair that leads from it over a process, and finds the
datasets at the far ends. -/
def expand (w : Walker m) (r : Recorder) (backward : Bool) (visited : List Key) (p : Pending)
    (lineage : LineageGraph) : m Harvest := do
  let (inLabel, outLabel) := w.taxonomy.labels.forDirection backward
  let ins ← w.graph.edges p.vertex .incoming inLabel
  ins.foldlM (w.takeProcess r visited p.budget.next outLabel) ⟨lineage, []⟩

/-- Expands what waits until nothing does; at most `remaining` vertices. -/
def run (w : Walker m) (r : Recorder) (backward : Bool) : Nat → WalkState → m WalkState
  | 0, s => pure s
  | remaining + 1, s => do
    match ← MonadExcept.ofExcept (nextPending s.visited s.queue) with
    | none => pure s
    | some (p, key, rest) =>
      let budget ← MonadExcept.ofExcept (s.budget.charge r.context.guid)
      let h ← w.expand r backward (key :: s.visited) p s.lineage
      w.run r backward remaining ⟨rest ++ h.found, key :: s.visited, budget, h.lineage⟩

/-- Expands from one dataset on, with nothing visited before. -/
def runFrom (w : Walker m) (r : Recorder) (backward : Bool) (start : Pending)
    (budget : VertexBudget) (lineage : LineageGraph) : m WalkState :=
  w.run r backward (w.graph.order + 2) ⟨[start], [], budget, lineage⟩

/-! ## 3. Walks of a request -/

/-- The recorder for a request. -/
def recorder (w : Walker m) (c : Context) : Recorder := ⟨c, w.taxonomy, w.requireBoth⟩

/-- Records one edge of the root, a process, and expands from its dataset on. -/
def takeRootEdge (w : Walker m) (c : Context) (backward : Bool)
    (s : LineageGraph × VertexBudget) (e : Edge) : m (LineageGraph × VertexBudget) := do
  let r := w.recorder c
  let (_, lineage) ← MonadExcept.ofExcept (Recording.on (r.addEdge e) s.1)
  let s' ← w.runFrom r backward ⟨e.target, c.budget.next⟩ s.2 lineage
  return (s'.lineage, s'.budget)

/-- **One walk**: backward for the direction `input`, otherwise forward. -/
def walk (w : Walker m) (c : Context) (direction : Direction) (budget : VertexBudget) :
    m (LineageGraph × VertexBudget) := do
  let backward := direction == .input
  let lineage := LineageGraph.empty c.guid direction c.requestedDepth
  if c.isDataset then
    let s ← w.runFrom (w.recorder c) backward ⟨c.root, c.budget⟩ budget lineage
    return (s.lineage, s.budget)
  else
    let label := if backward then w.taxonomy.labels.inputs else w.taxonomy.labels.outputs
    (← w.graph.edges c.root .outgoing label).foldlM (w.takeRootEdge c backward) (lineage, budget)

end

end Walker

/-! ## 4. The lineage of a request -/

/-- The answer to a request from the results of its walks: the only one, or the union of both. -/
def Context.aggregate (c : Context) (results : List LineageGraph) : LineageGraph :=
  match c.direction, results with
  | .both, _ => merged
  | _, [result] => result
  | _, _ => merged
where
  /-- The union of all results. -/
  merged : LineageGraph :=
    results.foldl LineageGraph.merge (LineageGraph.empty c.guid .both c.requestedDepth)

section

variable {m : Type → Type} [Monad m]

/-- The results of some walks, one after the other, all charged to one budget. -/
def walkAll (step : Direction → VertexBudget → m (LineageGraph × VertexBudget)) :
    List Direction → VertexBudget → m (List LineageGraph)
  | [], _ => pure []
  | d :: rest, budget => do
    let (lineage, budget) ← step d budget
    return lineage :: (← walkAll step rest budget)

/-- **The lineage of a request**, made of the walks of its direction. -/
def Walker.traverse [MonadExceptOf Fault m] (w : Walker m) (c : Context) : m LineageGraph := do
  return c.aggregate (← walkAll (w.walk c) c.direction.walks (.start w.maxVertices))

end

end DataLineage
