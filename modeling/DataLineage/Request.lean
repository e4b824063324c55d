import DataLineage.Lineage.Graph
import DataLineage.Taxonomy.Basic

/-!
# Lineage requests

A request asks for the lineage around the vertex of a guid. Before anything is walked it is turned
into a `Context`: first its own parts are checked (`LineageRequest.terms`), then the root is looked
up, and then it is decided whether the root may be read and can have a lineage (`Terms.contextFor`).

* `LineageRequest.checkDepth_neg` -- a negative depth is refused.
* `Terms.contextFor_none` -- a guid without vertex is refused.
* `HopBudget.next_unbounded` -- an unbounded budget never runs out.
-/

namespace DataLineage

/-! ## 1. Hop budgets -/

/-- How many hops from dataset to dataset may be made. -/
inductive HopBudget where
  | unbounded
  | hops (n : Nat)
  deriving DecidableEq, Repr, Inhabited

namespace HopBudget

/-- The depth 0 asks for any number of hops. -/
def ofDepth (n : Nat) : HopBudget := if n = 0 then unbounded else hops n

/-- What is left of the budget one hop further out. -/
def next : HopBudget → HopBudget
  | unbounded => unbounded
  | hops n => hops (n - 1)

/-- Is no hop left? -/
def spent : HopBudget → Bool
  | unbounded => false
  | hops n => n == 0

/-- An unbounded budget never runs out. -/
theorem next_unbounded : unbounded.next = unbounded := rfl

/-- **The budget of a depth is not spent before the first hop.** -/
theorem spent_ofDepth (n : Nat) : (ofDepth n).spent = false := by
  unfold ofDepth; split <;> simp_all [spent]

/-- The depth that stands for an unbounded budget. -/
def unboundedDepth : Value := .int (-1)

end HopBudget

/-! ## 2. Requests and contexts -/

/-- A request as a caller makes it. -/
structure LineageRequest where
  guid : Value
  depth : Value
  direction : Value
  hideProcess : Value
  attributes : Value
  filters : GivenCriteria
  deriving Repr, Inhabited

/-- The request for a guid that leaves everything else open. -/
def LineageRequest.about (guid : Value) : LineageRequest where
  guid := guid
  depth := .int 3
  direction := .text "BOTH"
  hideProcess := .bool false
  attributes := .null
  filters := .absent

/-- The checked parts of a request that do not depend on its root. -/
structure Terms where
  guid : Value
  direction : Direction
  budget : HopBudget
  requestedDepth : Value
  hideProcess : Value
  criteria : List Criterion
  attributes : List Scalar
  deriving Repr, Inhabited

/-- **All that a walk needs to know about its request.** -/
structure Context where
  guid : Value
  root : Vertex
  direction : Direction
  budget : HopBudget
  requestedDepth : Value
  hideProcess : Value
  attributes : List Scalar
  isDataset : Bool
  isProcess : Bool
  projector : Projector
  criteria : List Criterion
  deriving Inhabited

namespace Context

/-- Is the vertex visible to the request: shown at all, and admitted by its filters? -/
def admits (c : Context) (v : Vertex) : Outcome Bool := do
  if ← c.projector.visible v then admitsAll c.criteria v else return false

/-- Is the vertex the root? -/
def isRoot (c : Context) (v : Vertex) : Bool := v.id.equal c.root.id

/-- Are processes to be hidden? -/
def hidesProcesses (c : Context) : Bool := c.hideProcess.truth

/-- The depth as queries are given it. -/
def depth (c : Context) : Value :=
  match c.budget with
  | .unbounded => HopBudget.unboundedDepth
  | .hops _ => c.requestedDepth

/-- The header of a vertex with the attributes that were asked for. -/
def header (c : Context) (v : Vertex) : Outcome EntityHeader :=
  Projector.header v (c.attributes.map .scalar)

end Context

/-! ## 3. Checking a request -/

/-- The whole number of a depth that is one; a truth value counts as 0 or 1. -/
def Value.wholeNumber? : Value → Option Int
  | .int n => some n
  | .bool b => some (if b then 1 else 0)
  | _ => none

/-- A fault of a filter, told about the request of the guid. -/
def Fault.about (guid : Value) : Fault → Fault
  | .lineage cause _ => .lineage cause guid
  | e => e

namespace LineageRequest

/-- The direction of a request. -/
def checkDirection (r : LineageRequest) : Outcome Direction :=
  match Direction.parse r.direction with
  | .ok d => .ok d
  | .error _ => .error (.lineage (.invalidDirection r.direction) r.guid)

/-- The hop budget of a request. -/
def checkDepth (r : LineageRequest) : Outcome HopBudget :=
  match r.depth.wholeNumber? with
  | some (.ofNat n) => .ok (.ofDepth n)
  | _ => .error (.lineage (.invalidDepth r.depth) r.guid)

/-- **Checks what does not depend on the root**: direction, depth, filters, attributes. -/
def terms (r : LineageRequest) : Outcome Terms := do
  let direction ← r.checkDirection
  let budget ← r.checkDepth
  let criteria ← r.filters.criteria.mapError (Fault.about r.guid)
  let attributes ← Value.distinctScalars (← r.attributes.elementsOrNone)
  return {
    guid := r.guid
    direction, budget
    requestedDepth := r.depth
    hideProcess := r.hideProcess
    criteria, attributes
  }

/-- **A negative depth is refused.** -/
theorem checkDepth_neg (r : LineageRequest) (n : Nat) (h : r.depth = .int (Int.negSucc n)) :
    r.checkDepth = .error (.lineage (.invalidDepth r.depth) r.guid) := by
  simp [checkDepth, h, Value.wholeNumber?]

end LineageRequest

/-! ## 4. Admission of the root -/

/-- Who may see and read what, and what the types mean. -/
structure Policy where
  taxonomy : Taxonomy
  projector : Projector
  authorizer : Authorizer
  deriving Inhabited

/-- **Decides about the root**: it must exist, be readable, and be a dataset or a process; the
lineage of a process cannot hide processes. -/
def Terms.contextFor (t : Terms) (p : Policy) (root? : Option Vertex) : Outcome Context := do
  match root? with
  | none => throw (.lineage .notFound t.guid)
  | some root =>
    let header ← Projector.header root (t.attributes.map .scalar)
    if !(← p.authorizer.permits header) then
      throw (.lineage .notAuthorized t.guid)
    let isDataset ← p.taxonomy.isDataset root.typeName
    let isProcess ← if isDataset then pure false else p.taxonomy.isProcess root.typeName
    if !isDataset then
      if !isProcess then
        throw (.lineage (.unsupportedType root.typeName) t.guid)
      if t.hideProcess.truth then
        throw (.lineage (.processRootHidden root.typeName) t.guid)
    return {
      guid := t.guid
      root
      direction := t.direction
      budget := t.budget
      requestedDepth := t.requestedDepth
      hideProcess := t.hideProcess
      attributes := t.attributes
      isDataset, isProcess
      projector := p.projector
      criteria := t.criteria
    }

/-- A guid without vertex is refused. -/
theorem Terms.contextFor_none (t : Terms) (p : Policy) :
    t.contextFor p none = .error (.lineage .notFound t.guid) := rfl

/-- **The context of a request**, over a graph that can be read. -/
def LineageRequest.context {m : Type → Type} [Monad m] [MonadExceptOf Fault m] (r : LineageRequest)
    (p : Policy) (g : GraphAccess m) : m Context := do
  let terms ← MonadExcept.ofExcept r.terms
  let root? ← g.find r.guid
  MonadExcept.ofExcept (terms.contextFor p root?)

end DataLineage
