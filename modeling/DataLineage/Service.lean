import DataLineage.Pattern.Answer

/-!
# The lineage service

A service resolves requests over a graph that it can read: by walks, or, if it is set up to use
patterns and the request hides no processes, by patterns that the graph matches itself.

* `Service.usesPattern_hidden` -- a request that hides processes is always walked.
-/

namespace DataLineage

/-- **A service over a graph**: who may see what, and how lineages are resolved. -/
structure Service (m : Type → Type) where
  graph : GraphAccess m
  policy : Policy
  usePatterns : Bool
  requireBoth : Bool
  maxVertices : Value

/-- A resolved request. -/
structure Resolution where
  context : Context
  lineage : LineageGraph
  deriving Inhabited

/-- The log entry of a resolved request. -/
def Resolution.entry (r : Resolution) : LogEntry where
  level := .info
  text :=
    "Resolved " ++ r.lineage.direction.name ++ " lineage for " ++ r.context.guid.display ++
      " (depth=" ++ r.context.requestedDepth.display ++ ", hide_process=" ++
      r.context.hideProcess.display ++ "): " ++
      toString r.lineage.entities.length ++ " entities, " ++
      toString r.lineage.relations.length ++ " relations"

namespace Service

/-- The walks of the service. -/
def walker {m : Type → Type} (s : Service m) : Walker m :=
  ⟨s.graph, s.policy.taxonomy, s.requireBoth, s.maxVertices⟩

/-- Is the request resolved by patterns? -/
def usesPattern {m : Type → Type} (s : Service m) (c : Context) : Bool :=
  s.usePatterns && !c.hidesProcesses

theorem usesPattern_hidden {m : Type → Type} (s : Service m) (c : Context)
    (h : c.hidesProcesses = true) : s.usesPattern c = false := by
  simp [usesPattern, h]

section

variable {m : Type → Type} [Monad m] [MonadExceptOf Fault m]

/-- The context of a request. -/
def context (s : Service m) (r : LineageRequest) : m Context := r.context s.policy s.graph

/-- **Resolves a request.** -/
def info (s : Service m) (r : LineageRequest) : m Resolution := do
  let c ← s.context r
  let lineage ← if s.usesPattern c then s.walker.traverseAnswers c else s.walker.traverse c
  return ⟨c, lineage⟩

/-- Resolves a request whose collections are read before anything else is looked at. -/
def resolve (s : Service m) (r : LineageRequest) : m Resolution := do
  let attributes ← MonadExcept.ofExcept do
    Value.distinctScalars (← r.attributes.elementsOrNone)
  let filters ← MonadExcept.ofExcept r.filters.toList
  s.info { r with attributes := .list (attributes.map .scalar), filters := .items filters }

end

end Service

end DataLineage
