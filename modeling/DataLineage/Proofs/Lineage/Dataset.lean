import DataLineage.Proofs.Graph.Rows
import DataLineage.Proofs.Lineage.Exact
import DataLineage.Proofs.Request.Admitted

/-!
# Requests around a dataset

A service over the graph of seed data resolves every well-formed request around a dataset that may
be read. What it answers is known from the edges of the graph:

* `LineageRequest.Asks` -- a well-formed request, `LineageRequest.contextAround` -- its context;
* `Service.resolve_walked` -- a request in one direction is resolved by its walk;
* `Service.Serves` -- a service over a graph, with what its callers promise;
* `Service.resolve_dataset` -- **the request is resolved**, and its lineage holds what its walk
  brings in.
-/

namespace DataLineage

/-! ## 1. Well-formed requests -/

namespace LineageRequest

/-- **A well-formed request**: it names a direction and a depth, its criteria can be read, and so can
the names of the attributes that it asks for. -/
structure Asks (r : LineageRequest) (direction : Direction) (n : Nat) (cs : List Criterion)
    (names : List Scalar) : Prop where
  direction : Direction.parse r.direction = .ok direction
  depth : r.depth.wholeNumber? = some (n : Int)
  criteria : r.filters.criteria = .ok cs
  names : r.names = .ok names

/-- The request for the lineage around a vertex in a direction, and otherwise the same. -/
def around (r : LineageRequest) (v : Vertex) (direction : Direction) : LineageRequest :=
  { r with guid := v.id, direction := .text direction.name }

/-- The context of a well-formed request around a dataset. -/
def contextAround (r : LineageRequest) (p : Policy) (v : Vertex) (direction : Direction) (n : Nat)
    (cs : List Criterion) (names : List Scalar) : Context :=
  Terms.contextOf ⟨r.guid, direction, .ofDepth n, r.depth, r.hideProcess, cs, names⟩ p v true

variable {r : LineageRequest} {direction : Direction} {n : Nat} {cs : List Criterion}
  {names : List Scalar} {p : Policy} {v : Vertex}

theorem Asks.around (h : r.Asks direction n cs names) (v : Vertex) (d : Direction) :
    (r.around v d).Asks d n cs names :=
  ⟨Direction.parse_name d, h.depth, h.criteria, h.names⟩

/-- **The context of a well-formed request around a dataset** that may be read. -/
theorem Asks.context (h : r.Asks direction n cs names) {g : GraphAccess Outcome}
    (hfound : g.find r.guid = .ok (some v)) (hd : p.taxonomy.isDataset v.typeName = .ok true)
    (hpermitted : ∃ header, Projector.header v (names.map .scalar) = .ok header ∧
      p.authorizer.permits header = .ok true) :
    r.context p g = .ok (r.contextAround p v direction n cs names) :=
  context_iff.mpr ⟨_, v, true, terms_iff.mpr
    ⟨direction, n, cs, names, h.direction, h.depth, h.criteria, h.names, rfl⟩, hfound,
    ⟨hpermitted, hd, fun h => nomatch h⟩, rfl⟩

end LineageRequest

/-! ## 2. Services over the graph of seed data -/

/-- **The service walks over the graph**, without a limit of vertices, and its callers promise that
classifications are lists where there are any and that every vertex is visible or not to its
projector and the criteria of the requests. -/
structure Service.Serves (s : Service Outcome) (t : Taxonomy) (g : MemoryGraph)
    (cs : List Criterion) : Prop where
  graph : ∃ answer, s.graph = g.accessWith answer
  taxonomy : s.policy.taxonomy = t
  unlimited : s.maxVertices.truth = false
  classified : ∀ (k : Key) (v : Vertex), g.vertices[k]? = some v → ∀ x,
    Record.get? v.properties "classifications" = some x → ∃ items, x = .list items
  judged : g.Judged s.policy.projector cs

namespace Service

variable {s : Service Outcome} {t : Taxonomy} {g : MemoryGraph} {req : LineageRequest}
  {direction : Direction} {n : Nat} {cs : List Criterion} {names : List Scalar} {k : Key}
  {v : Vertex} {T : Terrain}

/-- **A request in one direction is resolved by its walk**, unless patterns are used. -/
theorem resolve_walked {c : Context} {l : LineageGraph} {x : VertexBudget}
    (hc : req.context s.policy s.graph = .ok c) (hsingle : c.direction ≠ .both)
    (hnative : s.usePatterns = true → c.hidesProcesses = true)
    (hwalk : s.walker.walk c c.direction (.start s.maxVertices) = .ok (l, x)) :
    s.resolve req = .ok ⟨c, l⟩ := by
  obtain ⟨req', hcollected, hc'⟩ := LineageRequest.context_collected hc
  have htraverse : s.walker.traverse c = .ok l := Walker.traverse_single hsingle hwalk
  have hwalks : ¬ s.usesPattern c = true := by
    intro hp
    obtain ⟨hp, hm⟩ := Bool.and_eq_true_iff.mp hp
    rw [hnative hp] at hm
    cases hm
  rw [resolve_eq, hcollected, Outcome.ok_bind, info_eq hc']
  unfold lineageOf
  rw [if_neg hwalks, htraverse, Outcome.ok_bind]

/-- The graph can be looked at for a well-formed request. -/
theorem Serves.legible (h : s.Serves t g cs) (req : LineageRequest) (direction : Direction) (n : Nat)
    (names : List Scalar) (v : Vertex) :
    g.Legible (req.contextAround s.policy v direction n cs names) :=
  ⟨h.classified, h.judged⟩

/-- Whoever may read everything may read the header of a vertex. -/
theorem Serves.permits_all (h : s.Serves t g cs) (hallow : s.policy.authorizer = .allowAll)
    (hv : g.vertices[k]? = some v) (names : List Scalar) :
    ∃ header, Projector.header v (names.map .scalar) = .ok header ∧
      s.policy.authorizer.permits header = .ok true := by
  obtain ⟨header, hheader⟩ := Context.header_isOk { (default : Context) with attributes := names }
    (h.classified k v hv)
  exact ⟨header, hheader, by rw [hallow]; rfl⟩

/-- The service walks over the edges of the graph. -/
theorem Serves.over (h : s.Serves t g cs) (hg : g.Seeded) {backward : Bool}
    (hT : T.For g.added.toList t.labels backward) : s.walker.Over backward T := by
  obtain ⟨answer, hgraph⟩ := h.graph
  refine ⟨?_, ?_, ?_⟩
  · rw [hT.edges]
    show s.graph.Shows g.added.toList
    rw [hgraph]
    exact hg.built.shows answer
  · show (s.policy.taxonomy.labels.forDirection backward).1.key = _
    rw [h.taxonomy]
    exact hT.into
  · show (s.policy.taxonomy.labels.forDirection backward).2.key = _
    rw [h.taxonomy]
    exact hT.out

/-- **A well-formed request around a dataset that may be read is resolved**, in one direction: its
lineage answers it with the headers of the vertices of the graph, and holds what its walk brings
in. -/
theorem resolve_dataset (h : s.Serves t g cs) (hg : g.Seeded) (ha : req.Asks direction n cs names)
    (hsingle : direction ≠ .both) (hnative : s.usePatterns = true → req.hideProcess.truth = true)
    (hv : g.vertices[k]? = some v) (hguid : req.guid.key = .ok k)
    (hdataset : t.isDataset v.typeName = .ok true)
    (hpermitted : ∃ header, Projector.header v (names.map .scalar) = .ok header ∧
      s.policy.authorizer.permits header = .ok true)
    (hT : T.For g.added.toList t.labels (direction == .input)) :
    ∃ l, s.resolve req = .ok ⟨req.contextAround s.policy v direction n cs names, l⟩ ∧
      (req.contextAround s.policy v direction n cs names).Answers
        (g.HeaderAt (req.contextAround s.policy v direction n cs names)) direction l ∧
      l.Holds (T.Yields
        (s.walker.recorder (req.contextAround s.policy v direction n cs names))) := by
  have hk : v.id.key = .ok k := hg.built.indexed.stored k v hv
  have hfound : s.graph.find req.guid = .ok (some v) := by
    obtain ⟨answer, hgraph⟩ := h.graph
    rw [hgraph]
    show (req.guid.key >>= fun key => .ok g.vertices[key]?) = _
    rw [hguid, Outcome.ok_bind, hv]
  rw [← h.taxonomy] at hdataset
  have hx : (VertexBudget.start s.maxVertices).limit.truth = false := h.unlimited
  obtain ⟨l, x, hl, hanswers, hholds⟩ := (h.legible req direction n names v).walk_ends hg
    (w := s.walker) (T := T) hk (fun hd => nomatch hd) (h.over hg hT)
    (fun e he => hT.edges ▸ he) hx
  exact ⟨l, resolve_walked (ha.context hfound hdataset hpermitted) hsingle hnative hl, hanswers,
    hholds⟩

end Service

end DataLineage
