import Mathlib
import DataLineage.Proofs.Graph.Rows
import DataLineage.Proofs.Walk.Reference

/-!
# Exactness of a lineage

Over the graph of accepted seed data a request that is admitted has a lineage, and this lineage is
the reference: no relation is missing and none is too many, and the entities are the ends of the
relations.

* `GraphRequest` -- a request over a graph, with what its callers promise;
* `MemoryGraph.Legible` -- the graph can be looked at for the request, `Legible.readsEdge` -- so
  can each of its edges;
* `Legible.walk_ends`, `GraphRequest.walk_ends` -- a walk over edges of such a graph ends;
* `traverse_exact` -- **the lineage of the request in one direction is the reference.**
-/

namespace DataLineage

/-! ## 1. Requests over the graph of seed data -/

/-- **Every vertex of the graph is visible or not**: neither the projector nor the criteria fail at
one of them. Where one fails, visibility is not defined, and a walk that looks there fails too. -/
def MemoryGraph.Judged (g : MemoryGraph) (p : Projector) (cs : List Criterion) : Prop :=
  ∀ (k : Key) (v : Vertex), g.vertices[k]? = some v → ∃ b, p.admits cs v = .ok b

/-- **A request that is admitted over a graph**, with what its callers promise: classifications are
lists where there are any, every vertex is visible or not, and the guid is equal to itself. -/
structure GraphRequest (t : Taxonomy) (g : MemoryGraph) (p : Policy) (req : LineageRequest)
    (c : Context) : Prop where
  taxonomy : p.taxonomy = t
  classified : ∀ (k : Key) (v : Vertex), g.vertices[k]? = some v → ∀ x,
    Record.get? v.properties "classifications" = some x → ∃ items, x = .list items
  judged : g.Judged p.projector c.criteria
  number : req.guid ≠ .float .nan
  admitted : req.context p g.access = .ok c

/-- The header of the vertex that is kept under a key. -/
def MemoryGraph.HeaderAt (g : MemoryGraph) (c : Context) (k : Key) (hd : EntityHeader) : Prop :=
  ∃ v, g.vertices[k]? = some v ∧ c.header v = .ok hd

theorem MemoryGraph.headerAt_once {g : MemoryGraph} {c : Context} (k : Key) (a b : EntityHeader)
    (ha : g.HeaderAt c k a) (hb : g.HeaderAt c k b) : a = b := by
  obtain ⟨v, hv, ha⟩ := ha
  obtain ⟨v', hv', hb⟩ := hb
  rw [hv] at hv'
  cases hv'
  exact Except.ok.inj (ha.symm.trans hb)

/-- The terrain has the given edges, and the keys of the labels for a direction. -/
structure Terrain.For (T : Terrain) (es : List Edge) (labels : EdgeLabels) (backward : Bool) :
    Prop where
  edges : T.edges = es
  into : (labels.forDirection backward).1.key = .ok T.into
  out : (labels.forDirection backward).2.key = .ok T.out

/-- The labels lead into and out of a process over different edges, if they are different. -/
theorem Terrain.For.into_ne {T : Terrain} {es : List Edge} {labels : EdgeLabels} {backward : Bool}
    (h : T.For es labels backward) {inKey outKey : Key} (hi : labels.inputs.key = .ok inKey)
    (ho : labels.outputs.key = .ok outKey) (hne : inKey ≠ outKey) : T.into ≠ T.out := by
  have hinto := h.into
  have hout := h.out
  intro heq
  rw [heq] at hinto
  cases backward with
  | false => exact hne (Except.ok.inj ((hi.symm.trans hinto).trans (hout.symm.trans ho)))
  | true => exact hne (Except.ok.inj ((hi.symm.trans hout).trans (hinto.symm.trans ho)))

/-- No two different edges of such a graph share a relationship id. -/
theorem MemoryGraph.Seeded.uniqueIds {g : MemoryGraph} (hg : g.Seeded) {es : List Edge}
    (hes : ∀ e ∈ es, e ∈ g.added.toList) : UniqueIds es := by
  intro a ha b hb s u hs hu hn hk
  rw [hg.distinct.eq_of_key (hes a ha) (hes b hb) hs hu hn hk]

namespace MemoryGraph

/-- **The graph can be looked at for the request**: classifications are lists where there are any,
and every vertex is visible or not. -/
structure Legible (g : MemoryGraph) (c : Context) : Prop where
  classified : ∀ (k : Key) (v : Vertex), g.vertices[k]? = some v → ∀ x,
    Record.get? v.properties "classifications" = some x → ∃ items, x = .list items
  judged : g.Judged c.projector c.criteria

namespace Legible

variable {g : MemoryGraph} {c : Context}

/-- Every edge of such a graph can be looked at. -/
theorem readsEdge (h : g.Legible c) (hg : g.Seeded) {r : Recorder} (hr : r.context = c) {e : Edge}
    (he : e ∈ g.added.toList) : r.ReadsEdge e := by
  have reads (side : Side) : r.Reads (e.endAt side) := by
    obtain ⟨k, hk, hv⟩ := hg.ends e he side
    obtain ⟨s, hs, _⟩ := (Value.key_eq_ok_iff _ _).mp hk
    refine ⟨⟨s, hs⟩, ?_, ?_⟩
    · rw [hr]
      exact h.judged k _ hv
    · rw [hr]
      exact Context.header_isOk c (h.classified k _ hv)
  exact ⟨reads .outgoing, reads .incoming, hg.ids e he⟩

/-- **A walk over edges of such a graph ends**, if no vertex budget is set and the edges of a root
that is a process are open: its lineage answers the request with the headers of the vertices of the
graph, and holds what the walk brings in. -/
theorem walk_ends {w : Walker Outcome} {T : Terrain} {direction : Direction} {x₀ : VertexBudget}
    {k : Key} (h : g.Legible c) (hg : g.Seeded) (hk : c.root.id.key = .ok k)
    (hopen : c.isDataset = false → ∀ e ∈ T.rootEdges c, (w.recorder c).opensEdge e = .ok true)
    (ho : w.Over (direction == .input) T) (hes : ∀ e ∈ T.edges, e ∈ g.added.toList)
    (hx : x₀.limit.truth = false) :
    ∃ l x, w.walk c direction x₀ = .ok (l, x) ∧ c.Answers (g.HeaderAt c) direction l ∧
      l.Holds (T.Yields (w.recorder c)) := by
  obtain ⟨⟨l, x⟩, hl⟩ :=
    Walker.walk_isOk ho hk hopen (fun e he => h.readsEdge hg rfl (hes e he)) hx
  obtain ⟨hguid, hdirection, hdepth⟩ := Walker.walk_about ho hk hl
  refine ⟨l, x, hl, ⟨hguid, hdirection, hdepth, ?_⟩, Walker.walk_holds ho hk (hg.uniqueIds hes) hl⟩
  -- the ends of the edges are the vertices of the graph
  refine Walker.walk_keeps (P := fun l => l.Pictures (g.HeaderAt c)) ho hk hl ?_
    (fun _ _ hP => hP) (.empty _ _ _)
  intro e he v hv l id hd hid hhd hP
  refine hP.putEntity ⟨v, ?_, hhd⟩
  rcases hv with rfl | rfl
  · obtain ⟨k, hk, hv⟩ := hg.ends e (hes e he) .outgoing
    have hk : e.source.id.key = .ok k := hk
    rw [hid] at hk
    cases hk
    exact hv
  · obtain ⟨k, hk, hv⟩ := hg.ends e (hes e he) .incoming
    have hk : e.target.id.key = .ok k := hk
    rw [hid] at hk
    cases hk
    exact hv

end Legible

end MemoryGraph

namespace GraphRequest

variable {t : Taxonomy} {g : MemoryGraph} {p : Policy} {req : LineageRequest} {c : Context}

/-- The root is found under the key of the guid. -/
theorem root_key (h : GraphRequest t g p req c) (hg : g.Seeded) :
    ∃ k, req.guid.key = .ok k ∧ c.root.id.key = .ok k ∧ k ≠ .nan := by
  obtain ⟨hfound, _⟩ := LineageRequest.context_ok h.admitted
  obtain ⟨k, hk, hroot, _⟩ := LineageRequest.root_key hg.built hfound
  exact ⟨k, hk, hroot, Value.key_ne_nan hk h.number⟩

/-- The graph can be looked at for the request. -/
theorem legible (h : GraphRequest t g p req c) : g.Legible c := by
  obtain ⟨_, _, _, hprojector, _⟩ := LineageRequest.context_ok h.admitted
  exact ⟨h.classified, hprojector ▸ h.judged⟩

/-- **Every edge of the graph can be looked at.** -/
theorem readsEdge (h : GraphRequest t g p req c) (hg : g.Seeded) {r : Recorder}
    (hr : r.context = c) {e : Edge} (he : e ∈ g.added.toList) : r.ReadsEdge e :=
  h.legible.readsEdge hg hr he

/-- The budget of the request is that of its depth. -/
theorem budget_eq (h : GraphRequest t g p req c) {n : Nat}
    (hn : req.depth.wholeNumber? = some (n : Int)) : c.budget = .ofDepth n := by
  obtain ⟨_, _, _, _, _, n', hn', hb⟩ := LineageRequest.context_ok h.admitted
  rw [hn] at hn'
  rw [hb, Int.ofNat.inj (Option.some.inj hn')]

variable {w : Walker Outcome} {T : Terrain} {direction : Direction} {x₀ : VertexBudget} {n : Nat}

/-- The edges of the root leave the root. -/
theorem isRoot_source (h : GraphRequest t g p req c) (hg : g.Seeded) {e : Edge}
    (he : e ∈ T.rootEdges c) : c.isRoot e.source = true := by
  obtain ⟨k, _, hk, hnan⟩ := h.root_key hg
  obtain ⟨_, _, k', hk', hs⟩ := Terrain.mem_rootEdges.mp he
  rw [hk] at hk'
  cases hk'
  exact Walker.isRoot_of_key hk hnan hs

/-- **A walk over edges of the graph brings in the reference.** -/
theorem yields_iff (h : GraphRequest t g p req c) (hg : g.Seeded) {r : Recorder}
    (hr : r.context = c) (hes : ∀ e ∈ T.edges, e ∈ g.added.toList)
    (hn : req.depth.wholeNumber? = some (n : Int)) (x : Relation) :
    T.Yields r x ↔ T.Reference r.taxonomy.labels c r.requireBoth n x := by
  subst hr
  exact Terrain.yields_iff_reference (fun e he => h.readsEdge hg rfl (hes e he)) (h.budget_eq hn)
    (fun e he => h.isRoot_source hg he) x

/-- **A walk over edges of the graph ends**, if no vertex budget is set: its lineage answers the
request with the headers of the vertices of the graph, and holds what the walk brings in. -/
theorem walk_ends (h : GraphRequest t g p req c) (hg : g.Seeded)
    (ho : w.Over (direction == .input) T) (hes : ∀ e ∈ T.edges, e ∈ g.added.toList)
    (hx : x₀.limit.truth = false) :
    ∃ l x, w.walk c direction x₀ = .ok (l, x) ∧ c.Answers (g.HeaderAt c) direction l ∧
      l.Holds (T.Yields (w.recorder c)) := by
  obtain ⟨k, _, hk, _⟩ := h.root_key hg
  exact h.legible.walk_ends hg hk (fun _ e he => Recorder.opensEdge_root (h.isRoot_source hg he))
    ho hes hx

end GraphRequest

/-! ## 2. Exactness -/

/-- A lineage in one direction is the result of its walk. -/
theorem Walker.traverse_single {w : Walker Outcome} {c : Context} (hd : c.direction ≠ .both)
    {l : LineageGraph} {x : VertexBudget}
    (h : w.walk c c.direction (.start w.maxVertices) = .ok (l, x)) : w.traverse c = .ok l := by
  have hwalks : c.direction.walks = [c.direction] := (Direction.walks_single _).mpr hd
  have hall : walkAll (w.walk c) [c.direction] (.start w.maxVertices) = .ok [l] := by
    unfold walkAll
    rw [h]
    rfl
  unfold traverse
  have hlen : [l].length = c.direction.walks.length := by rw [hwalks]; rfl
  rw [hwalks, hall]
  rcases Context.aggregate_cases hlen with ⟨_, l', hl, ha⟩ | ⟨hb, _⟩
  · cases hl
    exact congrArg Except.ok ha
  · exact absurd hb hd

/-- **A lineage in one direction is exactly the reference lineage**: it succeeds, it says which
request it answers, its relations are those of the reference, and its entities are the ends of
these, with the headers of the vertices that the graph keeps. -/
theorem traverse_exact {t : Taxonomy} {data : Value} {g : MemoryGraph} {p : Policy}
    {req : LineageRequest} {c : Context} (hseed : MemoryGraph.ofSeed t data = .ok g)
    (h : GraphRequest t g p req c) (requireBoth : Bool) {limit : Value}
    (hlimit : limit.truth = false) (hdirection : c.direction ≠ .both) {n : Nat}
    (hn : req.depth.wholeNumber? = some (n : Int)) {T : Terrain}
    (hT : T.For g.added.toList t.labels (c.direction == .input)) :
    ∃ l, (⟨g.access, t, requireBoth, limit⟩ : Walker Outcome).traverse c = .ok l ∧
      (l.guid = req.guid ∧ l.direction = c.direction ∧ l.depth = req.depth) ∧
      (∀ x, l.hasRelation x = true ↔
        ∃ y, T.Reference t.labels c requireBoth n y ∧ x.same y = true) ∧
      ∀ id hd, EntityMap.get? l.entities id = some hd ↔
        (∃ y, T.Reference t.labels c requireBoth n y ∧
          (y.source.key = id.key ∨ y.target.key = id.key)) ∧
        ∃ v, g.vertices[id.key]? = some v ∧ c.header v = .ok hd := by
  have hg : g.Seeded := MemoryGraph.ofSeed_seeded hseed
  have hes : ∀ e ∈ T.edges, e ∈ g.added.toList := fun e he => hT.edges ▸ he
  have ho : (⟨g.access, t, requireBoth, limit⟩ : Walker Outcome).Over (c.direction == .input) T :=
    ⟨hT.edges ▸ hg.built.shows _, hT.into, hT.out⟩
  have hx : (VertexBudget.start limit).limit.truth = false := hlimit
  obtain ⟨l, x, hl, hanswers, hholds⟩ := h.walk_ends hg ho hes hx
  obtain ⟨_, hguid, hdepth, _⟩ := LineageRequest.context_ok h.admitted
  have href := hholds.congr fun y => h.yields_iff hg rfl hes hn y
  refine ⟨l, Walker.traverse_single hdirection hl, ⟨hanswers.guid.trans hguid, hanswers.direction,
    hanswers.depth.trans hdepth⟩, href.records.relations, fun id hd => ?_⟩
  rw [LineageGraph.get?_eq_some_iff hanswers.pictures MemoryGraph.headerAt_once, href.names id]
  rfl

/-! ## 3. A catalogue with a loop

The job `p` reads the tables `y` and `z` and writes `x`; the job `q` reads `x` and writes `z`. So
what flows out of `y` comes back to `p` over `z`. -/

namespace Loop

/-- Tables are datasets, jobs are processes. -/
def taxonomy : Taxonomy where
  datasetMarker := .text "DataSet"
  processMarker := .text "Process"
  labels := ⟨.text "reads", .text "writes"⟩
  types := [⟨"Table", [], ["Table", "DataSet"]⟩, ⟨"Job", [], ["Job", "Process"]⟩]

/-- An asset that has only its id. -/
def asset (id : String) : Value := .record [("id", .text id)]

/-- A relationship from a job to a table. -/
def link (id label job table : String) : Value :=
  .record [("id", .text id), ("type", .text label), ("from", .text job), ("to", .text table)]

/-- The seed data of the catalogue. -/
def seed : Value := .record [
  ("assets", .record [
    ("Table", .list [asset "x", asset "y", asset "z"]),
    ("Job", .list [asset "p", asset "q"])]),
  ("relationships", .list [
    link "1" "reads" "p" "y", link "2" "reads" "p" "z", link "3" "writes" "p" "x",
    link "4" "reads" "q" "x", link "5" "writes" "q" "z"])]

/-- A row that has only its id. -/
def row (id : String) : Record := [("id", .text id)]

/-- A relationship from a job to a table, once it is accepted. -/
def between (id label job table : String) : SeedRelationship :=
  ⟨.text label, .text job, .text table, .text id⟩

/-- The seed data of the catalogue, once it is accepted. -/
def accepted : Seed where
  assets := [("Table", [row "x", row "y", row "z"]), ("Job", [row "p", row "q"])]
  relationships := [
    between "1" "reads" "p" "y", between "2" "reads" "p" "z", between "3" "writes" "p" "x",
    between "4" "reads" "q" "x", between "5" "writes" "q" "z"]

theorem validated : Seed.validate taxonomy seed = .ok accepted := by cbv

/-- Every row has its id alone. -/
theorem rows_eq {r : Scalar × Record} (hr : r ∈ accepted.rows) : ∃ id, r.2 = row id := by
  simp only [Seed.rows, Seed.rowsOf, accepted, List.flatMap_cons, List.flatMap_nil, List.map_cons,
    List.map_nil, List.mem_append, List.mem_cons, List.not_mem_nil, or_false] at hr
  rcases hr with (rfl | rfl | rfl) | rfl | rfl <;> exact ⟨_, rfl⟩

def table (id : String) : Vertex := ⟨.text id, .text "Table", []⟩

def job (id : String) : Vertex := ⟨.text id, .text "Job", []⟩

def edge (id label source target : String) : Edge :=
  ⟨.text label, job source, table target, .text id, []⟩

/-- The five edges, in the order of the seed data. -/
def edges : List Edge := [
  edge "1" "reads" "p" "y", edge "2" "reads" "p" "z", edge "3" "writes" "p" "x",
  edge "4" "reads" "q" "x", edge "5" "writes" "q" "z"]

/-- What flows out of `y`, in the order in which a walk finds it. -/
def flows : List Relation := [
  ⟨.text "y", .text "p", .text "1", .null⟩, ⟨.text "p", .text "x", .text "3", .null⟩,
  ⟨.text "x", .text "q", .text "4", .null⟩, ⟨.text "q", .text "z", .text "5", .null⟩,
  ⟨.text "z", .text "p", .text "2", .null⟩]

def vertices : Std.HashMap Key Vertex :=
  (((((∅ : Std.HashMap Key Vertex).insert (.text "x") (table "x")).insert (.text "y")
    (table "y")).insert (.text "z") (table "z")).insert (.text "p") (job "p")).insert (.text "q")
      (job "q")

/-- The index with one more edge under its own keys. -/
def enter (index : EdgeIndex) (e : Edge) : EdgeIndex :=
  match e.keys with
  | .ok k => index.add k e
  | .error _ => index

/-- **The graph of the catalogue.** -/
def graph : MemoryGraph := ⟨vertices, edges.foldl enter .empty, edges.toArray⟩

theorem ofSeed_eq : MemoryGraph.ofSeed taxonomy seed = .ok graph := by cbv

theorem seeded : graph.Seeded := MemoryGraph.ofSeed_seeded ofSeed_eq

/-- The five vertices bound how long a walk goes on. -/
theorem accessWith_eq (answer : Script → Outcome (List Edge)) :
    graph.accessWith answer = ⟨5, graph.find, graph.edges, answer⟩ := by
  have hsize : graph.vertices.size = 5 := by
    simp [graph, vertices, Std.HashMap.size_insert]
  unfold MemoryGraph.accessWith
  rw [hsize]

/-- Everything is shown, and everybody may read it. -/
def policy : Policy := ⟨taxonomy, ⟨false, admitsAll []⟩, .allowAll⟩

/-- The request for all that flows out of `y`. -/
def request : LineageRequest :=
  { LineageRequest.about (.text "y") with depth := .int 0, direction := .text "OUTPUT" }

/-- The context of the request. -/
def context : Context where
  guid := .text "y"
  root := table "y"
  direction := .output
  budget := .unbounded
  requestedDepth := .int 0
  hideProcess := .bool false
  attributes := []
  isDataset := true
  isProcess := false
  projector := ⟨false, admitsAll []⟩
  criteria := []

theorem admitted : request.context policy graph.access = .ok context := by cbv

/-- No vertex of the catalogue has properties. -/
theorem properties_eq {k : Key} {v : Vertex} (h : graph.vertices[k]? = some v) :
    v.properties = [] := by
  have h : vertices[k]? = some v := h
  simp only [vertices, Std.HashMap.getElem?_insert] at h
  grind [table, job]

/-- The request keeps what its callers promise. -/
theorem graphRequest : GraphRequest taxonomy graph policy request context where
  taxonomy := rfl
  classified k v hv x hx := by
    rw [properties_eq hv] at hx
    cases hx
  judged k v hv := by
    refine Projector.admits_isOk ⟨true, ?_⟩ fun _ hc => absurd hc List.not_mem_nil
    unfold Projector.visible Projector.isDeleted Vertex.property
    rw [properties_eq hv]
    rfl
  number h := by cases h
  admitted := admitted

/-- What the walk in the direction of the data goes over. -/
def terrain : Terrain := ⟨edges, .text "reads", .text "writes"⟩

theorem terrain_for : terrain.For graph.added.toList taxonomy.labels false := ⟨rfl, rfl, rfl⟩

end Loop

/-- The lineage around the loop is the reference. -/
theorem traverse_exact_loop :
    GraphRequest Loop.taxonomy Loop.graph Loop.policy Loop.request Loop.context ∧
    ∃ l, (⟨Loop.graph.access, Loop.taxonomy, false, .int 0⟩ : Walker Outcome).traverse
        Loop.context = .ok l ∧
      (l.guid = .text "y" ∧ l.direction = .output ∧ l.depth = .int 0) ∧
      (∀ x, l.hasRelation x = true ↔ ∃ y,
        Loop.terrain.Reference Loop.taxonomy.labels Loop.context false 0 y ∧ x.same y = true) ∧
      ∀ id hd, EntityMap.get? l.entities id = some hd ↔
        (∃ y, Loop.terrain.Reference Loop.taxonomy.labels Loop.context false 0 y ∧
          (y.source.key = id.key ∨ y.target.key = id.key)) ∧
        ∃ v, Loop.graph.vertices[id.key]? = some v ∧ Loop.context.header v = .ok hd :=
  ⟨Loop.graphRequest, traverse_exact Loop.ofSeed_eq Loop.graphRequest false rfl (by decide) rfl
    Loop.terrain_for⟩

end DataLineage
