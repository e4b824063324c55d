import DataLineage.Proofs.Lineage.Exact
import DataLineage.Proofs.Pattern.Replay
import DataLineage.Proofs.Request.Resolved
import DataLineage.Proofs.Walk.Linked

/-!
# Resolved lineages are closed and hang together

Whatever edges a graph holds or a database answers, a lineage that is resolved misses no entity. If
no two different edges share a relationship id, it has no entity beside the ends of its relations,
and a chain of its relations leads from the base to each of them.

* `LineageGraph.NoOrphans`, `LineageGraph.HangsFrom` -- no entity is too many, and all are
  connected;
* `Service.Walked` -- how a result came about: by a walk over edges of the graph, or of an answer;
* `Service.info_walked` -- a resolved lineage is made of such results;
* `Service.resolved_connected` -- **a resolved lineage is closed, has no orphans, and hangs
  together**.
-/

open Relation (ReflTransGen)

namespace DataLineage

namespace LineageGraph

/-! ## 1. Without orphans, and connected -/

/-- **The graph has no orphans**: its entities are the ends of its relations. -/
def NoOrphans (g : LineageGraph) : Prop := g.Names (Ends fun x => g.hasRelation x = true)

/-- **The graph hangs together around what has the key**: if there is an entity, what has the key is
one, and a chain of relations leads from it to each of them. -/
def HangsFrom (g : LineageGraph) (k : Key) : Prop :=
  ∀ id, g.hasEntity id = true →
    ReflTransGen g.Linked k id.key ∧ ∀ base : Scalar, base.key = k → g.hasEntity base = true

variable {g : LineageGraph} {c : Context} {results : List LineageGraph}

theorem Holds.noOrphans {R : DataLineage.Relation → Prop} (h : g.Holds R) : g.NoOrphans :=
  h.names.congr fun k => (ends_same h.records.relations k).symm

theorem NoOrphans.ends (h : g.NoOrphans) (id : Scalar) : g.hasEntity id = true ↔
    ∃ x ∈ g.relations, x.source.key = id.key ∨ x.target.key = id.key :=
  (h id).trans (ends_same (fun _ => hasRelation_iff) id.key)

theorem NoOrphans.aggregate (hlen : results.length = c.direction.walks.length)
    (h : ∀ l ∈ results, l.NoOrphans) : (c.aggregate results).NoOrphans := by
  intro id
  rw [Context.hasEntity_aggregate hlen]
  constructor
  · intro h'
    obtain ⟨l, hl, hid⟩ := h'
    obtain ⟨x, hx, hend⟩ := (h l hl id).mp hid
    exact ⟨x, (Context.hasRelation_aggregate hlen).mpr ⟨l, hl, hx⟩, hend⟩
  · intro h'
    obtain ⟨x, hx, hend⟩ := h'
    obtain ⟨l, hl, hx⟩ := (Context.hasRelation_aggregate hlen).mp hx
    exact ⟨l, hl, (h l hl id).mpr ⟨x, hx, hend⟩⟩

theorem HangsFrom.aggregate {k : Key} (hlen : results.length = c.direction.walks.length)
    (h : ∀ l ∈ results, l.HangsFrom k) : (c.aggregate results).HangsFrom k := by
  intro id hid
  obtain ⟨l, hl, hid⟩ := (Context.hasEntity_aggregate hlen).mp hid
  obtain ⟨hchain, hbase⟩ := h l hl id hid
  refine ⟨chain_mono (fun x hx => (Context.hasRelation_aggregate hlen).mpr ⟨l, hl, hx⟩) hchain, ?_⟩
  intro base hb
  exact (Context.hasEntity_aggregate hlen).mpr ⟨l, hl, hbase base hb⟩

end LineageGraph

namespace Service

/-! ## 2. How results come about -/

/-- **The graph is the result of a walk** of the request, in one of its directions, over some of the
given edges. -/
def Walked (c : Context) (es : List Edge → Prop) (l : LineageGraph) : Prop :=
  ∃ (w : Walker Outcome) (t : Terrain) (direction : Direction) (edges : List Edge)
    (x x' : VertexBudget), w.Over (direction == .input) t ∧ es edges ∧
      (∀ e ∈ t.edges, e ∈ edges) ∧ w.walk c direction x = .ok (l, x')

/-- The lists of edges that a service over a graph in memory reads for a request: the edges of the
graph, or what is answered to the pattern of a direction. -/
def ReadEdges (s : Service Outcome) (g : MemoryGraph) (c : Context) (es : List Edge) : Prop :=
  if s.usesPattern c then ∃ direction ∈ c.direction.walks, ∃ pattern,
    LineagePattern.make s.policy.taxonomy c.guid direction c.depth c.isDataset = .ok pattern ∧
      s.graph.runScript pattern.script = .ok es
  else es = g.added.toList

variable {s : Service Outcome} {g : MemoryGraph} {answer : Script → Outcome (List Edge)}
  {inKey outKey : Key} {req : LineageRequest} {res : Resolution}

/-- **A resolved lineage is made of results of walks**, for a root that is kept under the guid. -/
theorem info_walked (hg : g.Built) (hs : s.graph = g.accessWith answer)
    (hi : s.policy.taxonomy.labels.inputs.key = .ok inKey)
    (ho : s.policy.taxonomy.labels.outputs.key = .ok outKey) (h : s.info req = .ok res) :
    (∃ k, req.guid.key = .ok k ∧ res.context.root.id.key = .ok k) ∧
      res.context.guid = req.guid ∧
      ∃ results, results.length = res.context.direction.walks.length ∧
        res.lineage = res.context.aggregate results ∧
        ∀ l ∈ results, Walked res.context (s.ReadEdges g res.context) l := by
  obtain ⟨hc, hl⟩ := info_ok h
  generalize res.context = c at hc hl ⊢
  unfold lineageOf at hl
  obtain ⟨hfound, hguid, _⟩ := LineageRequest.context_ok hc
  rw [hs] at hfound
  obtain ⟨k, hk, hroot, _⟩ := LineageRequest.root_key hg hfound
  refine ⟨⟨k, hk, hroot⟩, hguid, ?_⟩
  by_cases hp : s.usesPattern c = true
  · rw [if_pos hp] at hl
    obtain ⟨_, results, hlen, ha, hall⟩ := Walker.traverseAnswers_ok hl
    refine ⟨results, hlen, ha, fun l hl => ?_⟩
    obtain ⟨direction, hd, x, x', hwalk⟩ := hall l hl
    obtain ⟨pattern, edges, a, es, hp', he, hkeeps, hsub, hwalk⟩ := Walker.walkAnswer_ok hwalk
    obtain ⟨ki, ko, hki, hko⟩ :=
      EdgeLabels.forDirection_keys hi ho (direction == .input)
    refine ⟨s.walker.replaying a, ⟨es, ki, ko⟩, direction, edges, x, x',
      ⟨hkeeps.shows, hki, hko⟩, ?_, hsub, hwalk⟩
    unfold ReadEdges
    rw [if_pos hp]
    exact ⟨direction, hd, pattern, hp', he⟩
  · rw [if_neg hp] at hl
    obtain ⟨results, hlen, ha, hall⟩ := Walker.traverse_ok hl
    refine ⟨results, hlen, ha, fun l hl => ?_⟩
    obtain ⟨direction, _, x, x', hwalk⟩ := hall l hl
    obtain ⟨ki, ko, hki, hko⟩ :=
      EdgeLabels.forDirection_keys hi ho (direction == .input)
    refine ⟨s.walker, ⟨g.added.toList, ki, ko⟩, direction, g.added.toList, x, x', ⟨?_, hki, hko⟩, ?_,
      fun _ he => he, hwalk⟩
    · show s.graph.Shows g.added.toList
      rw [hs]
      exact hg.shows answer
    · unfold ReadEdges
      rw [if_neg hp]

/-! ## 3. What resolved lineages are -/

variable {c : Context} {es : List Edge → Prop} {l : LineageGraph} {k : Key}

theorem Walked.closed (h : Walked c es l) (hk : c.root.id.key = .ok k) : l.Closed := by
  obtain ⟨w, t, direction, edges, x, x', ho, _, _, hwalk⟩ := h
  exact Walker.walk_closed ho hk hwalk

theorem Walked.guid (h : Walked c es l) (hk : c.root.id.key = .ok k) :
    l.guid = c.guid := by
  obtain ⟨w, t, direction, edges, x, x', ho, _, _, hwalk⟩ := h
  exact (Walker.walk_about ho hk hwalk).1

/-- **A result has no orphans.** -/
theorem Walked.noOrphans (h : Walked c es l) (hk : c.root.id.key = .ok k)
    (hU : ∀ edges, es edges → UniqueIds edges) : l.NoOrphans := by
  obtain ⟨w, t, direction, edges, x, x', ho, hes, hsub, hwalk⟩ := h
  exact (Walker.walk_holds ho hk ((hU edges hes).subset hsub) hwalk).noOrphans

/-- **A result hangs together around its root.** -/
theorem Walked.hangsFrom (h : Walked c es l) (hk : c.root.id.key = .ok k) (hn : k ≠ .nan)
    (hU : ∀ edges, es edges → UniqueIds edges) : l.HangsFrom k := by
  obtain ⟨w, t, direction, edges, x, x', ho, hes, hsub, hwalk⟩ := h
  have hholds := Walker.walk_holds ho hk ((hU edges hes).subset hsub) hwalk
  intro id hid
  obtain ⟨hchain, hroot⟩ := Walker.walk_links ho hk hn hwalk ((hholds.names id).mp hid)
  have hrelation (y : DataLineage.Relation) (hy : t.Yields (w.recorder c) y) :
      l.hasRelation y = true := (hholds.records.relations y).mpr ⟨y, hy, Relation.same_refl y⟩
  refine ⟨ReflTransGen.mono (fun _ _ hab => LineageGraph.linked_of_links hrelation hab) _ _ hchain,
    fun base hbase => ?_⟩
  rw [hholds.names base, hbase]
  exact hroot

/-- **Every resolved lineage is closed.** If no two different edges that are read share a
relationship id, its entities are the ends of its relations, and whenever there is one the base is
an entity and a chain of relations leads from it to each of them. -/
theorem resolved_connected (hg : g.Built) (hs : s.graph = g.accessWith answer)
    (hi : s.policy.taxonomy.labels.inputs.key = .ok inKey)
    (ho : s.policy.taxonomy.labels.outputs.key = .ok outKey)
    (h : s.info req = .ok res ∨ s.resolve req = .ok res) :
    res.lineage.missingEntities = [] ∧
      ((∀ es, s.ReadEdges g res.context es → UniqueIds es) →
        (∀ id, res.lineage.hasEntity id = true ↔
          ∃ x ∈ res.lineage.relations, x.source.key = id.key ∨ x.target.key = id.key) ∧
        (req.guid ≠ .float .nan → ∀ id, res.lineage.hasEntity id = true →
          ∃ base, res.lineage.guid = .scalar base ∧ res.lineage.hasEntity base = true ∧
            ReflTransGen res.lineage.Linked base.key id.key)) := by
  obtain ⟨req', hguid', h⟩ : ∃ req', req'.guid = req.guid ∧ s.info req' = .ok res :=
    h.elim (fun h => ⟨req, rfl, h⟩) resolve_ok
  obtain ⟨⟨k, hkey, hk⟩, hguid, results, hlen, hagg, hall⟩ := info_walked hg hs hi ho h
  rw [hguid'] at hkey hguid
  rw [hagg]
  refine ⟨?_, fun hU => ⟨?_, fun hnumber id hid => ?_⟩⟩
  · exact LineageGraph.missingEntities_eq_nil
      (Context.aggregate_closed hlen fun l hl => (hall l hl).closed hk)
  · exact (LineageGraph.NoOrphans.aggregate hlen fun l hl => (hall l hl).noOrphans hk hU).ends
  · have hn : k ≠ .nan := Value.key_ne_nan hkey hnumber
    obtain ⟨base, hbase, rfl⟩ := (Value.key_eq_ok_iff _ _).mp hkey
    have hhangs : (res.context.aggregate results).HangsFrom base.key :=
      .aggregate hlen fun l hl => (hall l hl).hangsFrom hk hn hU
    have habout := Context.aggregate_guid hlen fun l hl => (hall l hl).guid hk
    obtain ⟨hchain, hroot⟩ := hhangs id hid
    exact ⟨base, habout.trans (hguid.trans hbase), hroot base rfl, hchain⟩

end Service

/-! ## 4. Around the loop -/

namespace Loop

/-- A service over the catalogue, whose database answers every script with all edges. -/
def service : Service Outcome :=
  ⟨graph.accessWith fun _ => .ok edges, policy, true, false, .int 0⟩

theorem info_flows : (service.info request).map (fun res => res.lineage.relations) = .ok flows := by
  cbv

/-- The five edges have five relationship ids. -/
theorem uniqueIds : UniqueIds edges := seeded.uniqueIds fun _ h => h

end Loop

namespace Service

/-- What is resolved around the loop hangs together. -/
theorem resolved_connected_loop :
    Loop.graph.Built ∧ ∃ res, Loop.service.info Loop.request = .ok res ∧
      res.lineage.relations = Loop.flows ∧ res.lineage.missingEntities = [] ∧
        (∀ id, res.lineage.hasEntity id = true ↔
          ∃ x ∈ res.lineage.relations, x.source.key = id.key ∨ x.target.key = id.key) ∧
        ∀ id, res.lineage.hasEntity id = true → ∃ base, res.lineage.guid = .scalar base ∧
          res.lineage.hasEntity base = true ∧ ReflTransGen res.lineage.Linked base.key id.key := by
  obtain ⟨res, hres, hflows⟩ := Outcome.map_eq_ok Loop.info_flows
  obtain ⟨hclosed, hmore⟩ := resolved_connected Loop.seeded.built rfl rfl rfl (.inl hres)
  obtain ⟨hends, hchain⟩ := hmore fun es hes => by
    unfold ReadEdges at hes
    split at hes
    · obtain ⟨_, _, _, _, hanswer⟩ := hes
      cases hanswer
      exact Loop.uniqueIds
    · rw [hes]
      exact Loop.uniqueIds
  exact ⟨Loop.seeded.built, res, hres, hflows, hclosed, hends, hchain fun h => nomatch h⟩

end Service

end DataLineage
