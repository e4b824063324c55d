import DataLineage.Proofs.Lineage.Exact
import DataLineage.Proofs.Lineage.Limited
import DataLineage.Proofs.Listing.Ordered

/-!
# Which resolved lineages can be written

A lineage is written with its relations in the order of their listing. Seed data may use ids of
different kinds, and leave out the ids of relationships, so that two relations of a lineage need not
have an order.

* `Scalar.truth_eq_counts` -- whether an id counts depends on its key alone;
* `Seed.Uniform` -- **the ids of seed data are alike**: those of assets, those of processes, and
  those of relationships, each where they count and as the empty text where they do not;
* `Terrain.Yields.families` -- then all relations of a walk are alike in their families;
* `Service.resolved_distinct`, `Service.resolved_uniform` -- what is resolved over seed data holds
  no relation twice, and can be listed if the ids are alike;
* `Service.resolved_written` -- **which resolved lineages can be written**, and that all relations
  are, once each.
-/

namespace DataLineage

/-! ## 1. Ids that count -/

/-- A double is zero exactly when its mantissa is. -/
theorem Double.scaled_eq_zero (n e : Int) : Double.scaled n e = 0 ↔ n = 0 := by
  unfold scaled
  split
  · rw [Rat.intCast_eq_zero_iff, Int.mul_eq_zero]
    simp
  · exact Rat.mkRat_eq_zero (Nat.pow_pos (by decide)).ne'

/-- Does what has the key count as true? -/
def Key.counts : Key → Bool
  | .null => false
  | .number q => q != 0
  | .text s => !s.isEmpty
  | _ => true

/-- **Whether a scalar counts as true depends on its key alone.** -/
theorem Scalar.truth_eq_counts (s : Scalar) : s.truth = s.key.counts := by
  cases s with
  | null => rfl
  | bool b => cases b <;> rfl
  | int n => simp [truth, key, Key.counts, bne]
  | float x =>
      cases x with
      | finite negative m e =>
          show (m != 0) = (Double.scaled (if negative then -(m : Int) else m) e != 0)
          rw [Bool.eq_iff_iff, bne_iff_ne, bne_iff_ne, Ne, Ne, Double.scaled_eq_zero]
          cases negative <;> simp
      | infinite negative => rfl
      | nan => rfl
  | text s => rfl
  | moment m => rfl

/-- What stands for an id in a sort key has a family that depends on the key of the id alone. -/
theorem Relation.idOrBlank_family {s u : Scalar} (h : s.key = u.key) :
    (idOrBlank s).family? = (idOrBlank u).family? := by
  unfold idOrBlank
  rw [s.truth_eq_counts, u.truth_eq_counts, h]
  split
  · exact congrArg Key.family? h
  · rfl

/-- Relations that are the same are alike in their families. -/
theorem Relation.families_of_same {x y : Relation} (h : x.same y = true) :
    families? x.sortKey = families? y.sortKey := by
  obtain ⟨hs, ht, hr, hp⟩ := (same_iff x y).mp h
  have hsource : x.source.family? = y.source.family? := congrArg Key.family? hs
  have htarget : x.target.family? = y.target.family? := congrArg Key.family? ht
  simp only [families?, sortKey, List.mapM_cons, List.mapM_nil, hsource, htarget,
    idOrBlank_family hr, idOrBlank_family hp]

/-! ## 2. Ids that are alike -/

/-- The value is a scalar, of the family. -/
def Value.OfFamily (v : Value) (f : Family) : Prop := ∃ s, v = .scalar s ∧ s.family? = some f

/-- The value is a scalar, and of the family where it counts; where it does not, the family is that
of texts. -/
def Value.CountsAs (v : Value) (f : Family) : Prop :=
  ∃ s, v = .scalar s ∧ (Relation.idOrBlank s).family? = some f

/-- **The ids of seed data are alike**: those of all assets are of one family, and so are those of
the processes that relationships start at, and those of relationships, where they count. -/
structure Seed.Uniform (seed : Seed) (asset process relationship : Family) : Prop where
  assets : ∀ row ∈ seed.rows, (Record.get row.2 "id").OfFamily asset
  processes : ∀ r ∈ seed.relationships, r.source.CountsAs process
  relationships : ∀ r ∈ seed.relationships, r.id.CountsAs relationship

/-- The ids of an edge are alike, as those of seed data. -/
structure Edge.Uniform (e : Edge) (asset process relationship : Family) : Prop where
  source : e.source.id.OfFamily asset
  target : e.target.id.OfFamily asset
  process : e.source.id.CountsAs process
  relationship : e.relationshipId.CountsAs relationship

variable {asset process relationship : Family}

/-- **Texts are alike**, also where the ids of some relationships are missing. -/
theorem Seed.Uniform.of_texts {seed : Seed}
    (hassets : ∀ row ∈ seed.rows, ∃ s, Record.get row.2 "id" = .text s)
    (hprocesses : ∀ r ∈ seed.relationships, ∃ s, r.source = .text s)
    (hrelationships : ∀ r ∈ seed.relationships, r.id = .null ∨ ∃ s, r.id = .text s) :
    seed.Uniform .text .text .text := by
  have text (s : String) : (Relation.idOrBlank (.text s)).family? = some .text := by
    unfold Relation.idOrBlank
    split <;> rfl
  refine ⟨fun row hrow => ?_, fun r hr => ?_, fun r hr => ?_⟩
  · obtain ⟨s, hs⟩ := hassets row hrow
    exact ⟨_, hs, rfl⟩
  · obtain ⟨s, hs⟩ := hprocesses r hr
    exact ⟨_, hs, text s⟩
  · rcases hrelationships r hr with hnull | ⟨s, hs⟩
    · exact ⟨_, hnull, rfl⟩
    · exact ⟨_, hs, text s⟩

/-- **The edges of a graph that holds such seed data are alike.** -/
theorem MemoryGraph.Stores.uniform {g : MemoryGraph} {seed : Seed} (h : g.Stores seed)
    (hu : seed.Uniform asset process relationship) {e : Edge} (he : e ∈ g.added.toList) :
    e.Uniform asset process relationship := by
  obtain ⟨r, hr, hstands⟩ := h.relationship he
  have hend {id : Value} {v : Vertex} (hv : ∃ k, id.key = .ok k ∧ g.vertices[k]? = some v) :
      v.id.OfFamily asset ∧ v.id.key = id.key := by
    obtain ⟨k, hk, hv⟩ := hv
    obtain ⟨row, hrow, hkey, rfl⟩ := (h.vertices k v).mp hv
    exact ⟨hu.assets row hrow, hkey.trans hk.symm⟩
  obtain ⟨hsource, hkey⟩ := hend hstands.source
  refine ⟨hsource, (hend hstands.target).1, ?_, hstands.id ▸ hu.relationships r hr⟩
  obtain ⟨s, hs, _⟩ := hsource
  obtain ⟨u, hu, hfamily⟩ := hu.processes r hr
  rw [hs, hu] at hkey
  exact ⟨s, hs, (Relation.idOrBlank_family (Except.ok.inj hkey)).trans hfamily⟩

/-! ## 3. Relations that are alike -/

/-- The families of the sort keys of relations, where processes are hidden and where they are
not. -/
def familiesOf (hides : Bool) (asset process relationship : Family) : List Family :=
  if hides then [asset, asset, .text, process] else [asset, asset, relationship, .text]

section

variable {r : Recorder} {e into out : Edge} {x : Relation}

theorem Value.OfFamily.family {v : Value} {f : Family} (h : v.OfFamily f) {s : Scalar}
    (hs : v = .scalar s) : s.family? = some f := by
  obtain ⟨u, hu, hf⟩ := h
  cases hs.symm.trans hu
  exact hf

theorem Value.CountsAs.family {v : Value} {f : Family} (h : v.CountsAs f) {s : Scalar}
    (hs : v = .scalar s) : (Relation.idOrBlank s).family? = some f := by
  obtain ⟨u, hu, hf⟩ := h
  cases hs.symm.trans hu
  exact hf

/-- The families of a sort key, place by place. -/
theorem Relation.families_eq {source target relationship process : Family}
    (hs : x.source.family? = some source) (ht : x.target.family? = some target)
    (hr : (idOrBlank x.relationshipId).family? = some relationship)
    (hp : (idOrBlank x.processId).family? = some process) :
    families? x.sortKey = some [source, target, relationship, process] := by
  simp only [families?, sortKey, List.mapM_cons, List.mapM_nil, hs, ht, hr, hp]
  rfl

theorem Recorder.relationOf_families (he : e.Uniform asset process relationship)
    (h : r.relationOf e = .ok x) :
    families? x.sortKey = some (familiesOf false asset process relationship) := by
  obtain ⟨hid, hprocess, hends⟩ := relationOf_ok h
  have hboth : x.source.family? = some asset ∧ x.target.family? = some asset := by
    rcases hends with ⟨_, hs, ht⟩ | ⟨_, hs, ht⟩
    · exact ⟨he.target.family hs, he.source.family ht⟩
    · exact ⟨he.source.family hs, he.target.family ht⟩
  refine Relation.families_eq hboth.1 hboth.2 (he.relationship.family hid) ?_
  rw [hprocess]
  rfl

theorem Recorder.relationThrough_families (hinto : into.Uniform asset process relationship)
    (hout : out.Uniform asset process relationship) (h : r.relationThrough into out = .ok x) :
    families? x.sortKey = some (familiesOf true asset process relationship) := by
  obtain ⟨hid, hprocess, hends⟩ := relationThrough_ok h
  have hboth : x.source.family? = some asset ∧ x.target.family? = some asset := by
    rcases hends with ⟨_, hs, ht⟩ | ⟨_, hs, ht⟩
    · exact ⟨hinto.target.family hs, hout.target.family ht⟩
    · exact ⟨hout.target.family hs, hinto.target.family ht⟩
  refine Relation.families_eq hboth.1 hboth.2 ?_ (hout.process.family hprocess)
  rw [hid]
  rfl

end

/-- **All relations of a walk are alike in their families**, as either all processes are hidden or
none is. -/
theorem Terrain.Yields.families {t : Terrain} {r : Recorder} {x : Relation}
    (hroot : r.context.isDataset = false → r.context.hidesProcesses = false)
    (hedges : ∀ e ∈ t.edges, e.Uniform asset process relationship) (h : t.Yields r x) :
    families? x.sortKey =
      some (familiesOf r.context.hidesProcesses asset process relationship) := by
  obtain ⟨call, hcall, hyields⟩ := h
  have huniform (e : Edge) (he : e ∈ call.edges) : e.Uniform asset process relationship :=
    hedges e (hcall.edges_mem.1 e he)
  cases call with
  | edge e =>
      have hhides : r.context.hidesProcesses = false := by
        cases hcall with
        | first hr _ => exact hroot hr
      rw [hhides]
      exact Recorder.relationOf_families (huniform e List.mem_cons_self) hyields.2
  | pair into out =>
      have hinto := huniform into List.mem_cons_self
      have hout := huniform out (List.mem_cons_of_mem _ List.mem_cons_self)
      have hpair : r.PairYields into out x := hyields.2
      unfold Recorder.PairYields at hpair
      cases hhides : r.context.hidesProcesses with
      | true =>
          rw [hhides, if_pos rfl] at hpair
          exact Recorder.relationThrough_families hinto hout hpair
      | false =>
          rw [hhides, if_neg Bool.false_ne_true] at hpair
          exact hpair.elim (Recorder.relationOf_families hinto) (Recorder.relationOf_families hout)

/-! ## 4. What is resolved over seed data -/

namespace Service

/-- A result of a walk holds no relation twice. -/
theorem Walked.distinct {c : Context} {es : List Edge → Prop} {l : LineageGraph} {k : Key}
    (h : Walked c es l) (hk : c.root.id.key = .ok k) : l.Distinct := by
  obtain ⟨w, t, direction, edges, x, x', ho, _, _, hwalk⟩ := h
  exact Walker.walk_keeps ho hk hwalk (fun _ _ _ _ _ _ _ _ _ h => h) (fun _ y h => h.addRelation y)
    (.empty _ _ _)

/-- The relations of a result of a walk over edges that are alike are alike in their families. -/
theorem Walked.families {c : Context} {es : List Edge → Prop} {l : LineageGraph} {k : Key}
    (h : Walked c es l) (hk : c.root.id.key = .ok k)
    (hroot : c.isDataset = false → c.hidesProcesses = false)
    (hes : ∀ edges, es edges →
      UniqueIds edges ∧ ∀ e ∈ edges, e.Uniform asset process relationship)
    {x : DataLineage.Relation} (hx : l.hasRelation x = true) :
    families? x.sortKey = some (familiesOf c.hidesProcesses asset process relationship) := by
  obtain ⟨w, t, direction, edges, b, b', ho, hread, hsub, hwalk⟩ := h
  obtain ⟨hunique, huniform⟩ := hes edges hread
  have hholds := Walker.walk_holds ho hk (hunique.subset hsub) hwalk
  obtain ⟨y, hy, hsame⟩ := (hholds.records.relations x).mp hx
  rw [DataLineage.Relation.families_of_same hsame]
  exact hy.families hroot fun e he => huniform e (hsub e he)

variable {s : Service Outcome} {g : MemoryGraph} {inKey outKey : Key} {req : LineageRequest}
  {res : Resolution} {t : Taxonomy} {data : Value}

/-- A service over a graph in memory reads the edges of the graph. -/
theorem ReadEdges.eq (hs : s.graph = g.access) {c : Context} {es : List Edge}
    (h : s.ReadEdges g c es) : es = g.added.toList := by
  unfold ReadEdges at h
  split at h
  · obtain ⟨_, _, _, _, hanswer⟩ := h
    rw [hs] at hanswer
    cases hanswer
  · exact h

/-- **What is resolved holds no relation twice.** -/
theorem resolved_distinct (hg : g.Built) (hs : s.graph = g.access)
    (hi : s.policy.taxonomy.labels.inputs.key = .ok inKey)
    (ho : s.policy.taxonomy.labels.outputs.key = .ok outKey) (h : s.info req = .ok res) :
    res.lineage.Distinct := by
  obtain ⟨⟨k, _, hk⟩, _, results, hlen, hagg, hall⟩ := info_walked hg hs hi ho h
  rw [hagg]
  exact Context.aggregate_keeps hlen (fun _ l hg _ => hg.merge l) (.empty _ _ _)
    fun l hl => (hall l hl).distinct hk

/-- **What is resolved over seed data whose ids are alike can be listed.** -/
theorem resolved_uniform (hseed : MemoryGraph.ofSeed t data = .ok g) (hs : s.graph = g.access)
    (hi : s.policy.taxonomy.labels.inputs.key = .ok inKey)
    (ho : s.policy.taxonomy.labels.outputs.key = .ok outKey) (h : s.info req = .ok res)
    {seed : Seed} (hvalid : Seed.validate t data = .ok seed)
    (hu : seed.Uniform asset process relationship) :
    ∀ a ∈ res.lineage.relations, ∀ b ∈ res.lineage.relations, a.Comparable b := by
  have hseeded := MemoryGraph.ofSeed_seeded hseed
  obtain ⟨seed', hvalid', hstores⟩ := MemoryGraph.ofSeed_ok hseed
  obtain rfl : seed = seed' := Except.ok.inj (hvalid.symm.trans hvalid')
  obtain ⟨⟨k, _, hk⟩, _, results, hlen, hagg, hall⟩ := info_walked hseeded.built hs hi ho h
  obtain ⟨_, _, _, _, hroot, _⟩ := LineageRequest.context_ok (info_ok h).1
  have hedges (edges : List Edge) (hread : s.ReadEdges g res.context edges) :
      UniqueIds edges ∧ ∀ e ∈ edges, e.Uniform asset process relationship := by
    rw [hread.eq hs]
    exact ⟨hseeded.uniqueIds fun _ he => he, fun _ he => hstores.uniform hu he⟩
  apply LineageGraph.comparable_of_families
  intro x hx
  have hx : (res.context.aggregate results).hasRelation x = true :=
    hagg ▸ LineageGraph.hasRelation_of_mem hx
  obtain ⟨l, hl, hx⟩ := (Context.hasRelation_aggregate hlen).mp hx
  exact (hall l hl).families hk hroot hedges hx

/-- **Which resolved lineages can be written.** A lineage that is resolved over accepted seed data
is written exactly when every two of its relations have an order, and then all its relations are
written, once each; otherwise writing it fails. Where the ids of the seed data are alike, every
lineage that is resolved is written. -/
theorem resolved_written (hseed : MemoryGraph.ofSeed t data = .ok g) (hs : s.graph = g.access)
    (hi : s.policy.taxonomy.labels.inputs.key = .ok inKey)
    (ho : s.policy.taxonomy.labels.outputs.key = .ok outKey)
    (h : s.info req = .ok res ∨ s.resolve req = .ok res) (entities : Value) :
    ((∃ v, res.lineage.written entities = .ok v) ↔
      ∀ a ∈ res.lineage.relations, ∀ b ∈ res.lineage.relations, a.Comparable b) ∧
    ((¬ ∃ v, res.lineage.written entities = .ok v) →
      res.lineage.written entities = .error .wrongKind) ∧
    (∀ v, res.lineage.written entities = .ok v → ∃ rs : List DataLineage.Relation,
      v.field "relations" = .ok (.list (rs.map DataLineage.Relation.toValue)) ∧
      rs.Perm res.lineage.relations ∧ rs.Pairwise fun a b => a.same b = false) ∧
    ∀ seed, Seed.validate t data = .ok seed →
      (∃ asset process relationship, seed.Uniform asset process relationship) →
      ∃ v, res.lineage.written entities = .ok v := by
  obtain ⟨req', h⟩ : ∃ req', s.info req' = .ok res :=
    h.elim (fun h => ⟨req, h⟩) fun h => (resolve_ok h).imp fun _ h => h.2
  have hdistinct := resolved_distinct (MemoryGraph.ofSeed_seeded hseed).built hs hi ho h
  obtain ⟨hwritten, hfails⟩ := res.lineage.written_iff entities
  refine ⟨hwritten, hfails, fun _ => LineageGraph.written_lists hdistinct, ?_⟩
  rintro seed hvalid ⟨asset, process, relationship, hu⟩
  exact hwritten.mpr (resolved_uniform hseed hs hi ho h hvalid hu)

end Service

/-! ## 5. Around the loop, and over two parallel relationships -/

namespace Loop

/-- All ids of the catalogue are texts. -/
theorem accepted_uniform : accepted.Uniform .text .text .text := by
  refine .of_texts (fun r hr => ?_) (fun r hr => ?_) fun r hr => ?_
  · obtain ⟨id, hid⟩ := rows_eq hr
    rw [hid]
    exact ⟨id, rfl⟩
  · simp only [accepted, List.mem_cons, List.not_mem_nil, or_false] at hr
    rcases hr with rfl | rfl | rfl | rfl | rfl <;> exact ⟨_, rfl⟩
  · simp only [accepted, List.mem_cons, List.not_mem_nil, or_false] at hr
    rcases hr with rfl | rfl | rfl | rfl | rfl <;> exact .inr ⟨_, rfl⟩

theorem walking_flows :
    (walking.info request).map (fun res => res.lineage.relations) = .ok flows := by
  unfold walking MemoryGraph.access
  rw [accessWith_eq]
  cbv

end Loop

/-! Two relationships of one label lead from one job to one table. The first has a number for its
id, the second has none. -/

namespace Unlike

/-- The seed data. -/
def seed : Value := .record [
  ("assets", .record [("Table", .list [Loop.asset "y"]), ("Job", .list [Loop.asset "p"])]),
  ("relationships", .list [
    .record [("id", .int 7), ("type", .text "reads"), ("from", .text "p"), ("to", .text "y")],
    .record [("type", .text "reads"), ("from", .text "p"), ("to", .text "y")]])]

/-- The two edges. -/
def edges : List Edge := [
  ⟨.text "reads", Loop.job "p", Loop.table "y", .int 7, []⟩,
  ⟨.text "reads", Loop.job "p", Loop.table "y", .null, []⟩]

/-- The graph of the seed data. -/
def graph : MemoryGraph where
  vertices := ((∅ : Std.HashMap Key Vertex).insert (.text "y") (Loop.table "y")).insert (.text "p")
    (Loop.job "p")
  index := edges.foldl Loop.enter .empty
  added := edges.toArray

theorem ofSeed_eq : MemoryGraph.ofSeed Loop.taxonomy seed = .ok graph := by cbv

/-- A service that walks over the graph. -/
def service : Service Outcome := ⟨graph.access, Loop.policy, false, false, .int 0⟩

/-- The request for what flows into the job. -/
def request : LineageRequest :=
  { LineageRequest.about (.text "p") with depth := .int 1, direction := .text "INPUT" }

/-- What is resolved: two relations that differ in their relationship ids alone. -/
def relations : List Relation :=
  [⟨.text "y", .text "p", .int 7, .null⟩, ⟨.text "y", .text "p", .null, .null⟩]

theorem resolve_relations :
    (service.resolve request).map (fun res => res.lineage.relations) = .ok relations := by
  have haccess : graph.access =
      ⟨2, graph.find, graph.edges, fun _ => .error (.lineage .noQueryLanguage .null)⟩ := by
    have hsize : graph.vertices.size = 2 := by
      simp [graph, Std.HashMap.size_insert]
    unfold MemoryGraph.access MemoryGraph.accessWith
    rw [hsize]
  unfold service
  rw [haccess]
  cbv

end Unlike

namespace Service

/-- What flows around the loop is written. -/
theorem resolved_written_loop : ∃ res v, Loop.walking.info Loop.request = .ok res ∧
    res.lineage.written .null = .ok v ∧ ∃ rs : List DataLineage.Relation,
      v.field "relations" = .ok (.list (rs.map DataLineage.Relation.toValue)) ∧
      rs.Perm Loop.flows := by
  obtain ⟨res, hres, hflows⟩ := Outcome.map_eq_ok Loop.walking_flows
  obtain ⟨_, _, hlists, huniform⟩ :=
    resolved_written Loop.ofSeed_eq rfl rfl rfl (.inl hres) .null
  obtain ⟨v, hv⟩ := huniform Loop.accepted Loop.validated ⟨_, _, _, Loop.accepted_uniform⟩
  obtain ⟨rs, hrs, hperm, _⟩ := hlists v hv
  exact ⟨res, v, hres, hv, rs, hrs, hflows ▸ hperm⟩

/-- **A lineage that is resolved and cannot be written**: the seed data is accepted and becomes a
graph, and the request is resolved, but a number and a missing id have no order. -/
theorem resolved_unwritten : MemoryGraph.ofSeed Loop.taxonomy Unlike.seed = .ok Unlike.graph ∧
    ∃ res, Unlike.service.resolve Unlike.request = .ok res ∧
      res.lineage.relations = Unlike.relations ∧
      ∀ entities, res.lineage.written entities = .error .wrongKind := by
  obtain ⟨res, hres, hrelations⟩ := Outcome.map_eq_ok Unlike.resolve_relations
  refine ⟨Unlike.ofSeed_eq, res, hres, hrelations, fun entities => ?_⟩
  unfold LineageGraph.written LineageGraph.listing
  rw [hrelations]
  cbv

end Service

end DataLineage
