import DataLineage.Proofs.Lineage.Around
import DataLineage.Proofs.Lineage.Placed
import DataLineage.Proofs.Walk.Nested

/-!
# Lineages within lineages

A lineage grows with the depth of its request and shrinks with what the request filters out. Its
vertices are the same wherever they are found, so a lineage that has fewer relations than another is
a part of it, headers and all:

* `LineageGraph.PartOf` -- a lineage that is a part of another;
* `MemoryGraph.datasets` -- the datasets of a graph, to which all edges lead;
* `Service.Accepts`, `Accepts.resolve` -- a request around any root that is accepted, dataset or
  process, is resolved, and its lineage holds the reference;
* `LineageRequest.toDepth`, `Service.deepened` -- the same request to other depths;
* `Projector.including`, `Service.filtered` -- the same request with further filters, for a service
  that may hide what is deleted;
* `Service.resolved_nested` -- **deeper requests have more, filtered ones less**, and a depth beyond
  the number of datasets has all there is.
-/

namespace DataLineage

/-! ## 1. Parts of a lineage -/

/-- **The lineage is a part of the other**: the other has its relations, and its entities with the
same headers. -/
structure LineageGraph.PartOf (l l' : LineageGraph) : Prop where
  relations : ∀ x, l.hasRelation x = true → l'.hasRelation x = true
  entities : ∀ id hd, EntityMap.get? l.entities id = some hd →
    EntityMap.get? l'.entities id = some hd

/-- **A lineage that holds fewer relations is a part**, if both have the headers of one graph. -/
theorem LineageGraph.Holds.partOf {l l' : LineageGraph} {R R' : Relation → Prop} {g : MemoryGraph}
    {c : Context} (h : l.Holds R) (h' : l'.Holds R') (hl : l.Pictures (g.HeaderAt c))
    (hl' : l'.Pictures (g.HeaderAt c)) (hR : ∀ x, R x → R' x) : l.PartOf l' where
  relations x hx := by
    obtain ⟨y, hy, hsame⟩ := (h.records.relations x).mp hx
    exact (h'.records.relations x).mpr ⟨y, hR y hy, hsame⟩
  entities id hd hhd := by
    rw [get?_eq_some_iff hl MemoryGraph.headerAt_once, h.names] at hhd
    rw [get?_eq_some_iff hl' MemoryGraph.headerAt_once, h'.names]
    obtain ⟨⟨y, hy, hend⟩, hheader⟩ := hhd
    exact ⟨⟨y, hR y hy, hend⟩, hheader⟩

/-! ## 2. The datasets of a graph -/

/-- The keys of the dataset-like vertices. -/
def MemoryGraph.datasets (g : MemoryGraph) (t : Taxonomy) : Set Key :=
  {k | ∃ v, g.vertices[k]? = some v ∧ t.isDataset v.typeName = .ok true}

theorem MemoryGraph.datasets_finite (g : MemoryGraph) (t : Taxonomy) : (g.datasets t).Finite := by
  refine (List.finite_toSet g.vertices.keys).subset fun k hk => ?_
  obtain ⟨v, hv, _⟩ := hk
  refine Std.HashMap.mem_keys.mpr (Std.HashMap.mem_iff_isSome_getElem?.mpr ?_)
  rw [hv]
  rfl

/-- The edges of seed data lead to datasets. -/
theorem MemoryGraph.Typed.target_dataset {g : MemoryGraph} {t : Taxonomy} (h : g.Typed t)
    (hg : g.Seeded) {e : Edge} (he : e ∈ g.added.toList) {k : Key}
    (hk : e.target.id.key = .ok k) : k ∈ g.datasets t := by
  obtain ⟨k', hk', hv⟩ := hg.ends e he .incoming
  obtain rfl : k = k' := Except.ok.inj (hk.symm.trans hk')
  exact ⟨e.target, hv, (h e he).2⟩

/-! ## 3. Requests around accepted roots -/

/-- **The service accepts the request** in one direction and answers it by a walk; its guid is equal
to itself. -/
structure Service.Accepts (s : Service Outcome) (req : LineageRequest) (c : Context) : Prop where
  context : req.context s.policy s.graph = .ok c
  number : req.guid ≠ .float .nan
  single : c.direction ≠ .both
  native : s.usePatterns = true → c.hidesProcesses = true

namespace Service.Accepts

variable {s : Service Outcome} {t : Taxonomy} {g : MemoryGraph} {req : LineageRequest}
  {c : Context} {n : Nat} {T : Terrain}

/-- Over the graph of seed data the request keeps what its callers promise. -/
theorem graphRequest (h : s.Accepts req c) (hs : s.Serves t g c.criteria) :
    GraphRequest t g s.policy req c where
  taxonomy := hs.taxonomy
  classified := hs.classified
  judged := hs.judged
  number := h.number
  admitted := by
    obtain ⟨answer, hgraph⟩ := hs.graph
    have hc := h.context
    rw [hgraph] at hc
    exact hc

/-- **An accepted request is resolved**: its lineage has the headers of the vertices of the graph,
and holds the reference. -/
theorem resolve (h : s.Accepts req c) (hs : s.Serves t g c.criteria) (hg : g.Seeded)
    (hn : req.depth.wholeNumber? = some (n : Int))
    (hT : T.For g.added.toList t.labels (c.direction == .input)) :
    ∃ l, s.resolve req = .ok ⟨c, l⟩ ∧ l.Pictures (g.HeaderAt c) ∧
      l.Holds (T.Reference t.labels c s.requireBoth n) := by
  have hreq := h.graphRequest hs
  have hes : ∀ e ∈ T.edges, e ∈ g.added.toList := fun e he => hT.edges ▸ he
  have hx : (VertexBudget.start s.maxVertices).limit.truth = false := hs.unlimited
  obtain ⟨l, x, hl, hanswers, hholds⟩ :=
    hreq.walk_ends hg (w := s.walker) (hs.over hg hT) hes hx
  refine ⟨l, resolve_walked h.context h.single h.native hl, hanswers.pictures,
    hholds.congr fun y => ?_⟩
  obtain rfl : s.policy.taxonomy = t := hs.taxonomy
  exact hreq.yields_iff hg (r := s.walker.recorder c) rfl hes hn y

/-- A root that is taken for a dataset is one. -/
theorem root_dataset (h : s.Accepts req c) (hs : s.Serves t g c.criteria) (hg : g.Seeded)
    (hd : c.isDataset = true) {k : Key} (hk : c.root.id.key = .ok k) : k ∈ g.datasets t := by
  obtain ⟨_, root, isDataset, _, hfound, hadmits, rfl⟩ := LineageRequest.context_iff.mp h.context
  obtain ⟨answer, hgraph⟩ := hs.graph
  rw [hgraph] at hfound
  obtain ⟨k', _, hk', hv⟩ := LineageRequest.root_key hg.built hfound
  obtain rfl : k = k' := Except.ok.inj (hk.symm.trans hk')
  refine ⟨root, hv, ?_⟩
  rw [← hs.taxonomy, ← hd]
  exact hadmits.dataset

end Service.Accepts

/-! ## 4. Deeper requests -/

/-- The same request to another depth. -/
def LineageRequest.toDepth (r : LineageRequest) (depth : Value) : LineageRequest :=
  { r with depth := depth }

/-- The same request to another depth. -/
def Context.toDepth (c : Context) (depth : Value) (n : Nat) : Context :=
  { c with budget := .ofDepth n, requestedDepth := depth }

/-- **A request that is accepted is accepted to every depth.** -/
theorem Service.Accepts.toDepth {s : Service Outcome} {req : LineageRequest} {c : Context}
    (h : s.Accepts req c) {depth : Value} {n : Nat}
    (hn : depth.wholeNumber? = some (n : Int)) :
    s.Accepts (req.toDepth depth) (c.toDepth depth n) where
  context := by
    obtain ⟨t, root, isDataset, ht, hfound, hadmits, rfl⟩ := LineageRequest.context_iff.mp h.context
    obtain ⟨direction, _, cs, names, hd, _, hcs, hnames, rfl⟩ := LineageRequest.terms_iff.mp ht
    exact LineageRequest.context_iff.mpr ⟨_, root, isDataset, LineageRequest.terms_iff.mpr
      ⟨direction, n, cs, names, hd, hn, hcs, hnames, rfl⟩, hfound,
      ⟨hadmits.permitted, hadmits.dataset, hadmits.process⟩, rfl⟩
  number := h.number
  single := h.single
  native := h.native

/-- The depth of a request does not matter to what it admits. -/
theorem Context.toDepth_narrows (c : Context) (d d' : Value) (n n' : Nat) :
    (c.toDepth d n).Narrows (c.toDepth d' n') :=
  ⟨rfl, rfl, rfl, fun _ hv => hv⟩

namespace Service

variable {s : Service Outcome} {t : Taxonomy} {g : MemoryGraph} {req : LineageRequest}
  {c : Context} {T : Terrain}

/-- **To a depth that goes at least as far** the lineage has no less, and to one beyond the number
of datasets it has all there is. -/
theorem deepened (h : s.Accepts req c) (hs : s.Serves t g c.criteria) (hg : g.Seeded)
    (htyped : g.Typed t) (hT : T.For g.added.toList t.labels (c.direction == .input))
    {d d' : Value} {n n' : Nat}
    (hn : d.wholeNumber? = some (n : Int)) (hn' : d'.wholeNumber? = some (n' : Int)) :
    ∃ res res', s.resolve (req.toDepth d) = .ok res ∧ s.resolve (req.toDepth d') = .ok res' ∧
      (Deepens n n' → res.lineage.PartOf res'.lineage) ∧
      ((g.datasets t).ncard < n → res'.lineage.PartOf res.lineage) := by
  obtain ⟨l, hl, hheaders, hholds⟩ := (h.toDepth hn).resolve hs hg hn hT
  obtain ⟨l', hl', hheaders', hholds'⟩ := (h.toDepth hn').resolve hs hg hn' hT
  refine ⟨_, _, hl, hl', fun hdeep => ?_, fun hmany => ?_⟩
  · exact hholds.partOf hholds' hheaders hheaders' fun x hx =>
      hx.mono (c.toDepth_narrows d d' n n') hdeep
  · refine hholds'.partOf hholds hheaders' hheaders fun x hx => ?_
    have hends : ∀ e ∈ T.edges, ∀ k, e.target.id.key = .ok k → k ∈ g.datasets t :=
      fun e he k hk => htyped.target_dataset hg (hT.edges ▸ he) hk
    exact (hx.mono (c.toDepth_narrows d' d n' n) (.refl n')).saturates (g.datasets_finite t) hmany
      hends fun hd k hk => h.root_dataset hs hg hd hk

end Service

/-! ## 5. Requests that filter more -/

/-- **A projector that hides more, and further criteria**, make a request narrower. -/
theorem Context.narrows_shownBy {c : Context} {q : Projector} {more : List Criterion}
    (hq : ∀ v, q.visible v = .ok true → c.projector.visible v = .ok true) :
    (c.shownBy q (c.criteria ++ more)).Narrows c where
  root := rfl
  isDataset := rfl
  hides := rfl
  admits v hv := by
    obtain ⟨shown, hshown, hv⟩ := Outcome.bind_eq_ok.mp hv
    cases shown with
    | false => cases hv
    | true =>
        have hv : admitsAll (c.criteria ++ more) v = .ok true := hv
        rw [admitsAll_append] at hv
        obtain ⟨held, hheld, hv⟩ := Outcome.bind_eq_ok.mp hv
        cases held with
        | false => cases hv
        | true => exact Outcome.bind_eq_ok.mpr ⟨true, hq v hshown, hheld⟩

/-- The same projector, which shows what is deleted or does not. -/
def Projector.including (p : Projector) (deleted : Bool) : Projector :=
  { p with includeDeleted := deleted }

/-- **A projector that shows no more of what is deleted** hides a vertex, or says the same of it. -/
theorem Projector.visible_including {p : Projector} {deleted : Bool}
    (h : deleted = true → p.includeDeleted = true) (v : Vertex) :
    (p.including deleted).visible v = .ok false ∨
      (p.including deleted).visible v = p.visible v := by
  unfold visible including
  cases hdeleted : isDeleted v with
  | false => exact .inr (by rw [Bool.and_false, Bool.and_false])
  | true =>
      cases deleted with
      | false => exact .inl rfl
      | true => exact .inr (by rw [h rfl])

namespace Service

variable {s : Service Outcome} {t : Taxonomy} {g : MemoryGraph} {req : LineageRequest}
  {c : Context} {T : Terrain} {deleted : Bool} {F : GivenCriteria} {gs : List Criterion}

/-- **The service over the graph of seed data still is one** when it shows no more of what is
deleted, and for further criteria that answer at every vertex which is visible without them. -/
theorem Serves.including {cs more : List Criterion} (h : s.Serves t g cs)
    (hmore : ∀ (k : Key) v, g.vertices[k]? = some v → s.policy.projector.admits cs v = .ok true →
      ∃ b, admitsAll more v = .ok b)
    (hdeleted : deleted = true → s.policy.projector.includeDeleted = true) :
    (s.showing (s.policy.projector.including deleted)).Serves t g (cs ++ more) where
  graph := h.graph
  taxonomy := h.taxonomy
  unlimited := h.unlimited
  classified := h.classified
  judged k v hv := by
    show ∃ b, (s.policy.projector.including deleted).admits (cs ++ more) v = .ok b
    unfold Projector.admits
    rcases Projector.visible_including hdeleted v with hb | hb
    · exact ⟨false, by rw [hb]; rfl⟩
    obtain ⟨b, hb'⟩ := h.judged k v hv
    obtain ⟨shown, hshown, hcs⟩ := Outcome.bind_eq_ok.mp hb'
    refine Outcome.bind_isOk ⟨shown, hb.trans hshown⟩ fun shown' hshown' => ?_
    obtain rfl : shown' = shown := Except.ok.inj (hshown'.symm.trans (hb.trans hshown))
    cases shown' with
    | false => exact ⟨false, rfl⟩
    | true =>
        show ∃ b, admitsAll (cs ++ more) v = .ok b
        have hcs : admitsAll cs v = .ok b := hcs
        rw [admitsAll_append, hcs, Outcome.ok_bind]
        cases b with
        | false => exact ⟨false, rfl⟩
        | true => exact hmore k v hv hb'

/-- **A request that is accepted is accepted with other filters**, by a service with another
projector. -/
theorem Accepts.shownBy (h : s.Accepts req c) (hF : F.criteria = .ok gs) (q : Projector) :
    (s.showing q).Accepts (req.filteredBy F) (c.shownBy q gs) where
  context := by
    obtain ⟨t, root, isDataset, ht, hfound, hadmits, rfl⟩ := LineageRequest.context_iff.mp h.context
    obtain ⟨direction, n, _, names, hd, hn, _, hnames, rfl⟩ := LineageRequest.terms_iff.mp ht
    exact LineageRequest.context_iff.mpr ⟨_, root, isDataset, LineageRequest.terms_iff.mpr
      ⟨direction, n, gs, names, hd, hn, hF, hnames, rfl⟩, hfound,
      ⟨hadmits.permitted, hadmits.dataset, hadmits.process⟩, rfl⟩
  number := h.number
  single := h.single
  native := h.native

/-- **With further filters, and with less shown of what is deleted**, the lineage has no more. -/
theorem filtered (h : s.Accepts req c) (hs : s.Serves t g c.criteria) (hg : g.Seeded)
    (hT : T.For g.added.toList t.labels (c.direction == .input)) {more : List Criterion}
    (hF : F.criteria = .ok (c.criteria ++ more))
    (hmore : ∀ (k : Key) v, g.vertices[k]? = some v →
      s.policy.projector.admits c.criteria v = .ok true → ∃ b, admitsAll more v = .ok b)
    (hdeleted : deleted = true → s.policy.projector.includeDeleted = true) :
    ∃ res res', s.resolve req = .ok res ∧
      (s.showing (s.policy.projector.including deleted)).resolve (req.filteredBy F) = .ok res' ∧
      res'.lineage.PartOf res.lineage := by
  obtain ⟨_, _, _, hprojector, _, n, hn, _⟩ := LineageRequest.context_ok h.context
  obtain ⟨l, hl, hheaders, hholds⟩ := h.resolve hs hg hn hT
  obtain ⟨l', hl', hheaders', hholds'⟩ :=
    (h.shownBy hF _).resolve (hs.including hmore hdeleted) hg hn hT
  refine ⟨_, _, hl, hl', hholds'.partOf hholds hheaders' hheaders fun x hx => ?_⟩
  refine hx.mono (Context.narrows_shownBy fun v hv => ?_) (.refl n)
  rw [hprojector]
  rcases Projector.visible_including hdeleted v with hb | hb
  · cases hb.symm.trans hv
  · exact hb.symm.trans hv

/-! ## 6. Parts of what is resolved -/

/-- **Deeper requests have more, and filtered ones less.** Over the graph of seed data a request
that is accepted around its root, dataset or process, is resolved to every depth, and its lineage is
a part of that to every depth that goes at least as far; to a depth beyond the number of datasets it
has all that it has to depth 0. With further criteria that answer at every vertex visible without
them, and with deleted vertices hidden, it is still resolved, and its lineage is a part of what it
was. -/
theorem resolved_nested {data : Value} {inKey outKey : Key}
    (hseed : MemoryGraph.ofSeed t data = .ok g) (hs : s.Serves t g c.criteria)
    (hi : t.labels.inputs.key = .ok inKey) (ho : t.labels.outputs.key = .ok outKey)
    (h : s.Accepts req c) :
    (∀ d d' (n n' : Nat), d.wholeNumber? = some (n : Int) → d'.wholeNumber? = some (n' : Int) →
      ∃ res res', s.resolve (req.toDepth d) = .ok res ∧ s.resolve (req.toDepth d') = .ok res' ∧
        (n' = 0 ∨ 0 < n ∧ n ≤ n' → res.lineage.PartOf res'.lineage) ∧
        ((g.datasets t).ncard < n → n' = 0 → res'.lineage.PartOf res.lineage)) ∧
    ∀ F more deleted, F.criteria = .ok (c.criteria ++ more) →
      (∀ (k : Key) v, g.vertices[k]? = some v → s.policy.projector.admits c.criteria v = .ok true →
        ∃ b, admitsAll more v = .ok b) →
      (deleted = true → s.policy.projector.includeDeleted = true) →
      ∃ res res', s.resolve req = .ok res ∧
        (s.showing (s.policy.projector.including deleted)).resolve (req.filteredBy F) = .ok res' ∧
        res'.lineage.PartOf res.lineage := by
  have hg : g.Seeded := MemoryGraph.ofSeed_seeded hseed
  have htyped : g.Typed t := fun e he => MemoryGraph.ofSeed_typed hseed he
  -- the keys of the labels make a terrain of the edges, in the direction of the request
  obtain ⟨T, hT⟩ : ∃ T : Terrain, T.For g.added.toList t.labels (c.direction == .input) := by
    cases c.direction == .input with
    | true => exact ⟨⟨g.added.toList, outKey, inKey⟩, rfl, ho, hi⟩
    | false => exact ⟨⟨g.added.toList, inKey, outKey⟩, rfl, hi, ho⟩
  refine ⟨fun d d' n n' hn hn' => ?_, fun F more deleted hF hmore hdeleted => ?_⟩
  · obtain ⟨res, res', hres, hres', hdeep, hmany⟩ := deepened h hs hg htyped hT hn hn'
    exact ⟨res, res', hres, hres', hdeep, fun hn _ => hmany hn⟩
  · exact filtered h hs hg hT hF hmore hdeleted

end Service

/-! ## 7. Around the loop -/

namespace Loop

theorem accepts : walking.Accepts request context where
  context := admitted
  number := graphRequest.number
  single := by decide
  native := nofun

/-- The catalogue has three datasets, its tables. -/
theorem datasets_ncard : (graph.datasets taxonomy).ncard ≤ 3 := by
  have hjob : taxonomy.isDataset (.text "Job") ≠ .ok true := nofun
  have hsub : graph.datasets taxonomy ⊆ ({.text "x", .text "y", .text "z"} : Finset Key) := by
    intro k hk
    obtain ⟨v, hv, hd⟩ := hk
    have hv : vertices[k]? = some v := hv
    simp only [vertices, Std.HashMap.getElem?_insert] at hv
    grind [table, job]
  have hle := Set.ncard_le_ncard hsub (Finset.finite_toSet _)
  rw [Set.ncard_coe_finset] at hle
  exact hle

/-- No table is shown. -/
def noTable : Criterion := ⟨.text Criterion.typeNameAttribute, .neq, .text "Table"⟩

/-- To depth 1 the walk stops at `x`. -/
theorem flows_to_one : (walking.resolve (request.toDepth (.int 1))).map
    (fun res => res.lineage.relations) = .ok (flows.take 2) := by
  unfold walking MemoryGraph.access
  rw [accessWith_eq]
  cbv

/-- To depth 2 it goes on to `z`. -/
theorem flows_to_two : (walking.resolve (request.toDepth (.int 2))).map
    (fun res => res.lineage.relations) = .ok (flows.take 4) := by
  unfold walking MemoryGraph.access
  rw [accessWith_eq]
  cbv

/-- Where no table is shown only the root is seen, and what is next to it. -/
theorem flows_filtered : ((walking.showing (walking.policy.projector.including false)).resolve
      (request.filteredBy (.items [.made noTable]))).map (fun res => res.lineage.relations) =
    .ok (flows.take 2) := by
  unfold walking Service.showing MemoryGraph.access
  rw [accessWith_eq]
  cbv

end Loop

/-- What flows out of `y` to depth 1 is a part of what flows to depth 2, what flows to depth 4 is
all there is, and with no table shown there is less. -/
theorem Service.resolved_nested_loop :
    MemoryGraph.ofSeed Loop.taxonomy Loop.seed = .ok Loop.graph ∧
    Loop.walking.Serves Loop.taxonomy Loop.graph [] ∧
    Loop.walking.Accepts Loop.request Loop.context ∧
    (∃ one two, Loop.walking.resolve (Loop.request.toDepth (.int 1)) = .ok one ∧
      one.lineage.relations = Loop.flows.take 2 ∧
      Loop.walking.resolve (Loop.request.toDepth (.int 2)) = .ok two ∧
      two.lineage.relations = Loop.flows.take 4 ∧ one.lineage.PartOf two.lineage) ∧
    (∃ four all, Loop.walking.resolve (Loop.request.toDepth (.int 4)) = .ok four ∧
      Loop.walking.resolve (Loop.request.toDepth (.int 0)) = .ok all ∧
      four.lineage.PartOf all.lineage ∧ all.lineage.PartOf four.lineage) ∧
    ∃ all shown, Loop.walking.resolve Loop.request = .ok all ∧
      (Loop.walking.showing (Loop.walking.policy.projector.including false)).resolve
        (Loop.request.filteredBy (.items [.made Loop.noTable])) = .ok shown ∧
      shown.lineage.relations = Loop.flows.take 2 ∧ shown.lineage.PartOf all.lineage := by
  obtain ⟨hdeep, hfiltered⟩ := Service.resolved_nested Loop.ofSeed_eq Loop.serves
    rfl rfl Loop.accepts
  have hanswers (v : Vertex) : ∃ b, admitsAll [Loop.noTable] v = .ok b :=
    admitsAll_isOk fun x hx => by
      rw [List.mem_singleton.mp hx]
      exact Criterion.holds_isOk ⟨_, rfl⟩ (Criterion.fit_of_operator (by decide) v)
  refine ⟨Loop.ofSeed_eq, Loop.serves, Loop.accepts, ?_, ?_, ?_⟩
  · obtain ⟨one, two, hone, htwo, hpart, _⟩ := hdeep (.int 1) (.int 2) 1 2 rfl rfl
    obtain ⟨_, hone', hflows⟩ := Outcome.map_eq_ok Loop.flows_to_one
    obtain ⟨_, htwo', hflows'⟩ := Outcome.map_eq_ok Loop.flows_to_two
    obtain rfl := Except.ok.inj (hone'.symm.trans hone)
    obtain rfl := Except.ok.inj (htwo'.symm.trans htwo)
    exact ⟨_, _, hone, hflows, htwo, hflows', hpart (by omega)⟩
  · obtain ⟨four, all, hfour, hall, hpart, hpart'⟩ := hdeep (.int 4) (.int 0) 4 0 rfl rfl
    exact ⟨four, all, hfour, hall, hpart (.inl rfl),
      hpart' (Nat.lt_succ_of_le Loop.datasets_ncard) rfl⟩
  · obtain ⟨all, shown, hall, hshown, hpart⟩ :=
      hfiltered (.items [.made Loop.noTable]) [Loop.noTable] false rfl
        (fun _ v _ _ => hanswers v) nofun
    obtain ⟨_, hshown', hflows⟩ := Outcome.map_eq_ok Loop.flows_filtered
    obtain rfl := Except.ok.inj (hshown'.symm.trans hshown)
    exact ⟨all, _, hall, hshown, hflows, hpart⟩

end DataLineage
