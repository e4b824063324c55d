import DataLineage.Proofs.Lineage.Mutual

/-!
# The lineage of a process and those of the datasets next to it

From a process the first hop costs nothing: it records an edge and goes on from its dataset with one
hop less. Where the dataset is visible, that is what a request around the dataset itself does, since
in neither walk being the root makes a difference to what is open.

* `Context.From` -- a request around a process of the graph of seed data;
* `From.mem_rootEdges_iff`, `From.opensEdge_visible` -- the edges of the first hop, and that they
  are open where they lead to visible datasets;
* `Recorder.Beside`, `Beside.within_iff` -- the same request around a dataset next to the process,
  with one hop less, goes over the same hops;
* `Context.From.yields_iff` -- so the walk from the process brings in the first edges, and what the
  walks from their datasets do;
* `LineageGraph.Holds.gathers` -- a lineage made of first relations and of other lineages;
* `Service.process_gathers` -- **the lineage of a process is its first hop and the lineages of its
  neighbours.**
-/

namespace DataLineage

/-- Where a type is of some category and another category was decided for some type, that one is
decided for the type. -/
theorem Taxonomy.isOfCategory_isOk {t : Taxonomy} {a b m m' : Value} {x y : Bool}
    (ha : t.isOfCategory a m = .ok x) (hb : t.isOfCategory b m' = .ok y) :
    ∃ z, t.isOfCategory a m' = .ok z := by
  obtain ⟨name, hname, _⟩ := Outcome.bind_eq_ok.mp ha
  obtain ⟨_, _, hb⟩ := Outcome.bind_eq_ok.mp hb
  obtain ⟨marker, hmarker, _⟩ := Outcome.bind_eq_ok.mp hb
  exact ⟨_, Outcome.bind_eq_ok.mpr ⟨name, hname, Outcome.bind_eq_ok.mpr ⟨marker, hmarker, rfl⟩⟩⟩

/-- A single direction has its terrain. -/
theorem Terrain.For.exists_single (edges : List Edge) {labels : EdgeLabels}
    {direction : Direction} {inKey outKey : Key} (hsingle : direction ≠ .both)
    (hi : labels.inputs.key = .ok inKey) (ho : labels.outputs.key = .ok outKey) :
    ∃ T : Terrain, T.For edges labels (direction == .input) := by
  cases direction with
  | input => exact ⟨⟨edges, outKey, inKey⟩, rfl, ho, hi⟩
  | output => exact ⟨⟨edges, inKey, outKey⟩, rfl, hi, ho⟩
  | both => exact absurd rfl hsingle

/-! ## 1. Around a process -/

/-- **An edge of the first hop** from a process in a direction. -/
structure MemoryGraph.FirstHop (g : MemoryGraph) (labels : EdgeLabels) (direction : Direction)
    (k : Key) (e : Edge) : Prop where
  mem : e ∈ g.added.toList
  source : e.source.id.key = .ok k
  label : e.label.key = (if direction == .input then labels.inputs else labels.outputs).key

namespace Context

theorem admits_of_visible {c : Context} {v : Vertex} (hvisible : c.projector.visible v = .ok true)
    (hpasses : admitsAll c.criteria v = .ok true) : c.admits v = .ok true := by
  unfold admits
  rw [hvisible]
  exact hpasses

/-- **A request around a process** of the graph of seed data that shows processes. -/
structure From (c : Context) (t : Taxonomy) (g : MemoryGraph) (k : Key) (n : Nat) : Prop where
  seeded : g.Seeded
  typed : g.Typed t
  separate : t.Separates
  legible : g.Legible c
  process : c.isDataset = false
  root : g.vertices[k]? = some c.root
  kind : t.isProcess c.root.typeName = .ok true
  shows : c.hidesProcesses = false
  budget : c.budget = .ofDepth n

namespace From

variable {c : Context} {t : Taxonomy} {g : MemoryGraph} {k : Key} {n : Nat} {r : Recorder}
  {T : Terrain}

theorem root_key (h : c.From t g k n) : c.root.id.key = .ok k :=
  h.seeded.built.indexed.stored k c.root h.root

/-- The edges at the root are those of its first hop. -/
theorem mem_rootEdges_iff (h : c.From t g k n) {labels : EdgeLabels} {direction : Direction}
    (hT : T.For g.added.toList labels (direction == .input)) {e : Edge} :
    e ∈ T.rootEdges c ↔ g.FirstHop labels direction k e := by
  have hout : (if direction == .input then labels.inputs else labels.outputs).key = .ok T.out := by
    have hout := hT.out
    cases direction <;> exact hout
  rw [Terrain.mem_rootEdges, hT.edges, ← hout]
  constructor
  · rintro ⟨hm, hlabel, k', hk', hsource⟩
    obtain rfl : k = k' := Except.ok.inj (h.root_key.symm.trans hk')
    exact ⟨hm, hsource, hlabel⟩
  · exact fun hfirst => ⟨hfirst.mem, hfirst.label, k, h.root_key, hfirst.source⟩

/-- No edge leads to the root, so what can be seen at the end of one is visible. -/
theorem sees_iff (h : c.From t g k n) {e : Edge} (he : e ∈ g.added.toList) :
    c.Sees e.target ↔ c.admits e.target = .ok true := by
  refine ⟨fun hs => hs.resolve_left fun hroot => ?_, .inr⟩
  obtain ⟨k', hk', hv⟩ := h.seeded.ends e he .incoming
  have hk' : e.target.id.key = .ok k' := hk'
  have hroot : e.target.id.equal c.root.id = true := hroot
  obtain ⟨s, hs, rfl⟩ := (Value.key_eq_ok_iff _ _).mp hk'
  rw [hs, Value.equal_scalar, Bool.and_eq_true, Value.hasKey_iff, h.root_key] at hroot
  obtain rfl : k = s.key := Except.ok.inj hroot.2
  obtain hv : e.target = c.root := Option.some.inj (hv.symm.trans h.root)
  exact h.separate _ ⟨hv ▸ (h.typed e he).2, h.kind⟩

/-- A pair is open if its datasets pass. -/
theorem opensPair_iff (h : c.From t g k n) (hr : r.context = c) {into out : Edge}
    (hi : into ∈ g.added.toList) (ho : out ∈ g.added.toList) :
    r.opensPair into out = .ok true ↔ c.Passes r.requireBoth into.target out.target := by
  subst hr
  exact Recorder.opensPair_passes (h.legible.readsEdge h.seeded rfl hi).target
    (h.legible.readsEdge h.seeded rfl ho).target (h.sees_iff hi) (h.sees_iff ho)

/-- **An edge of the root to a visible dataset is open**, whether or not the root is equal to
itself. -/
theorem opensEdge_visible (h : c.From t g k n) (hr : r.context = c) (ht : r.taxonomy = t)
    {e : Edge} (he : e ∈ g.added.toList) (hvisible : c.admits e.target = .ok true) :
    r.opensEdge e = .ok true := by
  subst hr ht
  obtain ⟨hprocess, hdataset⟩ := h.typed e he
  have htarget : r.taxonomy.isProcess e.target.typeName = .ok false := by
    obtain ⟨b, hb⟩ := Taxonomy.isOfCategory_isOk hdataset hprocess
    cases b with
    | true => exact absurd ⟨hdataset, hb⟩ (h.separate _)
    | false => exact hb
  have hjustifies : r.justifies e.target = .ok true := by
    unfold Recorder.justifies
    split
    · rfl
    · rw [htarget]
      exact hvisible
  unfold Recorder.opensEdge
  cases hsource : r.context.isRoot e.source with
  | true =>
      unfold Recorder.justifies
      rw [hsource]
      rfl
  | false =>
      have hnot : r.justifies e.source = .ok false := by
        unfold Recorder.justifies
        rw [hsource, hprocess]
        rfl
      rw [hnot]
      exact hjustifies

end From

end Context

/-! ## 2. Beside it -/

/-- **The recorder of the same request around the dataset of an edge**, with one hop less. -/
structure Recorder.Beside (r' r : Recorder) (t : Taxonomy) (g : MemoryGraph) (n : Nat) (d : Key) :
    Prop where
  around : r'.context.Around t g d
  admits : r.context.admits = r'.context.admits
  shows : r'.context.hidesProcesses = false
  budget : r'.context.budget = .ofDepth (n - 1)
  taxonomy : r.taxonomy = r'.taxonomy
  both : r.requireBoth = r'.requireBoth

namespace Recorder.Beside

variable {r r' : Recorder} {t : Taxonomy} {g : MemoryGraph} {k d : Key} {n : Nat} {T : Terrain}

/-- The same pairs are open. -/
theorem opensPair_iff (h : r'.Beside r t g n d) (hroot : r.context.From t g k n) {into out : Edge}
    (hi : into ∈ g.added.toList) (ho : out ∈ g.added.toList) :
    r.opensPair into out = .ok true ↔ r'.opensPair into out = .ok true := by
  have hmode := hroot.shows.trans h.shows.symm
  rw [hroot.opensPair_iff rfl hi ho, h.around.opensPair_iff rfl hi ho, h.both]
  exact ⟨fun hp => hp.congr h.admits hmode, fun hp => hp.congr h.admits.symm hmode.symm⟩

/-- The same hops lead on. -/
theorem hop_iff (h : r'.Beside r t g n d) (hroot : r.context.From t g k n)
    (hT : T.edges = g.added.toList) (a b : Key) : T.Hop r a b ↔ T.Hop r' a b := by
  refine exists_congr fun into => exists_congr fun out => and_congr_right fun hp =>
    and_congr_left fun _ => ?_
  exact h.opensPair_iff hroot (hT ▸ hp.into_mem) (hT ▸ hp.out_mem)

/-- The same relations stand for an edge. -/
theorem relationOf_eq (h : r'.Beside r t g n d) (e : Edge) : r.relationOf e = r'.relationOf e := by
  unfold relationOf isInput
  rw [h.taxonomy]

/-- **What lies within one hop less from the dataset is what lies within the depth of the request
around it**, unless that depth is none: there 0 stands for any number of hops. -/
theorem within_iff (h : r'.Beside r t g n d) (hroot : r.context.From t g k n)
    (hT : T.edges = g.added.toList) {v : Vertex} (hv : v.id.key = .ok d) (x : Key) :
    T.Within r r.context.budget.next v x ↔
      n ≠ 1 ∧ T.Within r' r'.context.budget r'.context.root x := by
  have hreaches {j : Nat} : ReachesIn (T.Hop r) j d x ↔ ReachesIn (T.Hop r') j d x :=
    ⟨.mono fun a b => (h.hop_iff hroot hT a b).mp, .mono fun a b => (h.hop_iff hroot hT a b).mpr⟩
  rw [h.around.within_iff rfl h.budget]
  unfold Terrain.Within
  rw [hroot.budget]
  constructor
  · rintro ⟨start, j, hstart, hj, hreach⟩
    obtain rfl : d = start := Except.ok.inj (hv.symm.trans hstart)
    have hj := HopBudget.allows_next_ofDepth.mp hj
    exact ⟨by omega, j, by omega, hreaches.mp hreach⟩
  · rintro ⟨hn, j, hj, hreach⟩
    exact ⟨d, j, hv, HopBudget.allows_next_ofDepth.mpr (by omega), hreaches.mpr hreach⟩

/-- **What the walk brings in beyond the dataset** is what the walk around it brings in. -/
theorem yields_iff (h : r'.Beside r t g n d) (hroot : r.context.From t g k n)
    (hT : T.edges = g.added.toList) {v : Vertex} (hv : v.id.key = .ok d) (x : Relation) :
    (∃ near into out, T.Within r r.context.budget.next v near ∧ T.PairAt near into out ∧
        r.opensPair into out = .ok true ∧ r.PairYields into out x) ↔
      n ≠ 1 ∧ T.Yields r' x := by
  rw [h.around.yields_iff rfl]
  have hyields (into out : Edge) : r.PairYields into out x ↔ r'.PairYields into out x := by
    rw [pairYields_expanded hroot.shows, pairYields_expanded h.shows, h.relationOf_eq,
      h.relationOf_eq]
  constructor
  · rintro ⟨near, into, out, hnear, hp, hopen, hx⟩
    obtain ⟨hn, hnear⟩ := (h.within_iff hroot hT hv near).mp hnear
    have hopen := (h.opensPair_iff hroot (hT ▸ hp.into_mem) (hT ▸ hp.out_mem)).mp hopen
    exact ⟨hn, near, into, out, ⟨hnear, hp, hopen⟩, (hyields into out).mp hx⟩
  · rintro ⟨hn, near, into, out, ⟨hnear, hp, hopen⟩, hx⟩
    have hopen := (h.opensPair_iff hroot (hT ▸ hp.into_mem) (hT ▸ hp.out_mem)).mpr hopen
    exact ⟨near, into, out, (h.within_iff hroot hT hv near).mpr ⟨hn, hnear⟩, hp, hopen,
      (hyields into out).mpr hx⟩

end Recorder.Beside

/-- **The walk from a process brings in the relations of its first edges, and what the walks from
their datasets bring in.** -/
theorem Context.From.yields_iff {r : Recorder} {t : Taxonomy} {g : MemoryGraph} {k : Key} {n : Nat}
    {T : Terrain} (h : r.context.From t g k n) (ht : r.taxonomy = t)
    (hT : T.edges = g.added.toList)
    (hvisible : ∀ e ∈ T.rootEdges r.context, r.context.admits e.target = .ok true)
    (beside : Edge → Recorder)
    (hbeside : ∀ e ∈ T.rootEdges r.context, ∀ d, e.target.id.key = .ok d →
      (beside e).Beside r t g n d) (x : Relation) :
    T.Yields r x ↔ ∃ e ∈ T.rootEdges r.context,
      r.relationOf e = .ok x ∨ n ≠ 1 ∧ T.Yields (beside e) x := by
  have hkey {e : Edge} (he : e ∈ T.rootEdges r.context) : ∃ d, e.target.id.key = .ok d := by
    obtain ⟨d, hd, _⟩ := h.seeded.ends e (hT ▸ (Terrain.mem_rootEdges.mp he).1) .incoming
    exact ⟨d, hd⟩
  constructor
  · rintro ⟨call, hcall, hx⟩
    cases hcall with
    | dataset hd _ _ => exact nomatch h.process.symm.trans hd
    | first _ he => exact ⟨_, he, .inl hx.2⟩
    | beyond _ he hd hp =>
        obtain ⟨d, hk⟩ := hkey he
        exact ⟨_, he, .inr (((hbeside _ he d hk).yields_iff h hT hk x).mp
          ⟨_, _, _, hd, hp, hx.1, hx.2⟩)⟩
  · rintro ⟨e, he, hx | hx⟩
    · have hopen := h.opensEdge_visible rfl ht (hT ▸ (Terrain.mem_rootEdges.mp he).1)
        (hvisible e he)
      exact ⟨.edge e, .first h.process he, hopen, hx⟩
    · obtain ⟨d, hk⟩ := hkey he
      obtain ⟨_, into, out, hd, hp, hopen, hx⟩ :=
        ((hbeside e he d hk).yields_iff h hT hk x).mpr hx
      exact ⟨.pair into out, .beyond h.process he hd hp, hopen, hx⟩

/-! ## 3. Lineages made of lineages -/

/-- **A lineage that holds what some first relations and some parts hold** has their relations and
the entities of both. -/
theorem LineageGraph.Holds.gathers {ι : Type} {l : LineageGraph} {R : Relation → Prop}
    {P : ι → Prop} {q : Prop} {first beyond : ι → Relation → Prop} {parts : ι → Outcome Resolution}
    (h : l.Holds R) (hR : ∀ x, R x ↔ ∃ i, P i ∧ (first i x ∨ q ∧ beyond i x))
    (hparts : ∀ i, P i → ∃ part, parts i = .ok part ∧ part.lineage.Holds (beyond i)) :
    (∀ x, l.hasRelation x = true ↔
      (∃ i y, P i ∧ first i y ∧ x.same y = true) ∨
      q ∧ ∃ i part, P i ∧ parts i = .ok part ∧ part.lineage.hasRelation x = true) ∧
    ∀ id, l.hasEntity id = true ↔ ∃ i, P i ∧ (Ends (first i) id.key ∨
      q ∧ ∃ part, parts i = .ok part ∧ part.lineage.hasEntity id = true) := by
  refine ⟨fun x => ?_, fun id => ?_⟩
  · rw [h.records.relations]
    constructor
    · rintro ⟨y, hy, hsame⟩
      obtain ⟨i, hi, hy | ⟨hq, hy⟩⟩ := (hR y).mp hy
      · exact .inl ⟨i, y, hi, hy, hsame⟩
      · obtain ⟨part, hpart, hholds⟩ := hparts i hi
        exact .inr ⟨hq, i, part, hi, hpart, (hholds.records.relations x).mpr ⟨y, hy, hsame⟩⟩
    · rintro (⟨i, y, hi, hy, hsame⟩ | ⟨hq, i, part, hi, hpart, hx⟩)
      · exact ⟨y, (hR y).mpr ⟨i, hi, .inl hy⟩, hsame⟩
      · obtain ⟨_, hpart', hholds⟩ := hparts i hi
        cases hpart.symm.trans hpart'
        obtain ⟨y, hy, hsame⟩ := (hholds.records.relations x).mp hx
        exact ⟨y, (hR y).mpr ⟨i, hi, .inr ⟨hq, hy⟩⟩, hsame⟩
  · rw [h.names id]
    constructor
    · rintro ⟨y, hy, hend⟩
      obtain ⟨i, hi, hy | ⟨hq, hy⟩⟩ := (hR y).mp hy
      · exact ⟨i, hi, .inl ⟨y, hy, hend⟩⟩
      · obtain ⟨part, hpart, hholds⟩ := hparts i hi
        exact ⟨i, hi, .inr ⟨hq, part, hpart, (hholds.names id).mpr ⟨y, hy, hend⟩⟩⟩
    · rintro ⟨i, hi, ⟨y, hy, hend⟩ | ⟨hq, part, hpart, hid⟩⟩
      · exact ⟨y, (hR y).mpr ⟨i, hi, .inl hy⟩, hend⟩
      · obtain ⟨_, hpart', hholds⟩ := hparts i hi
        cases hpart.symm.trans hpart'
        obtain ⟨y, hy, hend⟩ := (hholds.names id).mp hid
        exact ⟨y, (hR y).mpr ⟨i, hi, .inr ⟨hq, hy⟩⟩, hend⟩

/-- The entities that the relation of an edge brings in are its two ends. -/
theorem Recorder.ends_relationOf {r : Recorder} {e : Edge} (h : r.ReadsEdge e) (k : Key) :
    LineageGraph.Ends (fun x => r.relationOf e = .ok x) k ↔
      e.source.id.key = .ok k ∨ e.target.id.key = .ok k := by
  constructor
  · rintro ⟨x, hx, hend⟩
    exact (relationOf_ends hx k).mp hend
  · intro hend
    obtain ⟨x, hx⟩ := relationOf_total h
    exact ⟨x, hx, (relationOf_ends hx k).mpr hend⟩

/-! ## 4. Requests -/

namespace LineageRequest

/-- The context of a well-formed request around a process. -/
def contextFrom (r : LineageRequest) (p : Policy) (v : Vertex) (direction : Direction) (n : Nat)
    (cs : List Criterion) (names : List Scalar) : Context :=
  Terms.contextOf ⟨r.guid, direction, .ofDepth n, r.depth, r.hideProcess, cs, names⟩ p v false

/-- The same request around the dataset of an edge, with one hop less; no limit stays none. -/
def beyond (r : LineageRequest) (e : Edge) (n : Nat) : LineageRequest :=
  { r with guid := e.target.id, depth := .int ((n - 1 : Nat) : Int) }

theorem Asks.beyond {r : LineageRequest} {direction : Direction} {n : Nat} {cs : List Criterion}
    {names : List Scalar} (h : r.Asks direction n cs names) (e : Edge) (m : Nat) :
    (r.beyond e m).Asks direction (m - 1) cs names :=
  ⟨h.direction, rfl, h.criteria, h.names⟩

end LineageRequest

namespace Service

variable {s : Service Outcome} {t : Taxonomy} {g : MemoryGraph} {req : LineageRequest}
  {direction : Direction} {n : Nat} {cs : List Criterion} {names : List Scalar} {k : Key}
  {v : Vertex} {T : Terrain}

/-- **A well-formed request around a process that may be read is resolved**, if the datasets of its
first hop are visible: its lineage holds what its walk brings in. -/
theorem resolve_process (h : s.Serves t g cs) (ha : req.Asks direction n cs names)
    (hfrom : (req.contextFrom s.policy v direction n cs names).From t g k n)
    (hsingle : direction ≠ .both) (hnative : s.usePatterns = false) (hguid : req.guid.key = .ok k)
    (hdataset : t.isDataset v.typeName = .ok false)
    (hpermitted : ∃ header, Projector.header v (names.map .scalar) = .ok header ∧
      s.policy.authorizer.permits header = .ok true)
    (hT : T.For g.added.toList t.labels (direction == .input))
    (hvisible : ∀ e ∈ T.rootEdges (req.contextFrom s.policy v direction n cs names),
      (req.contextFrom s.policy v direction n cs names).admits e.target = .ok true) :
    ∃ l, s.resolve req = .ok ⟨req.contextFrom s.policy v direction n cs names, l⟩ ∧
      l.Holds (T.Yields (s.walker.recorder
        (req.contextFrom s.policy v direction n cs names))) := by
  obtain rfl : s.policy.taxonomy = t := h.taxonomy
  have hfound : s.graph.find req.guid = .ok (some v) := by
    obtain ⟨answer, hgraph⟩ := h.graph
    rw [hgraph]
    show (req.guid.key >>= fun key => .ok g.vertices[key]?) = _
    rw [hguid, Outcome.ok_bind, show g.vertices[k]? = some v from hfrom.root]
  have hcontext : req.context s.policy s.graph =
      .ok (req.contextFrom s.policy v direction n cs names) :=
    LineageRequest.context_iff.mpr ⟨_, v, false, LineageRequest.terms_iff.mpr
      ⟨direction, n, cs, names, ha.direction, ha.depth, ha.criteria, ha.names, rfl⟩, hfound,
      ⟨hpermitted, hdataset, fun _ => ⟨hfrom.kind, hfrom.shows⟩⟩, rfl⟩
  have hx : (VertexBudget.start s.maxVertices).limit.truth = false := h.unlimited
  obtain ⟨l, x, hl, _, hholds⟩ := hfrom.legible.walk_ends hfrom.seeded (w := s.walker) (T := T)
    hfrom.root_key
    (fun _ e he => hfrom.opensEdge_visible rfl rfl
      (hT.edges ▸ (Terrain.mem_rootEdges.mp he).1) (hvisible e he))
    (h.over hfrom.seeded hT) (fun e he => hT.edges ▸ he) hx
  exact ⟨l, resolve_walked hcontext hsingle (fun hp => nomatch hnative.symm.trans hp) hl, hholds⟩

/-- The recorder of the request around the dataset of an edge. -/
def recorderBeside (s : Service Outcome) (req : LineageRequest) (direction : Direction) (n : Nat)
    (cs : List Criterion) (names : List Scalar) (e : Edge) : Recorder :=
  s.walker.recorder ((req.beyond e n).contextAround s.policy e.target direction (n - 1) cs names)

theorem Serves.beside {data : Value} (h : s.Serves t g cs) (hseed : MemoryGraph.ofSeed t data = .ok g)
    (hseparate : t.Separates) (hshown : req.hideProcess.truth = false) {e : Edge}
    (he : e ∈ g.added.toList)
    (hvisible : s.policy.projector.visible e.target = .ok true ∧ admitsAll cs e.target = .ok true)
    {d : Key} (hd : e.target.id.key = .ok d) :
    (s.recorderBeside req direction n cs names e).Beside
      (s.walker.recorder (req.contextFrom s.policy v direction n cs names)) t g n d := by
  obtain ⟨d', hd', hvertex⟩ := (MemoryGraph.ofSeed_seeded hseed).ends e he .incoming
  obtain rfl : d = d' := Except.ok.inj (hd.symm.trans hd')
  exact ⟨h.around hseed hseparate _ _ _ _ hvertex hvisible, rfl, hshown, rfl, rfl, rfl⟩

/-- The request around the dataset of an edge is resolved, if every header may be read. -/
theorem resolve_beyond {data : Value} (h : s.Serves t g cs) (hseed : MemoryGraph.ofSeed t data = .ok g)
    (hnative : s.usePatterns = false) (hallow : s.policy.authorizer = .allowAll)
    (hreq : req.Asks direction n cs names) (hsingle : direction ≠ .both)
    (hT : T.For g.added.toList t.labels (direction == .input)) {e : Edge}
    (he : e ∈ g.added.toList) :
    ∃ part, s.resolve (req.beyond e n) = .ok part ∧
      part.lineage.Holds (T.Yields (s.recorderBeside req direction n cs names e)) := by
  have hg : g.Seeded := MemoryGraph.ofSeed_seeded hseed
  obtain ⟨d, hd, hvertex⟩ := hg.ends e he .incoming
  obtain ⟨l, hl, _, hholds⟩ := resolve_dataset h hg (hreq.beyond e n) hsingle
    (fun hp => nomatch hnative.symm.trans hp) hvertex hd (MemoryGraph.ofSeed_typed hseed he).2
    (h.permits_all hallow hvertex names) hT
  exact ⟨_, hl, hholds⟩

/-- **The lineage of a process is its first hop and the lineages of its neighbours.** In one
direction, with processes shown and no vertex budget, where the datasets of the first hop are
visible: the request around the process is resolved, and so are those around the datasets with one
hop less. Its relations are those of the first edges and those of these lineages, or of none of them
if its depth is 1; its entities are the process, the datasets and the entities of these lineages, if
there is a first hop, and none otherwise. -/
theorem process_gathers {data : Value} {inKey outKey : Key}
    (hseed : MemoryGraph.ofSeed t data = .ok g) (h : s.Serves t g cs) (hnative : s.usePatterns = false)
    (hallow : s.policy.authorizer = .allowAll) (hseparate : t.Separates)
    (hi : t.labels.inputs.key = .ok inKey) (ho : t.labels.outputs.key = .ok outKey)
    (hreq : req.Asks direction n cs names) (hsingle : direction ≠ .both)
    (hshown : req.hideProcess.truth = false) (hguid : req.guid.key = .ok k)
    (hv : g.vertices[k]? = some v) (hdataset : t.isDataset v.typeName = .ok false)
    (hprocess : t.isProcess v.typeName = .ok true)
    (hvisible : ∀ e, g.FirstHop t.labels direction k e →
      s.policy.projector.visible e.target = .ok true ∧ admitsAll cs e.target = .ok true) :
    ∃ whole, s.resolve req = .ok whole ∧
      (∀ e, g.FirstHop t.labels direction k e → ∃ part, s.resolve (req.beyond e n) = .ok part) ∧
      (∀ x, whole.lineage.hasRelation x = true ↔
        (∃ e y, g.FirstHop t.labels direction k e ∧ e.Flow t.labels y ∧ x.same y = true) ∨
        n ≠ 1 ∧ ∃ e part, g.FirstHop t.labels direction k e ∧
          s.resolve (req.beyond e n) = .ok part ∧ part.lineage.hasRelation x = true) ∧
      ∀ id, whole.lineage.hasEntity id = true ↔ ∃ e, g.FirstHop t.labels direction k e ∧
        (id.key = k ∨ e.target.id.key = .ok id.key ∨
          n ≠ 1 ∧ ∃ part, s.resolve (req.beyond e n) = .ok part ∧
            part.lineage.hasEntity id = true) := by
  obtain rfl : s.policy.taxonomy = t := h.taxonomy
  have hg : g.Seeded := MemoryGraph.ofSeed_seeded hseed
  obtain ⟨T, hT⟩ := Terrain.For.exists_single g.added.toList hsingle hi ho
  have hfrom : (req.contextFrom s.policy v direction n cs names).From s.policy.taxonomy g k n :=
    ⟨hg, fun e he => MemoryGraph.ofSeed_typed hseed he, hseparate,
      ⟨h.classified, h.judged⟩, rfl, hv, hprocess, hshown, rfl⟩
  have hroot : ∀ e ∈ T.rootEdges (req.contextFrom s.policy v direction n cs names),
      (req.contextFrom s.policy v direction n cs names).admits e.target = .ok true := by
    intro e he
    obtain ⟨hshows, hpasses⟩ := hvisible e ((hfrom.mem_rootEdges_iff hT).mp he)
    exact Context.admits_of_visible hshows hpasses
  obtain ⟨l, hl, hholds⟩ := resolve_process h hreq hfrom hsingle hnative hguid hdataset
    (h.permits_all hallow hv names) hT hroot
  have hparts : ∀ e, g.FirstHop s.policy.taxonomy.labels direction k e → _ :=
    fun e he => resolve_beyond h hseed hnative hallow hreq hsingle hT he.mem
  have hyields (x : Relation) := (hfrom.yields_iff (r := s.walker.recorder _) rfl hT.edges hroot
    (s.recorderBeside req direction n cs names) (fun e he d hd =>
      have hfirst := (hfrom.mem_rootEdges_iff hT).mp he
      h.beside hseed hseparate hshown hfirst.mem (hvisible e hfirst) hd) x).trans
    (exists_congr fun e => and_congr_left fun _ => hfrom.mem_rootEdges_iff hT)
  obtain ⟨hrelations, hentities⟩ := hholds.gathers hyields hparts
  refine ⟨_, hl, fun e he => (hparts e he).imp fun _ hpart => hpart.1, fun x => ?_, fun id => ?_⟩
  · rw [hrelations]
    exact or_congr_left (exists_congr fun e => exists_congr fun y => and_congr_right fun _ =>
      and_congr_left fun _ => Recorder.relationOf_iff)
  · rw [hentities]
    refine exists_congr fun e => and_congr_right fun he => ?_
    rw [Recorder.ends_relationOf (hfrom.legible.readsEdge hg rfl he.mem), he.source, or_assoc]
    exact or_congr_left ⟨fun hk => (Except.ok.inj hk).symm, congrArg _ ∘ Eq.symm⟩

end Service

/-! ## 5. The loop -/

namespace Loop

/-- The request for all that flows out of `p`, over any number of hops. -/
def jobRequest : LineageRequest := { request with guid := .text "p" }

theorem asks_job : jobRequest.Asks .output 0 [] [] :=
  ⟨asks.direction, asks.depth, asks.criteria, asks.names⟩

theorem vertex_job : graph.vertices[Key.text "p"]? = some (job "p") := by
  simp only [graph, vertices, Std.HashMap.getElem?_insert]
  rfl

/-- The only edge out of `p` in this direction leads to `x`. -/
theorem firstHop_iff {e : Edge} : graph.FirstHop taxonomy.labels .output (.text "p") e ↔
    e = edge "3" "writes" "p" "x" := by
  constructor
  · rintro ⟨hm, hsource, hlabel⟩
    have hm : e ∈ edges := hm
    have hnot : (Except.ok (.text "reads") : Outcome Key) ≠ .ok (.text "writes") :=
      fun h => absurd (Except.ok.inj h) (by decide)
    have hother : (Except.ok (.text "q") : Outcome Key) ≠ .ok (.text "p") :=
      fun h => absurd (Except.ok.inj h) (by decide)
    simp only [edges, List.mem_cons, List.not_mem_nil, or_false] at hm
    rcases hm with rfl | rfl | rfl | rfl | rfl
    · exact absurd hlabel hnot
    · exact absurd hlabel hnot
    · rfl
    · exact absurd hlabel hnot
    · exact absurd hsource hother
  · rintro rfl
    exact ⟨show _ ∈ edges by simp [edges], rfl, rfl⟩

end Loop

/-- What flows out of the job `p` goes to `x`, and on with what flows out of `x`. -/
theorem Service.process_gathers_loop :
    MemoryGraph.ofSeed Loop.taxonomy Loop.seed = .ok Loop.graph ∧
    Loop.walking.Serves Loop.taxonomy Loop.graph [] ∧ Loop.taxonomy.Separates ∧
    Loop.jobRequest.Asks .output 0 [] [] ∧
    Loop.graph.FirstHop Loop.taxonomy.labels .output (.text "p") (Loop.edge "3" "writes" "p" "x") ∧
    ∃ whole, Loop.walking.resolve Loop.jobRequest = .ok whole ∧
      (∃ part, Loop.walking.resolve (Loop.jobRequest.beyond (Loop.edge "3" "writes" "p" "x") 0) =
        .ok part) ∧
      ∀ x, whole.lineage.hasRelation x = true ↔
        (∃ e y, Loop.graph.FirstHop Loop.taxonomy.labels .output (.text "p") e ∧
          e.Flow Loop.taxonomy.labels y ∧ x.same y = true) ∨
        0 ≠ 1 ∧ ∃ e part, Loop.graph.FirstHop Loop.taxonomy.labels .output (.text "p") e ∧
          Loop.walking.resolve (Loop.jobRequest.beyond e 0) = .ok part ∧
            part.lineage.hasRelation x = true := by
  have hfirst := Loop.firstHop_iff.mpr rfl
  obtain ⟨whole, hwhole, hparts, hrelations, _⟩ :=
    process_gathers Loop.ofSeed_eq Loop.serves rfl rfl Loop.separates rfl rfl Loop.asks_job
      (by decide) rfl rfl Loop.vertex_job rfl rfl
      fun e he => by rw [Loop.firstHop_iff.mp he]; exact ⟨rfl, rfl⟩
  exact ⟨Loop.ofSeed_eq, Loop.serves, Loop.separates, Loop.asks_job, hfirst, whole, hwhole,
    hparts _ hfirst, hrelations⟩

end DataLineage
