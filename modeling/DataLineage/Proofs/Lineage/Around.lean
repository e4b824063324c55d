import DataLineage.Taxonomy.Closure
import DataLineage.Proofs.Lineage.Dataset
import DataLineage.Proofs.Lineage.Limited

/-!
# What a lineage around a visible dataset holds

Where no type is both dataset-like and process-like, datasets and processes are told apart in every
lineage. Around a dataset that is visible, being the root makes no difference to what is open:

* `Taxonomy.Separates` -- no type is both, `Taxonomy.separates_of_types` -- no declared one;
* `Context.Around` -- a request around a visible dataset of the graph of seed data;
* `Context.Passes`, `Around.opensPair_iff` -- which pairs are open, said of their datasets alone;
* `Terrain.OpenPair`, `Around.yields_iff` -- its lineage has the relations of open pairs;
* `Around.ends_iff` -- **which entities its lineage has**;
* `Around.dataset_ends_iff` -- of the datasets, those to which as many hops lead as the depth says.
-/

namespace DataLineage

/-! ## 1. Datasets and processes -/

/-- **No type is both dataset-like and process-like.** -/
def Taxonomy.Separates (t : Taxonomy) : Prop :=
  ∀ typeName, ¬ (t.isDataset typeName = .ok true ∧ t.isProcess typeName = .ok true)

/-- **It is enough to look at the declared types.** -/
theorem Taxonomy.separates_of_types {t : Taxonomy} {d p : Key} (hd : t.datasetMarker.key = .ok d)
    (hp : t.processMarker.key = .ok p)
    (h : ∀ e ∈ t.types, ¬ (Closure.has e.closure d ∧ Closure.has e.closure p)) :
    t.Separates := by
  intro typeName hboth
  obtain ⟨hdataset, hprocess⟩ := hboth
  unfold isDataset isOfCategory at hdataset
  unfold isProcess isOfCategory at hprocess
  obtain ⟨name, hname, hdataset⟩ := Outcome.bind_eq_ok.mp hdataset
  rw [hd, Outcome.ok_bind] at hdataset
  rw [hname, Outcome.ok_bind, hp, Outcome.ok_bind] at hprocess
  have hdataset : t.reaches name d = true := Except.ok.inj hdataset
  have hprocess : t.reaches name p = true := Except.ok.inj hprocess
  unfold reaches closureOf at hdataset hprocess
  cases hdeclared : t.type? name with
  | none =>
      rw [hdeclared] at hdataset
      cases hdataset
  | some e =>
      rw [hdeclared] at hdataset hprocess
      exact h e (List.mem_of_find?_eq_some hdeclared) ⟨hdataset, hprocess⟩

/-- The edges of the graph lead from processes to datasets. -/
def MemoryGraph.Typed (g : MemoryGraph) (t : Taxonomy) : Prop :=
  ∀ e ∈ g.added.toList,
    t.isProcess e.source.typeName = .ok true ∧ t.isDataset e.target.typeName = .ok true

/-- No edge leaves a dataset. -/
theorem MemoryGraph.Typed.source_ne {g : MemoryGraph} {t : Taxonomy} (h : g.Typed t)
    (hg : g.Seeded) (ht : t.Separates) {e : Edge} (he : e ∈ g.added.toList) {k : Key} {v : Vertex}
    (hv : g.vertices[k]? = some v) (hd : t.isDataset v.typeName = .ok true) :
    e.source.id.key ≠ .ok k := by
  intro hk
  obtain ⟨k', hk', hsource⟩ := hg.ends e he .outgoing
  obtain rfl : k = k' := Except.ok.inj (hk.symm.trans hk')
  obtain rfl : v = e.source := Option.some.inj (hv.symm.trans hsource)
  exact ht _ ⟨hd, (h e he).1⟩

/-- A pair with a hidden process brings in one relation. -/
theorem Recorder.pairYields_hidden {r : Recorder} (h : r.context.hidesProcesses = true)
    {into out : Edge} {x : Relation} :
    r.PairYields into out x ↔ r.relationThrough into out = .ok x := by
  unfold PairYields
  rw [if_pos h]

/-- A pair with a visible process brings in the relations of its edges. -/
theorem Recorder.pairYields_expanded {r : Recorder} (h : r.context.hidesProcesses = false)
    {into out : Edge} {x : Relation} :
    r.PairYields into out x ↔ r.relationOf into = .ok x ∨ r.relationOf out = .ok x := by
  unfold PairYields
  rw [h, if_neg Bool.false_ne_true]

/-- A pair has a relation through its process. -/
theorem Recorder.relationThrough_total {r : Recorder} {into out : Edge} (hi : r.ReadsEdge into)
    (ho : r.ReadsEdge out) : ∃ x, r.relationThrough into out = .ok x := by
  obtain ⟨s, hs⟩ := hi.target.id
  obtain ⟨s', hs'⟩ := ho.target.id
  obtain ⟨p, hp⟩ := ho.source.id
  exact relationThrough_isOk hs hs' hp

/-! ## 2. Open pairs around a visible dataset -/

/-- **An open pair of a lineage**, at a dataset within its depth. -/
structure Terrain.OpenPair (T : Terrain) (r : Recorder) (d : Key) (into out : Edge) : Prop where
  near : T.Within r r.context.budget r.context.root d
  pair : T.PairAt d into out
  opens : r.opensPair into out = .ok true

namespace Context

/-- **The pair between the two datasets is open**: both are visible, if processes are hidden or both
have to be; otherwise one of them is. -/
def Passes (c : Context) (requireBoth : Bool) (a b : Vertex) : Prop :=
  if c.hidesProcesses || requireBoth then c.admits a = .ok true ∧ c.admits b = .ok true
  else c.admits a = .ok true ∨ c.admits b = .ok true

theorem passes_comm {c : Context} {requireBoth : Bool} {a b : Vertex} :
    c.Passes requireBoth a b ↔ c.Passes requireBoth b a := by
  unfold Passes
  split
  · exact And.comm
  · exact Or.comm

end Context

/-- **A pair is open if its datasets pass**, where being the root makes no difference to them. -/
theorem Recorder.opensPair_passes {r : Recorder} {into out : Edge} (hi : r.Reads into.target)
    (ho : r.Reads out.target)
    (hnear : r.context.Sees into.target ↔ r.context.admits into.target = .ok true)
    (hfar : r.context.Sees out.target ↔ r.context.admits out.target = .ok true) :
    r.opensPair into out = .ok true ↔
      r.context.Passes r.requireBoth into.target out.target := by
  rw [opensPair_iff hi ho]
  unfold Context.Opens Context.Passes
  rw [hnear, hfar]
  cases r.context.hidesProcesses with
  | true => exact And.comm
  | false => cases r.requireBoth <;> exact Iff.rfl

namespace Context

/-- **A request around a visible dataset** of the graph of seed data. -/
structure Around (c : Context) (t : Taxonomy) (g : MemoryGraph) (k : Key) : Prop where
  seeded : g.Seeded
  typed : g.Typed t
  separate : t.Separates
  legible : g.Legible c
  dataset : c.isDataset = true
  root : g.vertices[k]? = some c.root
  visible : c.admits c.root = .ok true

namespace Around

variable {c : Context} {t : Taxonomy} {g : MemoryGraph} {k : Key} {r : Recorder} {T : Terrain}
  {n : Nat}

theorem root_key (h : c.Around t g k) : c.root.id.key = .ok k :=
  h.seeded.built.indexed.stored k c.root h.root

/-- What can be seen is visible, since the root is. -/
theorem sees_iff (h : c.Around t g k) {e : Edge} (he : e ∈ g.added.toList) :
    c.Sees e.target ↔ c.admits e.target = .ok true := by
  refine ⟨fun hs => hs.elim (fun hroot => ?_) id, .inr⟩
  obtain ⟨k', hk', hv⟩ := h.seeded.ends e he .incoming
  have hk' : e.target.id.key = .ok k' := hk'
  have hroot : e.target.id.equal c.root.id = true := hroot
  obtain ⟨s, hs, rfl⟩ := (Value.key_eq_ok_iff _ _).mp hk'
  rw [hs, Value.equal_scalar, Bool.and_eq_true, Value.hasKey_iff, h.root_key] at hroot
  obtain rfl : k = s.key := Except.ok.inj hroot.2
  obtain hv : e.target = c.root := Option.some.inj (hv.symm.trans h.root)
  rw [hv]
  exact h.visible

/-- **A pair is open if its datasets pass.** -/
theorem opensPair_iff (h : c.Around t g k) (hr : r.context = c) {into out : Edge}
    (hi : into ∈ g.added.toList) (ho : out ∈ g.added.toList) :
    r.opensPair into out = .ok true ↔ c.Passes r.requireBoth into.target out.target := by
  subst hr
  exact Recorder.opensPair_passes (h.legible.readsEdge h.seeded rfl hi).target
    (h.legible.readsEdge h.seeded rfl ho).target (h.sees_iff hi) (h.sees_iff ho)

/-! ## 3. Entities -/

/-- What lies within the depth of the request. -/
theorem within_iff (h : c.Around t g k) (hr : r.context = c) (hb : c.budget = .ofDepth n)
    (d : Key) : T.Within r r.context.budget r.context.root d ↔
      ∃ j, (n = 0 ∨ j < n) ∧ ReachesIn (T.Hop r) j k d := by
  subst hr
  unfold Terrain.Within
  rw [hb]
  constructor
  · intro h'
    obtain ⟨start, j, hstart, hj, hreach⟩ := h'
    obtain rfl : k = start := Except.ok.inj (h.root_key.symm.trans hstart)
    exact ⟨j, HopBudget.allows_ofDepth.mp hj, hreach⟩
  · intro h'
    obtain ⟨j, hj, hreach⟩ := h'
    exact ⟨k, j, h.root_key, HopBudget.allows_ofDepth.mpr hj, hreach⟩

/-- **The relations of the lineage** are those of its open pairs. -/
theorem yields_iff (h : c.Around t g k) (hr : r.context = c) (y : Relation) :
    T.Yields r y ↔ ∃ d into out, T.OpenPair r d into out ∧ r.PairYields into out y := by
  subst hr
  constructor
  · intro h'
    obtain ⟨call, hcall, hy⟩ := h'
    cases hcall with
    | first hd _ => exact absurd (h.dataset.symm.trans hd) (by decide)
    | beyond hd _ _ _ => exact absurd (h.dataset.symm.trans hd) (by decide)
    | dataset _ hd hp => exact ⟨_, _, _, ⟨hd, hp, hy.1⟩, hy.2⟩
  · intro h'
    obtain ⟨d, into, out, hp, hy⟩ := h'
    exact ⟨.pair into out, .dataset h.dataset hp.near hp.pair, hp.opens, hy⟩

/-- **The entities of the lineage**: the datasets of its open pairs, and their processes, unless
these are hidden. -/
theorem ends_iff (h : c.Around t g k) (hr : r.context = c) (hT : T.edges = g.added.toList)
    (x : Key) :
    LineageGraph.Ends (T.Yields r) x ↔ ∃ d into out, T.OpenPair r d into out ∧
      (into.target.id.key = .ok x ∨ out.target.id.key = .ok x ∨
        c.hidesProcesses = false ∧ into.source.id.key = .ok x) := by
  have reads {e : Edge} (he : e ∈ T.edges) : r.ReadsEdge e :=
    h.legible.readsEdge h.seeded hr (hT ▸ he)
  subst hr
  constructor
  · intro h'
    obtain ⟨y, hy, hx⟩ := h'
    obtain ⟨d, into, out, hp, hyields⟩ := (h.yields_iff rfl y).mp hy
    refine ⟨d, into, out, hp, ?_⟩
    cases hm : r.context.hidesProcesses with
    | true =>
        have hyields := (Recorder.pairYields_hidden hm).mp hyields
        exact ((Recorder.relationThrough_ends hyields x).mp hx).imp_right .inl
    | false =>
        obtain ⟨p, hi, ho⟩ := hp.pair.process
        rcases (Recorder.pairYields_expanded hm).mp hyields with hyields | hyields
        · rcases (Recorder.relationOf_ends hyields x).mp hx with hx | hx
          · exact .inr (.inr ⟨rfl, hx⟩)
          · exact .inl hx
        · rcases (Recorder.relationOf_ends hyields x).mp hx with hx | hx
          · exact .inr (.inr ⟨rfl, hi.trans (ho.symm.trans hx)⟩)
          · exact .inr (.inl hx)
  · intro h'
    obtain ⟨d, into, out, hp, hx⟩ := h'
    have yields {y : Relation} (hy : r.PairYields into out y)
        (hends : y.source.key = x ∨ y.target.key = x) : LineageGraph.Ends (T.Yields r) x :=
      ⟨y, (h.yields_iff rfl y).mpr ⟨d, into, out, hp, hy⟩, hends⟩
    cases hm : r.context.hidesProcesses with
    | true =>
        obtain ⟨y, hy⟩ :=
          Recorder.relationThrough_total (reads hp.pair.into_mem) (reads hp.pair.out_mem)
        refine yields ((Recorder.pairYields_hidden hm).mpr hy)
          ((Recorder.relationThrough_ends hy x).mpr ?_)
        exact hx.imp_right fun hx => hx.resolve_right fun hx => nomatch hm.symm.trans hx.1
    | false =>
        have yields {y : Relation} (hy : r.relationOf into = .ok y ∨ r.relationOf out = .ok y)
            (hends : y.source.key = x ∨ y.target.key = x) : LineageGraph.Ends (T.Yields r) x :=
          yields ((Recorder.pairYields_expanded hm).mpr hy) hends
        obtain ⟨y, hy⟩ := Recorder.relationOf_total (reads hp.pair.into_mem)
        obtain ⟨z, hz⟩ := Recorder.relationOf_total (reads hp.pair.out_mem)
        rcases hx with hx | hx | ⟨_, hx⟩
        · exact yields (.inl hy) ((Recorder.relationOf_ends hy x).mpr (.inr hx))
        · exact yields (.inr hz) ((Recorder.relationOf_ends hz x).mpr (.inr hx))
        · exact yields (.inl hy) ((Recorder.relationOf_ends hy x).mpr (.inl hx))

/-- **A dataset other than the root is an entity of the lineage** exactly when as many hops lead to
it as the depth says, or any number of them if the depth is 0. -/
theorem dataset_ends_iff (h : c.Around t g k) (hr : r.context = c) (hT : T.edges = g.added.toList)
    (hb : c.budget = .ofDepth n) {x : Key} {v : Vertex} (hv : g.vertices[x]? = some v)
    (hd : t.isDataset v.typeName = .ok true) (hne : x ≠ k) :
    LineageGraph.Ends (T.Yields r) x ↔ ∃ j, (n = 0 ∨ j ≤ n) ∧ ReachesIn (T.Hop r) j k x := by
  rw [h.ends_iff hr hT]
  constructor
  · intro h'
    obtain ⟨d, into, out, ⟨hwithin, hp, hopen⟩, hx⟩ := h'
    obtain ⟨j, hj, hreach⟩ := (h.within_iff hr hb d).mp hwithin
    rcases hx with hx | hx | ⟨_, hx⟩
    · obtain rfl : d = x := Except.ok.inj (hp.near.symm.trans hx)
      exact ⟨j, hj.imp_right Nat.le_of_lt, hreach⟩
    · exact ⟨j + 1, hj, hreach.step ⟨into, out, hp, hopen, hx⟩⟩
    · exact absurd hx (h.typed.source_ne h.seeded h.separate (hT ▸ hp.into_mem) hv hd)
  · intro h'
    obtain ⟨j, hj, hreach⟩ := h'
    cases hreach with
    | here => exact absurd rfl hne
    | @step j _ d _ hreach hhop =>
        obtain ⟨into, out, hp, hopen, hx⟩ := hhop
        exact ⟨d, into, out, ⟨(h.within_iff hr hb d).mpr ⟨j, hj, hreach⟩, hp, hopen⟩,
          .inr (.inl hx)⟩

end Around

end Context

/-- The context of a request for a service over the graph of seed data. -/
theorem Service.Serves.around {s : Service Outcome} {t : Taxonomy} {data : Value} {g : MemoryGraph}
    {cs : List Criterion} {k : Key} {v : Vertex} (h : s.Serves t g cs)
    (hseed : MemoryGraph.ofSeed t data = .ok g) (hseparate : t.Separates) (req : LineageRequest)
    (direction : Direction) (n : Nat) (names : List Scalar) (hv : g.vertices[k]? = some v)
    (hvisible : s.policy.projector.visible v = .ok true ∧ admitsAll cs v = .ok true) :
    (req.contextAround s.policy v direction n cs names).Around t g k := by
  refine ⟨MemoryGraph.ofSeed_seeded hseed, fun e he => MemoryGraph.ofSeed_typed hseed he, hseparate,
    h.legible req direction n names v, rfl, hv, ?_⟩
  show (s.policy.projector.visible v >>= fun shown =>
    if shown then admitsAll cs v else .ok false) = .ok true
  rw [hvisible.1]
  exact hvisible.2

/-! ## 4. The loop -/

namespace Loop

/-- Tables are no processes, and jobs are no datasets. -/
theorem separates : taxonomy.Separates := Taxonomy.separates_of_types rfl rfl (by decide)

theorem serves : walking.Serves taxonomy graph [] where
  graph := ⟨_, rfl⟩
  taxonomy := rfl
  unlimited := rfl
  classified := graphRequest.classified
  judged := graphRequest.judged

theorem asks : request.Asks .output 0 [] [] := ⟨Direction.parse_name .output, rfl, rfl, rfl⟩

theorem vertex_table {id : String} (h : id = "y" ∨ id = "z") :
    graph.vertices[Key.text id]? = some (table id) := by
  simp only [graph, vertices, Std.HashMap.getElem?_insert]
  rcases h with rfl | rfl <;> rfl

end Loop

end DataLineage
