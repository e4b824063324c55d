import DataLineage.Proofs.Walk.Result

/-!
# Walks over a part of the edges

A walk that shows processes records edges: those of a root that is a process, and the two of every
open pair at a dataset that it expands. A part of the edges may be enough for the same walk:

* `Terrain.Expands`, `Terrain.Recorded` -- what the walk of a request expands, and which edges it
  records;
* `Terrain.yields_iff_recorded` -- the relations that a walk brings in are those of the edges that
  it records;
* `Terrain.Replays` -- a part of the edges leads to all datasets that the whole leads to;
* `Terrain.Replays.recorded_iff` -- **over such a part a walk records what the whole has recorded
  and the part has**, it expands as many vertices (`Terrain.Replays.total_eq`), and its relations
  have the same ends (`Terrain.Replays.ends_iff`);
* `Terrain.Part.replays` -- a part with every edge that is recorded is such a part.
-/

namespace DataLineage

namespace Terrain

/-! ## 1. What a walk records -/

/-- **The walk of the request expands the dataset.** -/
inductive Expands (t : Terrain) (r : Recorder) (d : Key) : Prop where
  | near (hr : r.context.isDataset = true)
      (hd : t.Within r r.context.budget r.context.root d) : Expands t r d
  | beyond {e : Edge} (hr : r.context.isDataset = false) (he : e ∈ t.rootEdges r.context)
      (hd : t.Within r r.context.budget.next e.target d) : Expands t r d

/-- **The walk of the request records the edge.** -/
inductive Recorded (t : Terrain) (r : Recorder) : Edge → Prop where
  | first {e : Edge} (hr : r.context.isDataset = false) (he : e ∈ t.rootEdges r.context) :
      Recorded t r e
  | into {d : Key} {into out : Edge} (hd : t.Expands r d) (hp : t.PairAt d into out)
      (ho : r.opensPair into out = .ok true) : Recorded t r into
  | out {d : Key} {into out : Edge} (hd : t.Expands r d) (hp : t.PairAt d into out)
      (ho : r.opensPair into out = .ok true) : Recorded t r out

variable {s t : Terrain} {r : Recorder} {e : Edge} {d : Key}

theorem Recorded.mem (h : t.Recorded r e) : e ∈ t.edges := by
  cases h with
  | first _ he => exact (mem_rootEdges.mp he).1
  | into _ hp _ => exact hp.into_mem
  | out _ hp _ => exact hp.out_mem

/-- **The relations that a walk brings in are those of the edges that it records**, where processes
are shown. -/
theorem yields_iff_recorded (hm : r.context.hidesProcesses = false)
    (hroot : ∀ e ∈ t.rootEdges r.context, r.context.isRoot e.source = true) (x : Relation) :
    t.Yields r x ↔ ∃ e, t.Recorded r e ∧ r.relationOf e = .ok x := by
  have hpair (into out : Edge) :
      r.PairYields into out x ↔ r.relationOf into = .ok x ∨ r.relationOf out = .ok x := by
    unfold Recorder.PairYields
    rw [hm]
    rfl
  constructor
  · intro h
    obtain ⟨call, hcall, hx⟩ := h
    cases hcall with
    | dataset hr hd hp =>
        rcases (hpair _ _).mp hx.2 with h | h
        · exact ⟨_, .into (.near hr hd) hp hx.1, h⟩
        · exact ⟨_, .out (.near hr hd) hp hx.1, h⟩
    | first hr he => exact ⟨_, .first hr he, hx.2⟩
    | beyond hr he hd hp =>
        rcases (hpair _ _).mp hx.2 with h | h
        · exact ⟨_, .into (.beyond hr he hd) hp hx.1, h⟩
        · exact ⟨_, .out (.beyond hr he hd) hp hx.1, h⟩
  · intro h
    have called {d : Key} {into out : Edge} (hd : t.Expands r d) (hp : t.PairAt d into out) :
        t.Called r (.pair into out) := by
      cases hd with
      | near hr hd => exact .dataset hr hd hp
      | beyond hr he hd => exact .beyond hr he hd hp
    obtain ⟨e, he, hx⟩ := h
    cases he with
    | first hr he => exact ⟨_, .first hr he, Recorder.opensEdge_root (hroot e he), hx⟩
    | into hd hp ho => exact ⟨_, called hd hp, ho, (hpair _ _).mpr (.inl hx)⟩
    | out hd hp ho => exact ⟨_, called hd hp, ho, (hpair _ _).mpr (.inr hx)⟩

/-! ## 2. Parts -/

/-- **Some of the edges of a terrain**, with the same labels. -/
structure Part (s t : Terrain) : Prop where
  into : s.into = t.into
  out : s.out = t.out
  sub : ∀ e ∈ s.edges, e ∈ t.edges

namespace Part

variable {into out : Edge}

theorem pairAt (h : s.Part t) (hp : s.PairAt d into out) : t.PairAt d into out where
  into_mem := h.sub _ hp.into_mem
  out_mem := h.sub _ hp.out_mem
  into_label := h.into ▸ hp.into_label
  out_label := h.out ▸ hp.out_label
  near := hp.near
  process := hp.process

/-- A pair of the whole is one of the part, if the part has both edges. -/
theorem pairAt_of (h : s.Part t) (hp : t.PairAt d into out) (hi : into ∈ s.edges)
    (ho : out ∈ s.edges) : s.PairAt d into out where
  into_mem := hi
  out_mem := ho
  into_label := h.into ▸ hp.into_label
  out_label := h.out ▸ hp.out_label
  near := hp.near
  process := hp.process

theorem hop (h : s.Part t) {d' : Key} (hh : s.Hop r d d') : t.Hop r d d' := by
  obtain ⟨into, out, hp, ho, hd⟩ := hh
  exact ⟨into, out, h.pairAt hp, ho, hd⟩

theorem within (h : s.Part t) {b : HopBudget} {v : Vertex} (hd : s.Within r b v d) :
    t.Within r b v d := by
  obtain ⟨start, n, hv, ha, hr⟩ := hd
  exact ⟨start, n, hv, ha, hr.mono fun _ _ => h.hop⟩

theorem mem_rootEdges_iff (h : s.Part t) {c : Context} :
    e ∈ s.rootEdges c ↔ e ∈ t.rootEdges c ∧ e ∈ s.edges := by
  rw [mem_rootEdges, mem_rootEdges, h.out]
  constructor
  · intro he
    exact ⟨⟨h.sub e he.1, he.2⟩, he.1⟩
  · intro he
    exact ⟨he.2, he.1.2⟩

theorem expands (h : s.Part t) (hd : s.Expands r d) : t.Expands r d := by
  cases hd with
  | near hr hd => exact .near hr (h.within hd)
  | beyond hr he hd => exact .beyond hr (h.mem_rootEdges_iff.mp he).1 (h.within hd)

theorem recorded (h : s.Part t) (he : s.Recorded r e) : t.Recorded r e := by
  cases he with
  | first hr he => exact .first hr (h.mem_rootEdges_iff.mp he).1
  | into hd hp ho => exact .into (h.expands hd) (h.pairAt hp) ho
  | out hd hp ho => exact .out (h.expands hd) (h.pairAt hp) ho

/-- **What lies within the budget lies within it in the part**, if the part has the open pairs
there. -/
theorem within_of (h : s.Part t) {b : HopBudget} {v : Vertex}
    (hpairs : ∀ d into out, t.Within r b v d → t.PairAt d into out →
      r.opensPair into out = .ok true → into ∈ s.edges ∧ out ∈ s.edges)
    (hd : t.Within r b v d) : s.Within r b v d := by
  obtain ⟨start, n, hv, ha, hr⟩ := hd
  refine ⟨start, n, hv, ha, ?_⟩
  induction hr with
  | here => exact .here _
  | @step n a d d' hr hop ih =>
      have ha' : b.Allows n := HopBudget.Allows.mono n (n + 1) (Nat.le_succ n) ha
      obtain ⟨into, out, hp, ho, hd'⟩ := hop
      obtain ⟨hi, hm⟩ := hpairs d into out ⟨a, n, hv, ha', hr⟩ hp ho
      exact .step (ih hv ha') ⟨into, out, h.pairAt_of hp hi hm, ho, hd'⟩

end Part

/-! ## 3. Parts over which a walk is the same -/

/-- **The part leads to all datasets to which the whole leads.** It has the edges of a root that is
a process, and of each open pair at least the edge out of the process; the dataset of the pair is
reached over edges that it has. -/
structure Replays (s t : Terrain) (r : Recorder) : Prop extends s.Part t where
  roots : r.context.isDataset = false → ∀ e ∈ t.rootEdges r.context, e ∈ s.edges
  near : r.context.isDataset = true → ∀ d, t.Within r r.context.budget r.context.root d →
    s.Within r r.context.budget r.context.root d
  beyond : r.context.isDataset = false → ∀ e ∈ t.rootEdges r.context, ∀ d,
    t.Within r r.context.budget.next e.target d → s.Within r r.context.budget.next e.target d
  pairs : ∀ d into out, t.Expands r d → t.PairAt d into out → r.opensPair into out = .ok true →
    s.Recorded r out ∧ ∃ e, s.Recorded r e ∧ e.target.id.key = .ok d

namespace Replays

theorem expands (h : s.Replays t r) (hd : t.Expands r d) : s.Expands r d := by
  cases hd with
  | near hr hd => exact .near hr (h.near hr d hd)
  | beyond hr he hd =>
      exact .beyond hr (h.mem_rootEdges_iff.mpr ⟨he, h.roots hr _ he⟩) (h.beyond hr _ he d hd)

/-- **Over the part a walk records what is recorded over the whole**, as far as the part has it. -/
theorem recorded_iff (h : s.Replays t r) : s.Recorded r e ↔ t.Recorded r e ∧ e ∈ s.edges := by
  constructor
  · intro he
    exact ⟨h.toPart.recorded he, he.mem⟩
  · intro he
    obtain ⟨he, hm⟩ := he
    cases he with
    | first hr he => exact .first hr (h.mem_rootEdges_iff.mpr ⟨he, hm⟩)
    | into hd hp ho =>
        have hout := (h.pairs _ _ _ hd hp ho).1
        exact .into (h.expands hd) (h.pairAt_of hp hm hout.mem) ho
    | out hd hp ho => exact (h.pairs _ _ _ hd hp ho).1

theorem cost_eq (h : s.Part t) {b : HopBudget} {v : Vertex}
    (hw : ∀ d, t.Within r b v d → s.Within r b v d) : s.cost r b v = t.cost r b v := by
  unfold cost
  congr 1
  ext d
  exact ⟨h.within, hw d⟩

/-- The root has the same edges in the part, in another order perhaps. -/
theorem rootEdges_perm (h : s.Replays t r) (hr : r.context.isDataset = false)
    (hs : s.edges.Nodup) (ht : t.edges.Nodup) :
    (s.rootEdges r.context).Perm (t.rootEdges r.context) := by
  have nodup {t : Terrain} (ht : t.edges.Nodup) : (t.rootEdges r.context).Nodup := by
    unfold rootEdges
    split
    · exact ht.filter _
    · exact List.nodup_nil
  refine (List.perm_ext_iff_of_nodup (nodup hs) (nodup ht)).mpr fun e => ?_
  rw [h.mem_rootEdges_iff]
  exact ⟨And.left, fun he => ⟨he, h.roots hr e he⟩⟩

/-- **Over the part a walk expands as many vertices.** -/
theorem total_eq (h : s.Replays t r) (hs : s.edges.Nodup) (ht : t.edges.Nodup) :
    s.total r = t.total r := by
  unfold total
  cases hr : r.context.isDataset with
  | true => exact cost_eq h.toPart (h.near hr)
  | false =>
      show ((s.rootEdges r.context).map _).sum = ((t.rootEdges r.context).map _).sum
      rw [((h.rootEdges_perm hr hs ht).map _).sum_nat]
      congr 1
      refine List.map_congr_left fun e he => ?_
      exact cost_eq h.toPart (h.beyond hr e he)

/-- **The relations over the part have the same ends** as those over the whole. -/
theorem ends_iff (h : s.Replays t r) (hm : r.context.hidesProcesses = false)
    (hroot : ∀ e ∈ t.rootEdges r.context, r.context.isRoot e.source = true)
    (hx : ∀ e ∈ t.edges, ∃ x, r.relationOf e = .ok x) (k : Key) :
    LineageGraph.Ends (s.Yields r) k ↔ LineageGraph.Ends (t.Yields r) k := by
  have hs (x : Relation) : s.Yields r x ↔ ∃ e, s.Recorded r e ∧ r.relationOf e = .ok x :=
    yields_iff_recorded hm (fun e he => hroot e (h.mem_rootEdges_iff.mp he).1) x
  have ht := yields_iff_recorded hm hroot
  have ends_of {e : Edge} (he : s.Recorded r e)
      (hk : e.source.id.key = .ok k ∨ e.target.id.key = .ok k) :
      LineageGraph.Ends (s.Yields r) k := by
    obtain ⟨x, hx⟩ := hx e (h.sub e he.mem)
    exact ⟨x, (hs x).mpr ⟨e, he, hx⟩, (Recorder.relationOf_ends hx k).mpr hk⟩
  constructor
  · intro hk
    obtain ⟨x, hy, hk⟩ := hk
    obtain ⟨e, he, hx⟩ := (hs x).mp hy
    exact ⟨x, (ht x).mpr ⟨e, h.toPart.recorded he, hx⟩, hk⟩
  · intro hk
    obtain ⟨x, hy, hk⟩ := hk
    obtain ⟨e, he, hx⟩ := (ht x).mp hy
    have hk := (Recorder.relationOf_ends hx k).mp hk
    cases he with
    | first hr he =>
        exact ends_of (.first hr (h.mem_rootEdges_iff.mpr ⟨he, h.roots hr e he⟩)) hk
    | into hd hp ho =>
        -- the edge itself may be missing, but both of its ends are met elsewhere
        obtain ⟨hout, e', he', hd'⟩ := h.pairs _ _ _ hd hp ho
        obtain ⟨p, hpi, hpo⟩ := hp.process
        rcases hk with hk | hk
        · rw [hpi] at hk
          cases hk
          exact ends_of hout (.inl hpo)
        · rw [hp.near] at hk
          cases hk
          exact ends_of he' (.inr hd')
    | out hd hp ho => exact ends_of (h.pairs _ _ _ hd hp ho).1 hk

end Replays

/-- **A part with every edge that is recorded** leads to all datasets to which the whole leads. -/
theorem Part.replays (h : s.Part t) (hall : ∀ e, t.Recorded r e → e ∈ s.edges) :
    s.Replays t r := by
  have hroots (hr : r.context.isDataset = false) (e : Edge) (he : e ∈ t.rootEdges r.context) :
      e ∈ s.edges := hall e (.first hr he)
  have hnear (hr : r.context.isDataset = true) (d : Key)
      (hd : t.Within r r.context.budget r.context.root d) :
      s.Within r r.context.budget r.context.root d :=
    h.within_of (fun _ _ _ hd hp ho =>
      ⟨hall _ (.into (.near hr hd) hp ho), hall _ (.out (.near hr hd) hp ho)⟩) hd
  have hbeyond (hr : r.context.isDataset = false) (e : Edge) (he : e ∈ t.rootEdges r.context)
      (d : Key) (hd : t.Within r r.context.budget.next e.target d) :
      s.Within r r.context.budget.next e.target d :=
    h.within_of (fun _ _ _ hd hp ho =>
      ⟨hall _ (.into (.beyond hr he hd) hp ho), hall _ (.out (.beyond hr he hd) hp ho)⟩) hd
  refine ⟨h, hroots, hnear, hbeyond, fun d into out hd hp ho => ?_⟩
  have hp' : s.PairAt d into out :=
    h.pairAt_of hp (hall _ (.into hd hp ho)) (hall _ (.out hd hp ho))
  have hd' : s.Expands r d := by
    cases hd with
    | near hr hd => exact .near hr (hnear hr d hd)
    | beyond hr he hd =>
        exact .beyond hr (h.mem_rootEdges_iff.mpr ⟨he, hroots hr _ he⟩) (hbeyond hr _ he d hd)
  exact ⟨.out hd' hp' ho, into, .into hd' hp' ho, hp.near⟩

end Terrain

end DataLineage
