import DataLineage.Proofs.Graph.Seeded
import DataLineage.Proofs.Request.Context
import DataLineage.Proofs.Walk.Traverse

/-!
# The reference lineage

What the lineage of a request is, said without a walk: which pairs of edges are open, which datasets
lie within the depth, and which relations stand for the edges met there.

* `Context.Opens` -- a pair is open when its datasets are visible enough;
* `Terrain.ReachedBy` -- the datasets to which fewer hops lead than the depth says;
* `Terrain.Reference` -- **the relations of a lineage in one direction**;
* `Terrain.yields_iff_reference` -- these are the relations that a walk brings in.
-/

namespace DataLineage

/-! ## 1. Open pairs and the relations that stand for them -/

namespace Context

/-- Can the vertex be seen, being the root or visible? -/
def Sees (c : Context) (v : Vertex) : Prop := c.isRoot v = true ∨ c.admits v = .ok true

/-- **The pair is open**: its far dataset is visible and its near one can be seen, if processes are
hidden; otherwise one of its datasets can be seen, or both where both have to be. -/
def Opens (c : Context) (requireBoth : Bool) (into out : Edge) : Prop :=
  if c.hidesProcesses then c.admits out.target = .ok true ∧ c.Sees into.target
  else if requireBoth then c.Sees into.target ∧ c.Sees out.target
  else c.Sees into.target ∨ c.Sees out.target

end Context

/-- **The relation of an edge**: data flows into the process over an edge with the label of inputs,
and out of it over any other. -/
def Edge.Flow (labels : EdgeLabels) (e : Edge) (x : Relation) : Prop :=
  e.relationshipId = .scalar x.relationshipId ∧ x.processId = .null ∧
    if e.label.equal labels.inputs then
      e.target.id = .scalar x.source ∧ e.source.id = .scalar x.target
    else e.source.id = .scalar x.source ∧ e.target.id = .scalar x.target

/-- **The relation through a hidden process**: data flows from what the process reads to what it
writes. -/
def Edge.FlowThrough (labels : EdgeLabels) (into out : Edge) (x : Relation) : Prop :=
  x.relationshipId = .null ∧ out.source.id = .scalar x.processId ∧
    if into.label.equal labels.inputs then
      into.target.id = .scalar x.source ∧ out.target.id = .scalar x.target
    else out.target.id = .scalar x.source ∧ into.target.id = .scalar x.target

/-- The relations that stand for a pair: the one through its process, if processes are hidden, or
those of its two edges. -/
def Context.PairFlow (c : Context) (labels : EdgeLabels) (into out : Edge) (x : Relation) : Prop :=
  if c.hidesProcesses then into.FlowThrough labels out x else into.Flow labels x ∨ out.Flow labels x

/-! ## 2. The reference -/

namespace Terrain

/-- Does an open pair lead from the one dataset to the other? -/
def OpenHop (t : Terrain) (c : Context) (requireBoth : Bool) (d d' : Key) : Prop :=
  ∃ into out, t.PairAt d into out ∧ c.Opens requireBoth into out ∧ out.target.id.key = .ok d'

/-- **Fewer than `n` hops lead from the vertex to the dataset**, or any number of them if `n` is
0; `spare` of the hops are not available. -/
def ReachedBy (t : Terrain) (c : Context) (requireBoth : Bool) (n spare : Nat) (v : Vertex)
    (d : Key) : Prop :=
  ∃ start j, v.id.key = .ok start ∧ (n = 0 ∨ j + spare < n) ∧
    ReachesIn (t.OpenHop c requireBoth) j start d

/-- **The relations of a lineage of depth `n` in one direction.** From a dataset: what stands for
the open pairs at the datasets within the depth. From a process: what stands for its edges in the
direction, and for the open pairs at what lies within one hop less from the ends of these. -/
inductive Reference (t : Terrain) (labels : EdgeLabels) (c : Context) (requireBoth : Bool)
    (n : Nat) : Relation → Prop where
  | pair {d : Key} {into out : Edge} {x : Relation} (hc : c.isDataset = true)
      (hd : t.ReachedBy c requireBoth n 0 c.root d) (hp : t.PairAt d into out)
      (ho : c.Opens requireBoth into out) (hx : c.PairFlow labels into out x) :
      Reference t labels c requireBoth n x
  | first {e : Edge} {x : Relation} (hc : c.isDataset = false) (he : e ∈ t.rootEdges c)
      (hx : e.Flow labels x) : Reference t labels c requireBoth n x
  | beyond {e : Edge} {d : Key} {into out : Edge} {x : Relation} (hc : c.isDataset = false)
      (he : e ∈ t.rootEdges c) (hd : t.ReachedBy c requireBoth n 1 e.target d)
      (hp : t.PairAt d into out) (ho : c.Opens requireBoth into out)
      (hx : c.PairFlow labels into out x) : Reference t labels c requireBoth n x

end Terrain

/-! ## 3. A walk brings in the reference -/

namespace Recorder

variable {r : Recorder}

theorem sees_iff {v : Vertex} : r.sees v = .ok true ↔ r.context.Sees v := by
  unfold sees Context.Sees
  split
  · rename_i h
    exact ⟨fun _ => .inl h, fun _ => rfl⟩
  · rename_i h
    exact ⟨.inr, fun h' => h'.resolve_left h⟩

/-- **The recorder opens the pairs that are open.** -/
theorem opensPair_iff {into out : Edge} (hi : r.Reads into.target) (ho : r.Reads out.target) :
    r.opensPair into out = .ok true ↔ r.context.Opens r.requireBoth into out := by
  unfold opensPair Context.Opens
  split
  · unfold opensHidden
    obtain ⟨b, hb⟩ := ho.admits
    rw [hb, Outcome.ok_bind]
    cases b with
    | true =>
        rw [if_pos rfl, sees_iff]
        exact ⟨fun h => ⟨rfl, h⟩, And.right⟩
    | false => exact ⟨fun h => (nomatch h), fun h => (nomatch h.1)⟩
  · obtain ⟨left, hl⟩ := sees_isOk hi
    obtain ⟨right, hr⟩ := sees_isOk ho
    rw [← sees_iff, ← sees_iff, hl, hr]
    show Except.ok (if r.requireBoth then left && right else left || right) = _ ↔ _
    cases r.requireBoth <;> cases left <;> cases right <;> simp

theorem relationOf_iff {e : Edge} {x : Relation} :
    r.relationOf e = .ok x ↔ e.Flow r.taxonomy.labels x := by
  unfold relationOf Edge.Flow isInput
  split
  · rw [Relation.ofValues_ok]
    refine ⟨fun ⟨hs, ht, hi, hp⟩ => ⟨hi, (Value.scalar.inj hp).symm, hs, ht⟩, ?_⟩
    exact fun ⟨hi, hp, hs, ht⟩ => ⟨hs, ht, hi, hp ▸ rfl⟩
  · rw [Relation.ofValues_ok]
    refine ⟨fun ⟨hs, ht, hi, hp⟩ => ⟨hi, (Value.scalar.inj hp).symm, hs, ht⟩, ?_⟩
    exact fun ⟨hi, hp, hs, ht⟩ => ⟨hs, ht, hi, hp ▸ rfl⟩

theorem relationThrough_iff {into out : Edge} {x : Relation} :
    r.relationThrough into out = .ok x ↔ into.FlowThrough r.taxonomy.labels out x := by
  unfold relationThrough Edge.FlowThrough isInput
  split
  · rw [Relation.ofValues_ok]
    refine ⟨fun ⟨hs, ht, hi, hp⟩ => ⟨(Value.scalar.inj hi).symm, hp, hs, ht⟩, ?_⟩
    exact fun ⟨hi, hp, hs, ht⟩ => ⟨hs, ht, hi ▸ rfl, hp⟩
  · rw [Relation.ofValues_ok]
    refine ⟨fun ⟨hs, ht, hi, hp⟩ => ⟨(Value.scalar.inj hi).symm, hp, hs, ht⟩, ?_⟩
    exact fun ⟨hi, hp, hs, ht⟩ => ⟨hs, ht, hi ▸ rfl, hp⟩

theorem pairYields_iff {into out : Edge} {x : Relation} :
    r.PairYields into out x ↔ r.context.PairFlow r.taxonomy.labels into out x := by
  unfold PairYields Context.PairFlow
  split
  · exact relationThrough_iff
  · exact or_congr relationOf_iff relationOf_iff

end Recorder

/-- The budget of a depth allows fewer hops than the depth, and 0 any number. -/
theorem HopBudget.allows_ofDepth {n j : Nat} : (ofDepth n).Allows j ↔ n = 0 ∨ j < n := by
  unfold ofDepth
  split
  · rename_i h
    exact ⟨fun _ => .inl h, fun _ => allows_unbounded j⟩
  · rename_i h
    rw [allows_hops]
    exact ⟨.inr, fun hj => hj.resolve_left h⟩

theorem HopBudget.allows_next_ofDepth {n j : Nat} :
    (ofDepth n).next.Allows j ↔ n = 0 ∨ j + 1 < n := by
  unfold ofDepth
  split
  · rename_i h
    exact ⟨fun _ => .inl h, fun _ => allows_unbounded j⟩
  · rename_i h
    show (hops (n - 1)).Allows j ↔ _
    rw [allows_hops]
    omega

namespace Terrain

variable {t : Terrain} {r : Recorder} {n : Nat}

theorem hop_iff (hr : ∀ e ∈ t.edges, r.ReadsEdge e) (d d' : Key) :
    t.Hop r d d' ↔ t.OpenHop r.context r.requireBoth d d' := by
  refine exists_congr fun into => exists_congr fun out => and_congr_right fun hp => ?_
  refine and_congr_left fun _ => ?_
  exact Recorder.opensPair_iff (hr into hp.into_mem).target (hr out hp.out_mem).target

theorem reachesIn_iff (hr : ∀ e ∈ t.edges, r.ReadsEdge e) {j : Nat} {d d' : Key} :
    ReachesIn (t.Hop r) j d d' ↔ ReachesIn (t.OpenHop r.context r.requireBoth) j d d' :=
  ⟨.mono fun d d' => (hop_iff hr d d').mp, .mono fun d d' => (hop_iff hr d d').mpr⟩

theorem within_iff (hr : ∀ e ∈ t.edges, r.ReadsEdge e) {b : HopBudget} {s : Nat}
    (hb : ∀ j, b.Allows j ↔ n = 0 ∨ j + s < n) (v : Vertex) (d : Key) :
    t.Within r b v d ↔ t.ReachedBy r.context r.requireBoth n s v d := by
  refine exists_congr fun start => exists_congr fun j => and_congr_right fun _ => ?_
  exact and_congr (hb j) (reachesIn_iff hr)

/-- **The relations that a walk brings in are those of the reference.** -/
theorem yields_iff_reference (hr : ∀ e ∈ t.edges, r.ReadsEdge e)
    (hb : r.context.budget = .ofDepth n)
    (hroot : ∀ e ∈ t.rootEdges r.context, r.context.isRoot e.source = true) (x : Relation) :
    t.Yields r x ↔ t.Reference r.taxonomy.labels r.context r.requireBoth n x := by
  have hnear := within_iff (r := r) (b := r.context.budget) hr
    (s := 0) fun j => by rw [hb]; exact HopBudget.allows_ofDepth
  have hfar := within_iff (r := r) (b := r.context.budget.next) hr
    (s := 1) fun j => by rw [hb]; exact HopBudget.allows_next_ofDepth
  have hopen {d : Key} {into out : Edge} (hp : t.PairAt d into out) :
      r.opensPair into out = .ok true ↔ r.context.Opens r.requireBoth into out :=
    Recorder.opensPair_iff (hr into hp.into_mem).target (hr out hp.out_mem).target
  constructor
  · intro h'
    obtain ⟨call, hcall, hx⟩ := h'
    cases hcall with
    | dataset hc hd hp =>
        exact .pair hc ((hnear _ _).mp hd) hp ((hopen hp).mp hx.1) (Recorder.pairYields_iff.mp hx.2)
    | first hc he => exact .first hc he (Recorder.relationOf_iff.mp hx.2)
    | beyond hc he hd hp =>
        exact .beyond hc he ((hfar _ _).mp hd) hp ((hopen hp).mp hx.1)
          (Recorder.pairYields_iff.mp hx.2)
  · intro h
    cases h with
    | pair hc hd hp ho hx =>
        exact ⟨_, .dataset hc ((hnear _ _).mpr hd) hp, (hopen hp).mpr ho,
          Recorder.pairYields_iff.mpr hx⟩
    | first hc he hx =>
        exact ⟨_, .first hc he, Recorder.opensEdge_root (hroot _ he), Recorder.relationOf_iff.mpr hx⟩
    | beyond hc he hd hp ho hx =>
        exact ⟨_, .beyond hc he ((hfar _ _).mpr hd) hp, (hopen hp).mpr ho,
          Recorder.pairYields_iff.mpr hx⟩

end Terrain

end DataLineage
