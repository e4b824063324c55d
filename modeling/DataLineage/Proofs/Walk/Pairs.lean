import DataLineage.Proofs.Recording.Closed
import DataLineage.Walk

/-!
# What an expansion does

A walk in one direction goes over a `Terrain`: a list of edges, and the keys of the two labels. A
pair at a dataset is an edge into it and an edge out of the process at its other end. Expanding a
dataset takes its pairs one after the other:

* `Terrain.pairsAt`, `Terrain.mem_pairsAt` -- the pairs at a dataset;
* `Walker.expand_eq` -- an expansion is one fold over these pairs;
* `Walker.takePairs_ok` -- such a fold calls the recorder for each pair, and finds the far datasets
  of the pairs that are open and not expanded yet.
-/

namespace DataLineage

/-! ## 1. Pairs -/

/-- **What a walk in one direction goes over**: edges, the key of the label of the edges into a
dataset, and that of the edges out of the process found there. -/
structure Terrain where
  edges : List Edge
  into : Key
  out : Key

namespace Terrain

/-- **A pair at a dataset**: an edge into it, and an edge that leaves the same process. -/
structure PairAt (t : Terrain) (d : Key) (into out : Edge) : Prop where
  into_mem : into ∈ t.edges
  out_mem : out ∈ t.edges
  into_label : into.label.key = .ok t.into
  out_label : out.label.key = .ok t.out
  near : into.target.id.key = .ok d
  process : ∃ p, into.source.id.key = .ok p ∧ out.source.id.key = .ok p

/-- The pairs that lead over an edge. -/
def pairsOver (t : Terrain) (into : Edge) : List (Edge × Edge) :=
  match into.source.id.key with
  | .ok p => (listed t.edges .outgoing p t.out).map (into, ·)
  | .error _ => []

/-- The pairs at a dataset, in the order in which they are taken. -/
def pairsAt (t : Terrain) (d : Key) : List (Edge × Edge) :=
  (listed t.edges .incoming d t.into).flatMap t.pairsOver

theorem mem_pairsAt {t : Terrain} {d : Key} {p : Edge × Edge} :
    p ∈ t.pairsAt d ↔ t.PairAt d p.1 p.2 := by
  obtain ⟨into, out⟩ := p
  unfold pairsAt
  rw [List.mem_flatMap]
  constructor
  · intro h
    obtain ⟨e, he, hp⟩ := h
    obtain ⟨hm, hd, hl⟩ := mem_listed.mp he
    unfold pairsOver at hp
    cases hs : e.source.id.key with
    | error f =>
        rw [hs] at hp
        exact absurd hp List.not_mem_nil
    | ok q =>
        rw [hs] at hp
        obtain ⟨o, ho, heq⟩ := List.mem_map.mp hp
        cases heq
        obtain ⟨hom, hos, hol⟩ := mem_listed.mp ho
        exact ⟨hm, hom, hl, hol, hd, q, hs, hos⟩
  · intro h
    obtain ⟨hm, hom, hl, hol, hd, q, hs, hos⟩ := h
    refine ⟨into, mem_listed.mpr ⟨hm, hd, hl⟩, ?_⟩
    show (into, out) ∈ t.pairsOver into
    unfold pairsOver
    rw [hs]
    exact List.mem_map.mpr ⟨out, mem_listed.mpr ⟨hom, hos, hol⟩, rfl⟩

/-- **One hop**: from a dataset over an open pair to the far dataset of the pair. -/
def Hop (t : Terrain) (r : Recorder) (d x : Key) : Prop :=
  ∃ into out, t.PairAt d into out ∧ r.opensPair into out = .ok true ∧ out.target.id.key = .ok x

theorem PairAt.joined {t : Terrain} {d : Key} {into out : Edge} (h : t.PairAt d into out) :
    (Call.pair into out).Joined := h.process

end Terrain

/-- The labels for a direction have keys, if the labels of edges have. -/
theorem EdgeLabels.forDirection_keys {labels : EdgeLabels} {inKey outKey : Key}
    (hi : labels.inputs.key = .ok inKey) (ho : labels.outputs.key = .ok outKey) (backward : Bool) :
    ∃ into out, (labels.forDirection backward).1.key = .ok into ∧
      (labels.forDirection backward).2.key = .ok out := by
  cases backward with
  | false => exact ⟨inKey, outKey, hi, ho⟩
  | true => exact ⟨outKey, inKey, ho, hi⟩

/-! ## 2. An expansion as one fold -/

namespace Walker

/-- Takes one pair. -/
def takeOne (r : Recorder) (visited : List Key) (budget : HopBudget) (h : Harvest)
    (p : Edge × Edge) : Outcome Harvest :=
  takePair r visited budget p.1 h p.2

/-- **The walker goes over the terrain**: its graph shows the edges, and its labels for the
direction have the keys. -/
structure Over (w : Walker Outcome) (backward : Bool) (t : Terrain) : Prop where
  shows : w.graph.Shows t.edges
  into : (w.taxonomy.labels.forDirection backward).1.key = .ok t.into
  out : (w.taxonomy.labels.forDirection backward).2.key = .ok t.out

variable {w : Walker Outcome} {backward : Bool} {t : Terrain} {r : Recorder}

theorem ofExcept_eq {α : Type} (x : Outcome α) : (MonadExcept.ofExcept x : Outcome α) = x := by
  cases x <;> rfl

theorem takeProcess_eq (ho : w.Over backward t) (visited : List Key) (budget : HopBudget)
    (h : Harvest) {into : Edge} (hi : into ∈ t.edges) :
    w.takeProcess r visited budget (w.taxonomy.labels.forDirection backward).2 h into =
      (t.pairsOver into).foldlM (takeOne r visited budget) h := by
  obtain ⟨p, hp⟩ := ho.shows.end_key hi .outgoing
  have hp : into.source.id.key = .ok p := hp
  unfold takeProcess Terrain.pairsOver
  rw [ho.shows.edges_eq hp ho.out, hp, Outcome.ok_bind, ofExcept_eq, List.foldlM_map]
  rfl

/-- **An expansion takes the pairs of its dataset one after the other.** -/
theorem expand_eq (ho : w.Over backward t) (visited : List Key) {p : Pending} {d : Key}
    (hd : p.vertex.id.key = .ok d) (lineage : LineageGraph) :
    w.expand r backward visited p lineage =
      (t.pairsAt d).foldlM (takeOne r visited p.budget.next) ⟨lineage, []⟩ := by
  have fold (ins : List Edge) (hins : ∀ e ∈ ins, e ∈ t.edges) (h : Harvest) :
      ins.foldlM (w.takeProcess r visited p.budget.next
        (w.taxonomy.labels.forDirection backward).2) h =
      (ins.flatMap t.pairsOver).foldlM (takeOne r visited p.budget.next) h := by
    induction ins generalizing h with
    | nil => rfl
    | cons e rest ih =>
        rw [List.foldlM_cons, List.flatMap_cons, List.foldlM_append,
          takeProcess_eq ho _ _ _ (hins e List.mem_cons_self)]
        exact congrArg _ (funext fun h => ih (fun e he => hins e (List.mem_cons_of_mem _ he)) h)
  have he : w.expand r backward visited p lineage =
      w.graph.edges p.vertex .incoming (w.taxonomy.labels.forDirection backward).1 >>= fun ins =>
        ins.foldlM (w.takeProcess r visited p.budget.next
          (w.taxonomy.labels.forDirection backward).2) ⟨lineage, []⟩ := by
    cases backward <;> rfl
  rw [he, ho.shows.edges_eq hd ho.into, Outcome.ok_bind]
  exact fold _ (fun e he => (mem_listed.mp he).1) _

/-! ## 3. What the fold leaves -/

/-- One pair: the recorder is called for it, and its far dataset is found if it is open and not
expanded yet. -/
theorem takeOne_ok {visited : List Key} {budget : HopBudget} {h h' : Harvest} {p : Edge × Edge}
    (ht : takeOne r visited budget h p = .ok h') :
    r.Took [.pair p.1 p.2] h.lineage h'.lineage ∧
      ((h'.found = h.found ∧ ∀ x, p.2.target.id.key = .ok x →
          r.opensPair p.1 p.2 = .ok true → x ∈ visited) ∨
        ∃ x, p.2.target.id.key = .ok x ∧ r.opensPair p.1 p.2 = .ok true ∧ x ∉ visited ∧
          h'.found = h.found ++ [⟨p.2.target, budget⟩]) := by
  obtain ⟨⟨skipped, g⟩, hg, ht⟩ := Outcome.bind_eq_ok.mp ht
  obtain ⟨hopen, _⟩ := Recorder.addPair_ok hg
  have took {h' : Harvest} (hl : h'.lineage = g) :
      r.Took [.pair p.1 p.2] h.lineage h'.lineage := hl ▸ .cons hg (.nil g)
  cases skipped with
  | true =>
      cases ht
      refine ⟨took rfl, .inl ⟨rfl, fun x _ ho => ?_⟩⟩
      rw [hopen] at ho
      cases ho
  | false =>
      obtain ⟨x, hx, ht⟩ := Outcome.bind_eq_ok.mp ht
      by_cases hv : x ∈ visited
      · rw [List.contains_iff_mem.mpr hv] at ht
        cases ht
        refine ⟨took rfl, .inl ⟨rfl, fun x' hx' _ => ?_⟩⟩
        rw [hx] at hx'
        cases hx'
        exact hv
      · have hv' : visited.contains x = false := by
          rw [Bool.eq_false_iff]
          exact fun hc => hv (List.contains_iff_mem.mp hc)
        rw [hv'] at ht
        cases ht
        exact ⟨took rfl, .inr ⟨x, hx, hopen, hv, rfl⟩⟩

/-- What a fold found: pending datasets with the given budget, under the given keys. -/
inductive Found (budget : HopBudget) : List Pending → List Key → Prop where
  | nil : Found budget [] []
  | cons {v : Vertex} {k : Key} {ps : List Pending} {ks : List Key} (hk : v.id.key = .ok k)
      (rest : Found budget ps ks) : Found budget (⟨v, budget⟩ :: ps) (k :: ks)

/-- **A fold over pairs calls the recorder for each of them**, and finds the far datasets of those
that are open, but for the ones expanded before. -/
theorem takePairs_ok {visited : List Key} {budget : HopBudget} {ps : List (Edge × Edge)}
    {h h' : Harvest} (ht : ps.foldlM (takeOne r visited budget) h = .ok h') :
    r.Took (ps.map fun p => .pair p.1 p.2) h.lineage h'.lineage ∧
      ∃ pending ks, h'.found = h.found ++ pending ∧ Found budget pending ks ∧
        ∀ x, x ∈ ks ↔ (∃ p ∈ ps, p.2.target.id.key = .ok x ∧ r.opensPair p.1 p.2 = .ok true) ∧
          x ∉ visited := by
  induction ps generalizing h with
  | nil =>
      cases ht
      exact ⟨.nil _, [], [], (List.append_nil _).symm, .nil, fun x => by simp⟩
  | cons p rest ih =>
      obtain ⟨h₁, h₁', ht⟩ := Outcome.bind_eq_ok.mp ht
      obtain ⟨hT, hp⟩ := takeOne_ok h₁'
      obtain ⟨hT', pending, ks, hfound, hF, hks⟩ := ih ht
      refine ⟨hT.append hT', ?_⟩
      rcases hp with ⟨hsame, hno⟩ | ⟨x, hx, ho, hv, hmore⟩
      · refine ⟨pending, ks, by rw [hfound, hsame], hF, fun y => ?_⟩
        simp only [hks y, List.mem_cons, exists_eq_or_imp]
        constructor
        · exact fun ⟨hq, hv⟩ => ⟨.inr hq, hv⟩
        · intro hex
          obtain ⟨⟨hy, ho⟩ | hq, hv⟩ := hex
          · exact absurd (hno y hy ho) hv
          · exact ⟨hq, hv⟩
      · refine ⟨⟨p.2.target, budget⟩ :: pending, x :: ks, ?_, .cons hx hF, fun y => ?_⟩
        · rw [hfound, hmore, List.append_assoc]
          rfl
        · simp only [hks y, List.mem_cons, exists_eq_or_imp]
          constructor
          · intro hex
            rcases hex with rfl | ⟨hq, hv⟩
            · exact ⟨.inl ⟨hx, ho⟩, hv⟩
            · exact ⟨.inr hq, hv⟩
          · intro hex
            obtain ⟨⟨hy, _⟩ | hq, hv⟩ := hex
            · rw [hx] at hy
              cases hy
              exact .inl rfl
            · exact .inr ⟨hq, hv⟩

end Walker

end DataLineage
