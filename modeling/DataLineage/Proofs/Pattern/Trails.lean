import DataLineage.Proofs.Walk.Part

/-!
# Trails

A path that never goes over one edge twice is a trail. The shortest path of hops to a dataset is
one: the edges into datasets end at datasets that lie nearer and nearer to the start, and so do
those out of processes, and an edge has only one of the two labels. So the edges of all trails from
the start lead to every dataset to which any hops lead:

* `Terrain.Steps` -- a path of steps, each over a pair;
* `Terrain.Trail` -- the shortest trail to a dataset, `Terrain.exists_trail` -- there is one;
* `Terrain.Catches` -- a part of the edges that has all trails from the start;
* `Terrain.Catches.within` -- **such a part leads to the same datasets**;
* `Terrain.Catches.pairAt_of_new` -- it has the pairs that go on from a shortest trail over a new
  edge;
* `Terrain.Catches.met` -- it has of each open pair the edge out of the process;
* `Terrain.Part.replays_of_catches` -- so a walk over the part expands the same datasets.
-/

namespace DataLineage

namespace Terrain

/-! ## 1. Steps -/

/-- **So many steps lead over the edges of a path** from the one dataset to the other: each goes
over an edge into a dataset to its process, and out of the process to the next dataset. -/
inductive Steps (t : Terrain) : Nat → Key → List Edge → Key → Prop where
  | none (d : Key) : Steps t 0 d [] d
  | more {n : Nat} {d d' d'' : Key} {path : List Edge} {into out : Edge}
      (h : Steps t n d path d') (hp : t.PairAt d' into out) (hd : out.target.id.key = .ok d'') :
      Steps t (n + 1) d (path ++ [into, out]) d''

variable {s t : Terrain} {r : Recorder} {start d : Key} {n : Nat} {path : List Edge}

/-- The two edges of a pair are different, if the labels are. -/
theorem PairAt.ne {into out : Edge} (hp : t.PairAt d into out) (hlabels : t.into ≠ t.out) :
    into ≠ out := by
  rintro rfl
  exact hlabels (Except.ok.inj (hp.into_label.symm.trans hp.out_label))

/-- There is a least number of hops to what lies within the budget, and the budget allows it. -/
theorem Within.nearest {b : HopBudget} {v : Vertex} (h : t.Within r b v d)
    (hv : v.id.key = .ok start) : ∃ n, b.Allows n ∧ Nearest (t.Hop r) n start d := by
  obtain ⟨start', n, hv', ha, hr⟩ := h
  rw [hv] at hv'
  cases hv'
  obtain ⟨m, hm, hnear⟩ := hr.nearest
  exact ⟨m, HopBudget.Allows.mono m n hm ha, hnear⟩

/-! ## 2. The shortest trail -/

/-- How far from the start an edge of a shortest path ends: an edge into a dataset before the end of
the path, an edge out of a process behind the start. -/
def EndsNear (t : Terrain) (r : Recorder) (start : Key) (n : Nat) (e : Edge) : Prop :=
  (e.label.key = .ok t.into ∧ ∃ i k, i < n ∧ e.target.id.key = .ok k ∧
      Nearest (t.Hop r) i start k) ∨
    (e.label.key = .ok t.out ∧ ∃ i k, 0 < i ∧ i ≤ n ∧ e.target.id.key = .ok k ∧
      Nearest (t.Hop r) i start k)

/-- **The path is a shortest trail** to the dataset. -/
structure Trail (t : Terrain) (r : Recorder) (start : Key) (n : Nat) (path : List Edge) (d : Key) :
    Prop where
  steps : t.Steps n start path d
  once : path.Nodup
  near : ∀ e ∈ path, t.EndsNear r start n e

theorem EndsNear.mono {e : Edge} (h : t.EndsNear r start n e) :
    t.EndsNear r start (n + 1) e := by
  rcases h with ⟨hl, i, k, hi, hk⟩ | ⟨hl, i, k, hpos, hi, hk⟩
  · exact .inl ⟨hl, i, k, by omega, hk⟩
  · exact .inr ⟨hl, i, k, hpos, by omega, hk⟩

/-- An edge into the dataset where the path ends is not on the path. -/
theorem EndsNear.into_ne (hlabels : t.into ≠ t.out) (hd : Nearest (t.Hop r) n start d)
    {into e : Edge} (hl : into.label.key = .ok t.into) (hk : into.target.id.key = .ok d)
    (he : t.EndsNear r start n e) : into ≠ e := by
  rintro rfl
  rcases he with ⟨_, i, k, hi, hk', hnear⟩ | ⟨hl', _⟩
  · rw [hk] at hk'
    cases hk'
    have := hd.unique hnear
    omega
  · rw [hl] at hl'
    exact hlabels (Except.ok.inj hl')

/-- An edge out of a process to a dataset behind the end of the path is not on the path. -/
theorem EndsNear.out_ne (hlabels : t.into ≠ t.out) (hd : Nearest (t.Hop r) (n + 1) start d)
    {out e : Edge} (hl : out.label.key = .ok t.out) (hk : out.target.id.key = .ok d)
    (he : t.EndsNear r start n e) : out ≠ e := by
  rintro rfl
  rcases he with ⟨hl', _⟩ | ⟨_, i, k, _, hi, hk', hnear⟩
  · rw [hl] at hl'
    exact hlabels (Except.ok.inj hl').symm
  · rw [hk] at hk'
    cases hk'
    have := hd.unique hnear
    omega

/-- A pair that leads one hop further makes a longer shortest trail. -/
theorem Trail.extend (h : t.Trail r start n path d) (hlabels : t.into ≠ t.out)
    (hd : Nearest (t.Hop r) n start d) {into out : Edge} (hp : t.PairAt d into out) {d' : Key}
    (hk : out.target.id.key = .ok d') (hd' : Nearest (t.Hop r) (n + 1) start d') :
    t.Trail r start (n + 1) (path ++ [into, out]) d' where
  steps := .more h.steps hp hk
  once := by
    have hpair : [into, out].Nodup := by simp [hp.ne hlabels]
    refine List.nodup_append.mpr ⟨h.once, hpair, fun e he e' he' => ?_⟩
    rcases List.mem_cons.mp he' with rfl | he'
    · exact ((h.near e he).into_ne hlabels hd hp.into_label hp.near).symm
    · rw [List.mem_singleton.mp he']
      exact ((h.near e he).out_ne hlabels hd' hp.out_label hk).symm
  near e he := by
    rcases List.mem_append.mp he with he | he
    · exact (h.near e he).mono
    · rcases List.mem_cons.mp he with rfl | he
      · exact .inl ⟨hp.into_label, n, d, Nat.lt_succ_self n, hp.near, hd⟩
      · rw [List.mem_singleton.mp he]
        exact .inr ⟨hp.out_label, n + 1, d', Nat.succ_pos n, Nat.le_refl _, hk, hd'⟩

/-! ## 3. Parts that have all trails -/

/-- The edge is met in a walk from the start: it is one of an open pair within the budget. -/
def Met (t : Terrain) (r : Recorder) (b : HopBudget) (v : Vertex) (e : Edge) : Prop :=
  ∃ d into out, t.Within r b v d ∧ t.PairAt d into out ∧ r.opensPair into out = .ok true ∧
    (e = into ∨ e = out)

/-- **The part has all trails from the start**, as far as the budget allows. The trails may go on
from edges that came before the start and are not gone over again. -/
structure Catches (s t : Terrain) (b : HopBudget) (start : Key) (before : List Edge) : Prop
    extends s.Part t where
  labels : t.into ≠ t.out
  once : before.Nodup
  first : ∀ e ∈ before, e.label.key = .ok t.out ∧ e.target.id.key = .ok start
  keyed : ∀ e ∈ t.edges, ∃ k, e.target.id.key = .ok k
  trails : ∀ n path d, b.Allows n → t.Steps (n + 1) start path d → (before ++ path).Nodup →
    ∀ e ∈ path, e ∈ s.edges

namespace Catches

variable {b : HopBudget} {before : List Edge} {v : Vertex}

/-- What came before the start is not on a shortest trail. -/
theorem nodup_append (h : s.Catches t b start before) (ht : t.Trail r start n path d) :
    (before ++ path).Nodup := by
  refine List.nodup_append.mpr ⟨h.once, ht.once, fun e he e' he' => ?_⟩
  rintro rfl
  obtain ⟨hl, hk⟩ := h.first e he
  rcases ht.near e he' with ⟨hl', _⟩ | ⟨_, i, k, hpos, _, hk', hnear⟩
  · rw [hl] at hl'
    exact h.labels (Except.ok.inj hl').symm
  · rw [hk] at hk'
    cases hk'
    have := hnear.unique (.start start)
    omega

/-- **There is a shortest trail to every dataset within the budget**, and the part leads over it:
each of its edges is met there, and unless it is empty one of them ends at the dataset. -/
theorem exists_trail (h : s.Catches t b start before) (hv : v.id.key = .ok start)
    (hd : Nearest (t.Hop r) n start d) (ha : b.Allows n) :
    ∃ path, t.Trail r start n path d ∧ ReachesIn (s.Hop r) n start d ∧
      (∀ e ∈ path, s.Met r b v e) ∧
      (n = 0 ∨ ∃ e ∈ path, e.target.id.key = .ok d) := by
  induction n generalizing d with
  | zero =>
      obtain rfl := hd.eq_start
      exact ⟨[], ⟨.none d, List.nodup_nil, fun e he => absurd he List.not_mem_nil⟩, .here d,
        fun e he => absurd he List.not_mem_nil, .inl rfl⟩
  | succ n ih =>
      obtain ⟨c, hc, into, out, hp, ho, hk⟩ := hd.last
      have ha' : b.Allows n := HopBudget.Allows.mono n (n + 1) (Nat.le_succ n) ha
      obtain ⟨path, htrail, hreach, hmet, _⟩ := ih hc ha'
      have hlonger := htrail.extend h.labels hc hp hk hd
      have hin := h.trails n _ d ha' hlonger.steps (h.nodup_append hlonger)
      have hi : into ∈ s.edges := hin into (by simp)
      have hm : out ∈ s.edges := hin out (by simp)
      have hp' : s.PairAt c into out := h.pairAt_of hp hi hm
      have hw : s.Within r b v c := ⟨start, n, hv, ha', hreach⟩
      refine ⟨_, hlonger, .step hreach ⟨into, out, hp', ho, hk⟩, fun e he => ?_,
        .inr ⟨out, by simp, hk⟩⟩
      rcases List.mem_append.mp he with he | he
      · exact hmet e he
      · refine ⟨c, into, out, hw, hp', ho, ?_⟩
        rcases List.mem_cons.mp he with he | he
        · exact .inl he
        · exact .inr (List.mem_singleton.mp he)

/-- **Within the budget the part leads to the same datasets.** -/
theorem within (h : s.Catches t b start before) (hv : v.id.key = .ok start)
    (hd : t.Within r b v d) : s.Within r b v d := by
  obtain ⟨m, ha, hnear⟩ := hd.nearest hv
  obtain ⟨_, _, hreach, _⟩ := h.exists_trail hv hnear ha
  exact ⟨start, m, hv, ha, hreach⟩

/-- **A pair that goes on from a shortest trail over a new edge** is one of the part. -/
theorem pairAt_of_new (h : s.Catches t b start before) (ht : t.Trail r start n path d)
    (hd : Nearest (t.Hop r) n start d) (ha : b.Allows n) {into out : Edge}
    (hp : t.PairAt d into out) (hpath : out ∉ path) (hbefore : out ∉ before) :
    s.PairAt d into out := by
  have hpair : [into, out].Nodup := by simp [hp.ne h.labels]
  have hinto (e : Edge) (he : e ∈ before ++ path) : into ≠ e := by
    rcases List.mem_append.mp he with he | he
    · rintro rfl
      exact h.labels (Except.ok.inj (hp.into_label.symm.trans (h.first into he).1))
    · exact (ht.near e he).into_ne h.labels hd hp.into_label hp.near
  have honce : (before ++ (path ++ [into, out])).Nodup := by
    rw [← List.append_assoc]
    refine List.nodup_append.mpr ⟨h.nodup_append ht, hpair, fun e he e' he' => ?_⟩
    rcases List.mem_cons.mp he' with rfl | he'
    · exact (hinto e he).symm
    · rintro rfl
      rw [List.mem_singleton.mp he'] at he
      exact (List.mem_append.mp he).elim hbefore hpath
  obtain ⟨d', hd'⟩ := h.keyed out hp.out_mem
  have hin := h.trails n _ d' ha (.more ht.steps hp hd') honce
  exact h.pairAt_of hp (hin into (by simp)) (hin out (by simp))

/-- **Of each open pair the part has at least the edge out of the process**: it is met there, or
came before the start. And some edge like this ends at the dataset of the pair. -/
theorem met (h : s.Catches t b start before) (hv : v.id.key = .ok start) (hd : t.Within r b v d)
    {into out : Edge} (hp : t.PairAt d into out) (ho : r.opensPair into out = .ok true) :
    (s.Met r b v out ∨ out ∈ before) ∧
      ∃ e, (s.Met r b v e ∨ e ∈ before) ∧ e.target.id.key = .ok d := by
  obtain ⟨m, ha, hnear⟩ := hd.nearest hv
  obtain ⟨path, htrail, hreach, hmet, hend⟩ := h.exists_trail hv hnear ha
  have hends : m = 0 ∨ ∃ e, (s.Met r b v e ∨ e ∈ before) ∧ e.target.id.key = .ok d := by
    rcases hend with hzero | ⟨e, he, hk⟩
    · exact .inl hzero
    · exact .inr ⟨e, .inl (hmet e he), hk⟩
  by_cases hpath : out ∈ path
  · -- the pair goes back over an edge of the trail itself
    refine ⟨.inl (hmet out hpath), ?_⟩
    rcases hends with rfl | hends
    · cases htrail.steps
      exact absurd hpath List.not_mem_nil
    · exact hends
  by_cases hbefore : out ∈ before
  · -- the pair goes back over the edge before the start
    refine ⟨.inr hbefore, ?_⟩
    rcases hends with rfl | hends
    · obtain rfl := hnear.eq_start
      exact ⟨out, .inr hbefore, (h.first out hbefore).2⟩
    · exact hends
  have hp' : s.PairAt d into out := h.pairAt_of_new htrail hnear ha hp hpath hbefore
  have hw : s.Within r b v d := ⟨start, m, hv, ha, hreach⟩
  exact ⟨.inl ⟨d, into, out, hw, hp', ho, .inr rfl⟩, into,
    .inl ⟨d, into, out, hw, hp', ho, .inl rfl⟩, hp.near⟩

end Catches

/-! ## 4. Walks over parts that have all trails -/

/-- What is met near the root is recorded. -/
theorem Met.recorded {e : Edge} (hr : r.context.isDataset = true)
    (h : s.Met r r.context.budget r.context.root e) : s.Recorded r e := by
  obtain ⟨d, into, out, hd, hp, ho, rfl | rfl⟩ := h
  · exact .into (.near hr hd) hp ho
  · exact .out (.near hr hd) hp ho

/-- What is met beyond an edge of the root is recorded. -/
theorem Met.recorded_beyond {first e : Edge} (hr : r.context.isDataset = false)
    (hfirst : first ∈ s.rootEdges r.context)
    (h : s.Met r r.context.budget.next first.target e) : s.Recorded r e := by
  obtain ⟨d, into, out, hd, hp, ho, rfl | rfl⟩ := h
  · exact .into (.beyond hr hfirst hd) hp ho
  · exact .out (.beyond hr hfirst hd) hp ho

/-- **A part with all trails from the root leads to all datasets to which the whole leads**; if the
root is a process, the trails are those that start by one of its edges. -/
theorem Part.replays_of_catches (h : s.Part t)
    (hdataset : r.context.isDataset = true → ∀ k, r.context.root.id.key = .ok k →
      s.Catches t r.context.budget k [])
    (hprocess : r.context.isDataset = false → ∀ e ∈ t.rootEdges r.context,
      e ∈ s.edges ∧ ∀ k, e.target.id.key = .ok k → s.Catches t r.context.budget.next k [e]) :
    s.Replays t r where
  toPart := h
  roots hr e he := (hprocess hr e he).1
  near hr d hd := by
    obtain ⟨k, _, hk, _⟩ := id hd
    exact (hdataset hr k hk).within hk hd
  beyond hr e he d hd := by
    obtain ⟨k, _, hk, _⟩ := id hd
    exact ((hprocess hr e he).2 k hk).within hk hd
  pairs d into out hd hp ho := by
    cases hd with
    | near hr hd =>
        obtain ⟨k, _, hk, _⟩ := id hd
        obtain ⟨hout, e, he, hkey⟩ := (hdataset hr k hk).met hk hd hp ho
        have recorded (e : Edge) (he : s.Met r r.context.budget r.context.root e ∨ e ∈ []) :
            s.Recorded r e :=
          (he.resolve_right List.not_mem_nil).recorded hr
        exact ⟨recorded out hout, e, recorded e he, hkey⟩
    | @beyond first hr hfirst hd =>
        obtain ⟨k, _, hk, _⟩ := id hd
        obtain ⟨hin, hcatches⟩ := hprocess hr first hfirst
        have hfirst' : first ∈ s.rootEdges r.context := h.mem_rootEdges_iff.mpr ⟨hfirst, hin⟩
        obtain ⟨hout, e, he, hkey⟩ := (hcatches k hk).met hk hd hp ho
        have recorded (e : Edge)
            (he : s.Met r r.context.budget.next first.target e ∨ e ∈ [first]) :
            s.Recorded r e := by
          rcases he with he | he
          · exact he.recorded_beyond hr hfirst'
          · rw [List.mem_singleton.mp he]
            exact .first hr hfirst'
        exact ⟨recorded out hout, e, recorded e he, hkey⟩

end Terrain

end DataLineage
