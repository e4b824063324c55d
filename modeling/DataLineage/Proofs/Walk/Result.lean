import DataLineage.Proofs.Walk.Explore

/-!
# What a walk of a request does

A walk of a request starts at its root. From a dataset it goes over what lies within the budget of
the request; a process first gives each edge to a dataset next to it, and from there the walk goes
over what lies within the budget of one hop less. So the calls of a walk are known beforehand:

* `Terrain.Called` -- the calls that the walk of a request makes, `Terrain.Yields` -- the relations
  that they bring in, `Terrain.total` -- how many vertices the walk expands;
* `Walker.walk_ends` -- **a walk makes these calls and no others**, and expands so many vertices, in
  any monad and over edges in any order;
* `Walker.walk_ok`, `Walker.walk_holds`, `Walker.walk_closed` -- what the lineage graph of a walk
  that ends holds, and that it is closed;
* `Walker.walk_isOk`, `Walker.walk_limited` -- when a walk does not fail, and what a vertex budget
  changes.
-/

namespace DataLineage

/-! ## 1. Calls of a walk -/

namespace Terrain

/-- The edges that lead from the root, a process, to the datasets next to it. -/
def rootEdges (t : Terrain) (c : Context) : List Edge :=
  match c.root.id.key with
  | .ok k => listed t.edges .outgoing k t.out
  | .error _ => []

theorem mem_rootEdges {t : Terrain} {c : Context} {e : Edge} :
    e ∈ t.rootEdges c ↔ e ∈ t.edges ∧ e.label.key = .ok t.out ∧
      ∃ k, c.root.id.key = .ok k ∧ e.source.id.key = .ok k := by
  unfold rootEdges
  cases hk : c.root.id.key with
  | error f =>
      refine ⟨fun h => absurd h List.not_mem_nil, fun ⟨_, _, k, h, _⟩ => nomatch h⟩
  | ok k =>
      show e ∈ listed t.edges .outgoing k t.out ↔ _
      rw [mem_listed]
      constructor
      · intro h'
        obtain ⟨hm, hs, hl⟩ := h'
        exact ⟨hm, hl, k, rfl, hs⟩
      · intro h'
        obtain ⟨hm, hl, k', hk', hs⟩ := h'
        cases hk'
        exact ⟨hm, hs, hl⟩

/-- **The calls that the walk of a request makes.** -/
inductive Called (t : Terrain) (r : Recorder) : Call → Prop where
  | dataset {d : Key} {into out : Edge} (hr : r.context.isDataset = true)
      (hd : t.Within r r.context.budget r.context.root d) (hp : t.PairAt d into out) :
      Called t r (.pair into out)
  | first {e : Edge} (hr : r.context.isDataset = false) (he : e ∈ t.rootEdges r.context) :
      Called t r (.edge e)
  | beyond {e : Edge} {d : Key} {into out : Edge} (hr : r.context.isDataset = false)
      (he : e ∈ t.rootEdges r.context) (hd : t.Within r r.context.budget.next e.target d)
      (hp : t.PairAt d into out) : Called t r (.pair into out)

/-- The relations that the walk of a request brings in. -/
def Yields (t : Terrain) (r : Recorder) (x : Relation) : Prop :=
  ∃ call, t.Called r call ∧ r.Yields call x

/-- How many vertices the walk of a request expands. -/
noncomputable def total (t : Terrain) (r : Recorder) : Nat :=
  if r.context.isDataset then t.cost r r.context.budget r.context.root
  else ((t.rootEdges r.context).map fun e => t.cost r r.context.budget.next e.target).sum

theorem Called.edges_mem {t : Terrain} {r : Recorder} {c : Call} (h : t.Called r c) :
    (∀ e ∈ c.edges, e ∈ t.edges) ∧ c.Joined := by
  have pair {d : Key} {into out : Edge} (hp : t.PairAt d into out) :
      (∀ e ∈ (Call.pair into out).edges, e ∈ t.edges) ∧ (Call.pair into out).Joined := by
    refine ⟨fun e he => ?_, hp.joined⟩
    rcases List.mem_cons.mp he with rfl | he
    · exact hp.into_mem
    · exact List.mem_singleton.mp he ▸ hp.out_mem
  cases h with
  | dataset _ _ hp => exact pair hp
  | beyond _ _ _ hp => exact pair hp
  | first _ he =>
      refine ⟨fun e' he' => ?_, trivial⟩
      rw [List.mem_singleton.mp he']
      exact (mem_rootEdges.mp he).1

end Terrain

/-- The calls of a walk from a dataset. -/
theorem Terrain.called_dataset {t : Terrain} {r : Recorder} (hd : r.context.isDataset = true)
    (c : Call) : t.Called r c ↔ t.CallsFrom r r.context.budget r.context.root c := by
  constructor
  · intro hc
    cases hc with
    | dataset _ hw hp => exact ⟨_, hw, _, _, hp, rfl⟩
    | first hr _ => exact absurd (hd.symm.trans hr) (by simp)
    | beyond hr _ _ _ => exact absurd (hd.symm.trans hr) (by simp)
  · rintro ⟨d, hw, into, out, hp, rfl⟩
    exact .dataset hd hw hp

/-- The calls for some edges of the root, and for the pairs beyond them. -/
def Terrain.CallsBeyond (t : Terrain) (r : Recorder) (es : List Edge) (c : Call) : Prop :=
  ∃ e ∈ es, c = .edge e ∨ t.CallsFrom r r.context.budget.next e.target c

/-- How many datasets lie within the budget beyond some edges of the root. -/
noncomputable def Terrain.costBeyond (t : Terrain) (r : Recorder) (es : List Edge) : Nat :=
  (es.map fun e => t.cost r r.context.budget.next e.target).sum

/-- The calls of a walk from a process. -/
theorem Terrain.called_process {t : Terrain} {r : Recorder} (hd : r.context.isDataset = false)
    (c : Call) : t.Called r c ↔ t.CallsBeyond r (t.rootEdges r.context) c := by
  constructor
  · intro hc
    cases hc with
    | dataset hr _ _ => exact absurd (hd.symm.trans hr) (by simp)
    | first _ he => exact ⟨_, he, .inl rfl⟩
    | beyond _ he hw hp => exact ⟨_, he, .inr ⟨_, hw, _, _, hp, rfl⟩⟩
  · rintro ⟨e, he, rfl | ⟨d, hw, into, out, hp, rfl⟩⟩
    · exact .first hd he
    · exact .beyond hd he hw hp

/-! ## 2. What becomes of a walk -/

namespace Walker

variable {t : Terrain} {c : Context} {direction : Direction} {k : Key} {x₀ x : VertexBudget}
  {l : LineageGraph}

section

variable {m : Type → Type} [Monad m] [MonadExceptOf Fault m] {w : Walker m} {O : Outlook m}
  {known : Vertex → Prop}

/-- One edge of the root: it is called for, and then the pairs beyond it. -/
theorem takeRootEdge_ends {backward : Bool} (ho : w.Surveys O known backward t) {e : Edge}
    (he : e ∈ t.edges) (g : LineageGraph) :
    O.ends (w.takeRootEdge c backward (g, x₀) e) ((w.recorder c).Goes
      (fun call => call = .edge e ∨ t.CallsFrom (w.recorder c) c.budget.next e.target call)
      (t.cost (w.recorder c) c.budget.next e.target) g x₀) := by
  obtain ⟨d, hd⟩ := ho.end_key he .incoming
  refine O.ofExcept_bind (fun a ha => ?_) fun f hf => .inl ⟨.edge e, .inl rfl, g, hf⟩
  obtain ⟨skipped, g₁⟩ := a
  have hfirst : (w.recorder c).Goes (fun call => call = .edge e) 0 g x₀ (.ok (g₁, x₀)) :=
    ⟨⟨[.edge e], .cons ha (.nil g₁), fun call => List.mem_singleton⟩, rfl⟩
  have hall {o : Outcome (LineageGraph × VertexBudget)} (h : (w.recorder c).Goes
      (t.CallsFrom (w.recorder c) c.budget.next e.target)
      (t.cost (w.recorder c) c.budget.next e.target) g₁ x₀ o) :=
    (hfirst.append h).congr (fun _ => Iff.rfl) (Nat.zero_add _)
  exact O.bind (runFrom_ends ho (ho.ends e he .incoming) hd _ _ _) (fun s hs => O.pure (hall hs))
    fun f hf => hall hf

/-- The edges of the root, one after the other. -/
theorem takeRootEdges_ends {backward : Bool} (ho : w.Surveys O known backward t) {es : List Edge}
    (hes : ∀ e ∈ es, e ∈ t.edges) (g : LineageGraph) :
    O.ends (es.foldlM (w.takeRootEdge c backward) (g, x₀)) ((w.recorder c).Goes
      (t.CallsBeyond (w.recorder c) es) (t.costBeyond (w.recorder c) es) g x₀) := by
  induction es generalizing g x₀ with
  | nil => exact O.pure ⟨(Recorder.TookAll.none g).congr fun _ => by simp [Terrain.CallsBeyond], rfl⟩
  | cons e rest ih =>
      have hcalls (call : Call) : ((call = .edge e ∨
          t.CallsFrom (w.recorder c) c.budget.next e.target call) ∨
            t.CallsBeyond (w.recorder c) rest call) ↔
              t.CallsBeyond (w.recorder c) (e :: rest) call := by
        simp only [Terrain.CallsBeyond, List.mem_cons, exists_eq_or_imp]
        rfl
      rw [List.foldlM_cons]
      refine O.bind (takeRootEdge_ends ho (hes e List.mem_cons_self) g) ?_ fun f hf =>
        (hf.fault _ _).congr hcalls rfl
      rintro ⟨g₁, x₁⟩ hone
      exact O.imp (ih (fun e he => hes e (List.mem_cons_of_mem _ he)) g₁) fun o hrest =>
        (hone.append hrest).congr hcalls rfl

/-- The label that leads from a process in a direction. -/
theorem hopLabel_key {labels : EdgeLabels}
    (h : (labels.forDirection (direction == .input)).2.key = .ok t.out) :
    (if direction == .input then labels.inputs else labels.outputs).key = .ok t.out := by
  cases direction <;> exact h

/-- **A walk makes its calls and no others**, and expands as many vertices as lie within its
budget, unless a call fails or the vertex budget is exceeded. -/
theorem walk_ends (ho : w.Surveys O known (direction == .input) t) (hknown : known c.root)
    (hk : c.root.id.key = .ok k) :
    O.ends (w.walk c direction x₀) ((w.recorder c).Goes (t.Called (w.recorder c))
      (t.total (w.recorder c)) (.empty c.guid direction c.requestedDepth) x₀) := by
  unfold walk
  cases hd : c.isDataset with
  | true =>
      have hmode : (w.recorder c).context.isDataset = true := hd
      have hall {o : Outcome (LineageGraph × VertexBudget)} (h : (w.recorder c).Goes
          (t.CallsFrom (w.recorder c) c.budget c.root) (t.cost (w.recorder c) c.budget c.root)
          (.empty c.guid direction c.requestedDepth) x₀ o) :=
        h.congr (fun call => (Terrain.called_dataset hmode call).symm)
          (if_pos hmode : t.total (w.recorder c) = _).symm
      have hrun := runFrom_ends (p := ⟨c.root, c.budget⟩) ho hknown hk (w.recorder c) x₀
        (.empty c.guid direction c.requestedDepth)
      exact O.bind hrun (fun s hs => O.pure (hall hs)) fun f hf => hall hf
  | false =>
      have hmode : (w.recorder c).context.isDataset = false := hd
      have hroot : t.rootEdges c = listed t.edges .outgoing k t.out := by
        unfold Terrain.rootEdges
        rw [hk]
      have htotal : t.total (w.recorder c) = t.costBeyond (w.recorder c) (t.rootEdges c) :=
        if_neg (by rw [hmode]; exact Bool.false_ne_true)
      refine O.bind (ho.edges .outgoing hknown hk (hopLabel_key ho.out)) ?_
        fun e ⟨_, he, _⟩ => nomatch he
      rintro es ⟨found, hfound, hperm⟩
      obtain rfl := Except.ok.inj hfound
      rw [← hroot] at hperm
      have hes : ∀ e ∈ es, e ∈ t.edges := fun e he =>
        (Terrain.mem_rootEdges.mp (hperm.mem_iff.mp he)).1
      refine O.imp (takeRootEdges_ends ho hes _) fun o h => h.congr (fun call => ?_) ?_
      · rw [Terrain.called_process hmode]
        exact exists_congr fun e => and_congr hperm.mem_iff Iff.rfl
      · rw [htotal]
        exact (hperm.map _).sum_eq

end

/-! ## 3. What a walk leaves -/

variable {w : Walker Outcome}

/-- A walk over edges in a fixed order. -/
theorem walk_goes (ho : w.Over (direction == .input) t) (hk : c.root.id.key = .ok k)
    (x₀ : VertexBudget) :
    (w.recorder c).Goes (t.Called (w.recorder c)) (t.total (w.recorder c))
      (.empty c.guid direction c.requestedDepth) x₀ (w.walk c direction x₀) :=
  walk_ends ho.surveys trivial hk

/-- **A walk makes its calls and no others**, and expands as many vertices as lie within its
budget. -/
theorem walk_ok (ho : w.Over (direction == .input) t) (hk : c.root.id.key = .ok k)
    (h : w.walk c direction x₀ = .ok (l, x)) :
    (w.recorder c).TookAll (t.Called (w.recorder c))
        (LineageGraph.empty c.guid direction c.requestedDepth) l ∧
      x = ⟨x₀.limit, x₀.expanded + t.total (w.recorder c)⟩ := by
  have hgoes := walk_goes ho hk x₀
  rw [h] at hgoes
  exact ⟨hgoes.1, VertexBudget.charges_ok hgoes.2⟩

/-- **What the lineage graph of a walk holds**: the relations that its calls bring in, with their
ends. -/
theorem walk_holds (ho : w.Over (direction == .input) t) (hk : c.root.id.key = .ok k)
    (hU : UniqueIds t.edges) (h : w.walk c direction x₀ = .ok (l, x)) :
    l.Holds (t.Yields (w.recorder c)) :=
  (walk_ok ho hk h).1.holds (hU.traced ho.shows.keyed) fun _ => Terrain.Called.edges_mem

/-- The lineage graph of a walk is closed. -/
theorem walk_closed (ho : w.Over (direction == .input) t) (hk : c.root.id.key = .ok k)
    (h : w.walk c direction x₀ = .ok (l, x)) : l.Closed := by
  obtain ⟨⟨cs, hT, hcs⟩, _⟩ := walk_ok ho hk h
  exact hT.closed (fun call hc => ((hcs call).mp hc).edges_mem.2) (.empty _ _ _)

/-- **What new headers of the vertices at the edges and new relations keep, a walk keeps.** -/
theorem walk_keeps {P : LineageGraph → Prop} (ho : w.Over (direction == .input) t)
    (hk : c.root.id.key = .ok k) (h : w.walk c direction x₀ = .ok (l, x))
    (entity : ∀ e ∈ t.edges, ∀ v, v = e.source ∨ v = e.target → ∀ g id hd, v.id = .scalar id →
      c.header v = .ok hd → P g → P (g.putEntity id hd))
    (relation : ∀ g y, P g → P (g.addRelation y))
    (hP : P (LineageGraph.empty c.guid direction c.requestedDepth)) : P l := by
  obtain ⟨⟨cs, hT, hcs⟩, _⟩ := walk_ok ho hk h
  refine hT.keeps (fun call hc v hv => ?_) relation hP
  obtain ⟨e, he, hev⟩ := hv
  exact entity e (((hcs call).mp hc).edges_mem.1 e he) v hev

/-- The lineage graph of a walk says which request it answers. -/
theorem walk_about (ho : w.Over (direction == .input) t) (hk : c.root.id.key = .ok k)
    (h : w.walk c direction x₀ = .ok (l, x)) :
    l.guid = c.guid ∧ l.direction = direction ∧ l.depth = c.requestedDepth :=
  (walk_ok ho hk h).1.about

/-! ## 4. When a walk does not fail -/

/-- What has the key of the root is the root, but for what is not a number. -/
theorem isRoot_of_key {v : Vertex} (hk : c.root.id.key = .ok k) (hn : k ≠ .nan)
    (hv : v.id.key = .ok k) : c.isRoot v = true := by
  obtain ⟨s, hs, rfl⟩ := (Value.key_eq_ok_iff _ _).mp hv
  unfold Context.isRoot
  rw [hs, Value.equal_scalar, Bool.and_eq_true, (Value.hasKey_iff _ _).mpr hk, Bool.not_eq_true',
    beq_eq_false_iff_ne]
  exact ⟨hn, rfl⟩

/-- **A walk does not fail** where its edges can be looked at, those of a root that is a process are
open, and no vertex budget is set. -/
theorem walk_isOk (ho : w.Over (direction == .input) t) (hk : c.root.id.key = .ok k)
    (hopen : c.isDataset = false → ∀ e ∈ t.rootEdges c, (w.recorder c).opensEdge e = .ok true)
    (hr : ∀ e ∈ t.edges, (w.recorder c).ReadsEdge e)
    (hx : x₀.limit.truth = false) : ∃ a, w.walk c direction x₀ = .ok a := by
  refine (walk_goes ho hk _).isOk (fun call hc => ?_) hx
  cases hc with
  | dataset _ _ hp => exact pair_not_fails hr hp
  | beyond _ _ _ hp => exact pair_not_fails hr hp
  | @first e hd he =>
      have hread := hr e (Terrain.mem_rootEdges.mp he).1
      refine fun f => (Recorder.edge_passes hread (hopen hd e he)).not_fails (fun e' he' => ?_) f
      exact List.mem_singleton.mp he' ▸ hread.named

/-! ## 5. What a vertex budget changes -/

/-- An edge of the root is called for first, and then a walk starts at its dataset. -/
theorem takeRootEdge_eq (backward : Bool) (g : LineageGraph) (e : Edge) :
    w.takeRootEdge c backward (g, x₀) e =
      Recording.on ((w.recorder c).addEdge e) g >>= fun a =>
        w.runFrom (w.recorder c) backward ⟨e.target, c.budget.next⟩ x₀ a.2 >>= fun s =>
          .ok (s.lineage, s.budget) := by
  show (MonadExcept.ofExcept _ >>= _) = _
  rw [ofExcept_eq]
  rfl

/-- A walk from a dataset is one walk over its terrain. -/
theorem walk_dataset (hd : c.isDataset = true) :
    w.walk c direction x₀ =
      w.runFrom (w.recorder c) (direction == .input) ⟨c.root, c.budget⟩ x₀
          (LineageGraph.empty c.guid direction c.requestedDepth) >>= fun s =>
        .ok (s.lineage, s.budget) := by
  unfold walk
  rw [hd]
  rfl

/-- A walk from a process takes the edges of its root. -/
theorem walk_process (ho : w.Over (direction == .input) t) (hk : c.root.id.key = .ok k)
    (hd : c.isDataset = false) :
    w.walk c direction x₀ = (t.rootEdges c).foldlM (w.takeRootEdge c (direction == .input))
      (LineageGraph.empty c.guid direction c.requestedDepth, x₀) := by
  have he : t.rootEdges c = listed t.edges .outgoing k t.out := by
    unfold Terrain.rootEdges
    rw [hk]
  unfold walk
  rw [hd, he]
  show (w.graph.edges c.root .outgoing _ >>= _) = _
  rw [ho.shows.edges_eq hk (hopLabel_key ho.out)]
  rfl

theorem runFrom_limited {r : Recorder} {backward : Bool} {p : Pending} {g : LineageGraph}
    {s : WalkState} (h : w.runFrom r backward p x₀ g = .ok s) {m n : Nat} (hx : m = 0 ∨ n ≤ m) :
    ∃ i, s.budget = ⟨x₀.limit, x₀.expanded + i⟩ ∧
      w.runFrom r backward p ⟨.int m, n⟩ g =
        if m = 0 ∨ n + i ≤ m then .ok { s with budget := ⟨.int m, n + i⟩ }
        else .error (tooMany m r.context.guid) :=
  run_limited h hx

theorem takeRootEdge_limited {backward : Bool} {e : Edge} {g g' : LineageGraph}
    (h : w.takeRootEdge c backward (g, x₀) e = .ok (g', x)) {m n : Nat} (hx : m = 0 ∨ n ≤ m) :
    ∃ i, x = ⟨x₀.limit, x₀.expanded + i⟩ ∧
      w.takeRootEdge c backward (g, ⟨.int m, n⟩) e =
        if m = 0 ∨ n + i ≤ m then .ok (g', ⟨.int m, n + i⟩) else .error (tooMany m c.guid) := by
  rw [takeRootEdge_eq] at h ⊢
  obtain ⟨⟨skipped, g₁⟩, hg, h⟩ := Outcome.bind_eq_ok.mp h
  obtain ⟨s, hs, h⟩ := Outcome.bind_eq_ok.mp h
  cases h
  obtain ⟨i, hi, hrun⟩ := runFrom_limited hs hx
  refine ⟨i, hi, ?_⟩
  rw [hg, Outcome.ok_bind]
  show (w.runFrom (w.recorder c) backward ⟨e.target, c.budget.next⟩ ⟨.int m, n⟩ g₁ >>= _) = _
  rw [hrun]
  split <;> rfl

theorem takeRootEdges_limited {backward : Bool} {es : List Edge} {g g' : LineageGraph}
    (h : es.foldlM (w.takeRootEdge c backward) (g, x₀) = .ok (g', x)) {m n : Nat}
    (hx : m = 0 ∨ n ≤ m) :
    ∃ i, x = ⟨x₀.limit, x₀.expanded + i⟩ ∧
      es.foldlM (w.takeRootEdge c backward) (g, ⟨.int m, n⟩) =
        if m = 0 ∨ n + i ≤ m then .ok (g', ⟨.int m, n + i⟩) else .error (tooMany m c.guid) := by
  induction es generalizing g x₀ n with
  | nil =>
      cases h
      refine ⟨0, rfl, ?_⟩
      rw [Nat.add_zero, if_pos hx]
      rfl
  | cons e rest ih =>
      rw [List.foldlM_cons] at h ⊢
      obtain ⟨⟨g₁, x₁⟩, h₁, h⟩ := Outcome.bind_eq_ok.mp h
      obtain ⟨i, hi, hone⟩ := takeRootEdge_limited h₁ hx
      by_cases hfits : m = 0 ∨ n + i ≤ m
      · obtain ⟨j, hj, hrest⟩ := ih h hfits
        refine ⟨i + j, by rw [hj, hi, Nat.add_assoc], ?_⟩
        rw [hone, if_pos hfits, Outcome.ok_bind, hrest, Nat.add_assoc]
      · obtain ⟨j, hj, _⟩ := ih (n := 0) h (.inr (Nat.zero_le m))
        refine ⟨i + j, by rw [hj, hi, Nat.add_assoc], ?_⟩
        rw [hone, if_neg hfits, if_neg (by omega)]
        rfl

/-- **With a vertex budget a walk has the same lineage**, or the fault that the budget is
exceeded: whichever it is depends on how many vertices the walk expands. -/
theorem walk_limited (ho : w.Over (direction == .input) t) (hk : c.root.id.key = .ok k)
    (h : w.walk c direction x₀ = .ok (l, x)) {m n : Nat} (hx : m = 0 ∨ n ≤ m) :
    w.walk c direction ⟨.int m, n⟩ =
      if m = 0 ∨ n + t.total (w.recorder c) ≤ m then
        .ok (l, ⟨.int m, n + t.total (w.recorder c)⟩)
      else .error (tooMany m c.guid) := by
  have hlimited : ∃ i, x = ⟨x₀.limit, x₀.expanded + i⟩ ∧ w.walk c direction ⟨.int m, n⟩ =
      if m = 0 ∨ n + i ≤ m then .ok (l, ⟨.int m, n + i⟩) else .error (tooMany m c.guid) := by
    cases hd : c.isDataset with
    | true =>
        rw [walk_dataset hd] at h ⊢
        obtain ⟨s, hs, h⟩ := Outcome.bind_eq_ok.mp h
        cases h
        obtain ⟨i, hi, hrun⟩ := runFrom_limited hs hx
        refine ⟨i, hi, ?_⟩
        rw [hrun]
        split <;> rfl
    | false =>
        rw [walk_process ho hk hd] at h ⊢
        exact takeRootEdges_limited h hx
  obtain ⟨i, hi, hwalk⟩ := hlimited
  -- the vertices that were charged are those that the walk expands
  have hi' : i = t.total (w.recorder c) := by
    have hexp := congrArg VertexBudget.expanded (hi.symm.trans (walk_ok ho hk h).2)
    exact Nat.add_left_cancel hexp
  rw [hwalk, hi']

end Walker

end DataLineage
