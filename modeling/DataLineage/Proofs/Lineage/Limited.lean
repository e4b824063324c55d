import DataLineage.Proofs.Lineage.Connected
import DataLineage.Proofs.Request.Admitted

/-!
# Vertex budgets, and lineages both ways

How many vertices a request expands is known without a walk: it is counted over the hops that the
recorder does not skip. A limit below that number makes the request fail, and any other limit
changes nothing. A lineage both ways is the union of the lineages in either direction.

* `Terrain.Spread` -- the datasets to which fewer hops lead than the depth says;
* `Terrain.expansions` -- **how many vertices a walk of that depth expands**;
* `Context.facing`, `Walker.walk_facing` -- a walk does not ask for which direction the request is;
* `Walker.traverse_limited` -- what a limit does to a lineage;
* `Walker.traverse_both` -- a lineage both ways, made of two others;
* `Service.resolve_limited` -- **both for a resolved request**.
-/

namespace DataLineage

/-! ## 1. How many vertices are expanded -/

namespace Terrain

variable {t : Terrain} {r : Recorder} {n spare : Nat}

/-- **The datasets to which fewer than `n` hops lead**, or any number of hops if `n` is 0; `spare`
of the hops are not available. A hop is a pair that the recorder does not skip. -/
def Spread (t : Terrain) (r : Recorder) (n spare : Nat) (v : Vertex) : Set Key :=
  {d | ∃ start j, v.id.key = .ok start ∧ (n = 0 ∨ j + spare < n) ∧ ReachesIn (t.Hop r) j start d}

/-- **How many vertices a walk of depth `n` expands**: what is within the depth of a dataset, or for
a process, what is within one hop less of each dataset next to it. -/
noncomputable def expansions (t : Terrain) (r : Recorder) (n : Nat) : Nat :=
  if r.context.isDataset then (t.Spread r n 0 r.context.root).ncard
  else ((t.rootEdges r.context).map fun e => (t.Spread r n 1 e.target).ncard).sum

/-- So the number counts something: a graph has finitely many datasets to which hops lead. -/
theorem spread_finite {g : GraphAccess Outcome} (hg : g.Shows t.edges) (v : Vertex) :
    (t.Spread r n spare v).Finite := by
  obtain ⟨ks, _, hks⟩ := hg.bounded
  cases hk : v.id.key with
  | error f =>
      refine Set.finite_empty.subset fun d hd => ?_
      obtain ⟨start, _, hstart, _⟩ := hd
      rw [hk] at hstart
      cases hstart
  | ok k =>
      refine (List.finite_toSet (k :: ks)).subset fun d hd => ?_
      obtain ⟨start, _, hstart, _, hreach⟩ := hd
      obtain rfl : k = start := Except.ok.inj (hk.symm.trans hstart)
      rcases hreach.eq_or_hop with rfl | ⟨c, into, out, hp, _, hd⟩
      · exact List.mem_cons_self
      · exact List.mem_cons_of_mem _ (hks out hp.out_mem _ hd)

/-- What lies within a budget, where the budget is that of a depth. -/
theorem cost_eq {b : HopBudget} (hb : ∀ j, b.Allows j ↔ n = 0 ∨ j + spare < n) (v : Vertex) :
    t.cost r b v = (t.Spread r n spare v).ncard := by
  have hset : {d | t.Within r b v d} = t.Spread r n spare v :=
    Set.ext fun d => exists_congr fun start => exists_congr fun j =>
      and_congr_right fun _ => and_congr_left fun _ => hb j
  unfold cost
  rw [hset]

theorem total_eq (hb : r.context.budget = .ofDepth n) : t.total r = t.expansions r n := by
  have hnear (v : Vertex) : t.cost r r.context.budget v = (t.Spread r n 0 v).ncard :=
    cost_eq (fun j => by rw [hb]; exact HopBudget.allows_ofDepth) v
  have hfar (v : Vertex) : t.cost r r.context.budget.next v = (t.Spread r n 1 v).ncard :=
    cost_eq (fun j => by rw [hb]; exact HopBudget.allows_next_ofDepth) v
  unfold total expansions
  simp only [hnear, hfar]

end Terrain

/-! ## 2. What a walk does not ask for -/

namespace Walker

variable {w : Walker Outcome} {c : Context} {direction : Direction} {x : VertexBudget}

/-- The same walks under a limit of vertices, where 0 is none. -/
def limited (w : Walker Outcome) (m : Nat) : Walker Outcome := { w with maxVertices := .int m }

theorem run_alike (m : Nat) (d : Direction) (backward : Bool) (n : Nat) (s : WalkState) :
    (w.limited m).run ((w.limited m).recorder (c.facing d)) backward n s =
      w.run (w.recorder c) backward n s := by
  induction n generalizing s with
  | zero => rfl
  | succ n ih =>
      rw [run_succ, run_succ]
      refine congrArg _ (funext fun next => ?_)
      match next with
      | none => rfl
      | some (p, key, rest) =>
          refine congrArg (_ >>= ·) (funext fun budget => congrArg (_ >>= ·) (funext fun h => ?_))
          exact ih _

/-- A walk from a process goes over the edges that are listed for its root. -/
theorem walk_listed (hd : c.isDataset = false) :
    w.walk c direction x =
      w.graph.edges c.root .outgoing (if direction == .input then w.taxonomy.labels.inputs
        else w.taxonomy.labels.outputs) >>= fun es =>
          es.foldlM (w.takeRootEdge c (direction == .input))
            (LineageGraph.empty c.guid direction c.requestedDepth, x) := by
  unfold walk
  rw [hd]
  rfl

/-- **A walk asks neither for the limit of the walker nor for the direction of the request**: the
one is in its vertex budget, the other is given to it. -/
theorem walk_alike (m : Nat) (d : Direction) :
    (w.limited m).walk (c.facing d) direction x = w.walk c direction x := by
  have hfrom (backward : Bool) (p : Pending) (x : VertexBudget) (g : LineageGraph) :
      (w.limited m).runFrom ((w.limited m).recorder (c.facing d)) backward p x g =
        w.runFrom (w.recorder c) backward p x g := run_alike m d backward _ _
  cases hd : c.isDataset with
  | true =>
      rw [walk_dataset hd, walk_dataset (show (c.facing d).isDataset = true from hd), hfrom]
      rfl
  | false =>
      have htake : (w.limited m).takeRootEdge (c.facing d) (direction == .input) =
          w.takeRootEdge c (direction == .input) := by
        refine funext fun s => funext fun e => ?_
        rw [takeRootEdge_eq, takeRootEdge_eq]
        refine congrArg (_ >>= ·) (funext fun a => ?_)
        exact congrArg (· >>= _) (hfrom ..)
      rw [walk_listed hd, walk_listed (show (c.facing d).isDataset = false from hd), htake]
      rfl

end Walker

/-! ## 3. What a limit changes -/

/-- **The results by direction**, where no direction is walked twice. -/
theorem walkAll_results {step : Direction → VertexBudget → Outcome (LineageGraph × VertexBudget)}
    {ds : List Direction} {x₀ : VertexBudget} {results : List LineageGraph}
    (h : walkAll step ds x₀ = .ok results) (hds : ds.Nodup) :
    ∃ L : Direction → LineageGraph, results = ds.map L ∧
      ∀ d ∈ ds, ∃ x x', step d x = .ok (L d, x') := by
  have hall := walkAll_ok h
  clear h
  induction hall with
  | nil => exact ⟨fun _ => default, rfl, fun _ hd => absurd hd List.not_mem_nil⟩
  | @cons d l ds ls hd _ ih =>
      obtain ⟨hnew, hds⟩ := List.nodup_cons.mp hds
      obtain ⟨L, rfl, hL⟩ := ih hds
      have hother {d' : Direction} (hd' : d' ∈ ds) : Function.update L d l d' = L d' :=
        Function.update_of_ne (fun heq : d' = d => hnew (heq ▸ hd')) _ _
      refine ⟨Function.update L d l, ?_, fun d' hd' => ?_⟩
      · rw [List.map_cons, Function.update_self]
        exact congrArg _ (List.map_congr_left fun d' hd' => (hother hd').symm)
      · rcases List.mem_cons.mp hd' with rfl | hd'
        · rw [Function.update_self]
          exact hd
        · rw [hother hd']
          exact hL d' hd'

namespace Walker

variable {w : Walker Outcome} {c : Context}

/-- **Every walk of a lineage that was found without a limit**, under any limit. -/
theorem walks_limited {T : Direction → Terrain} {k : Key} {l : LineageGraph}
    (ho : ∀ d, w.Over (d == .input) (T d)) (hk : c.root.id.key = .ok k)
    (h : (w.limited 0).traverse c = .ok l) :
    ∃ L : Direction → LineageGraph, l = c.aggregate (c.direction.walks.map L) ∧
      ∀ d ∈ c.direction.walks, (∃ x x', w.walk c d x = .ok (L d, x')) ∧
        ∀ m n : Nat, (m = 0 ∨ n ≤ m) → w.walk c d ⟨.int m, n⟩ =
          if m = 0 ∨ n + (T d).total (w.recorder c) ≤ m then
            .ok (L d, ⟨.int m, n + (T d).total (w.recorder c)⟩)
          else .error (tooMany m c.guid) := by
  obtain ⟨results, hr, h⟩ := Outcome.bind_eq_ok.mp h
  cases h
  have hnodup : c.direction.walks.Nodup := by cases c.direction <;> decide
  obtain ⟨L, rfl, hL⟩ := walkAll_results hr hnodup
  refine ⟨L, rfl, fun d hd => ?_⟩
  obtain ⟨x, x', hwalk⟩ := hL d hd
  rw [show (w.limited 0).walk c d x = w.walk c d x from walk_alike _ c.direction] at hwalk
  exact ⟨⟨x, x', hwalk⟩, fun m n hn => walk_limited (ho d) hk hwalk hn⟩

/-- **Under a limit a lineage is the same**, or its request fails, when more vertices would have to
be expanded. -/
theorem traverse_limited {T : Direction → Terrain} {k : Key} {l : LineageGraph}
    (ho : ∀ d, w.Over (d == .input) (T d)) (hk : c.root.id.key = .ok k)
    (h : (w.limited 0).traverse c = .ok l) (m : Nat) :
    (w.limited m).traverse c =
      if m = 0 ∨ (c.direction.walks.map fun d => (T d).total (w.recorder c)).sum ≤ m then .ok l
      else .error (tooMany m c.guid) := by
  obtain ⟨L, rfl, hL⟩ := walks_limited ho hk h
  have hstep (d : Direction) (hd : d ∈ c.direction.walks) (n : Nat) (hn : m = 0 ∨ n ≤ m) :
      (w.limited m).walk c d ⟨.int m, n⟩ =
        if m = 0 ∨ n + (T d).total (w.recorder c) ≤ m then
          .ok (L d, ⟨.int m, n + (T d).total (w.recorder c)⟩)
        else .error (tooMany m c.guid) :=
    (walk_alike _ c.direction).trans ((hL d hd).2 m n hn)
  have hall := walkAll_limited L (fun d => (T d).total (w.recorder c)) hstep
    (.inr (Nat.zero_le m) : m = 0 ∨ 0 ≤ m)
  rw [Nat.zero_add] at hall
  show (walkAll ((w.limited m).walk c) c.direction.walks ⟨.int m, 0⟩ >>= _) = _
  rw [hall]
  split <;> rfl

/-! ## 4. Both ways -/

/-- **A lineage both ways is the union of the lineages in either direction**, where the headers of
the one forward win. -/
theorem traverse_both {T : Direction → Terrain} {k : Key} {l : LineageGraph}
    (ho : ∀ d, w.Over (d == .input) (T d)) (hk : c.root.id.key = .ok k)
    (h : (w.limited 0).traverse c = .ok l) (hd : c.direction = .both) :
    ∃ back forth, (w.limited 0).traverse (c.facing .input) = .ok back ∧
      (w.limited 0).traverse (c.facing .output) = .ok forth ∧
      (∀ x, l.hasRelation x = true ↔ back.hasRelation x = true ∨ forth.hasRelation x = true) ∧
      ∀ id, EntityMap.get? l.entities id =
        (EntityMap.get? forth.entities id).or (EntityMap.get? back.entities id) := by
  obtain ⟨L, hl, hL⟩ := walks_limited ho hk h
  rw [hd] at hL
  -- one direction alone is walked as it is walked for both
  have hsingle (d : Direction) (hd : d ∈ Direction.both.walks) (hne : d ≠ .both) :
      (w.limited 0).traverse (c.facing d) = .ok (L d) := by
    refine traverse_single (x := ⟨.int 0, 0 + (T d).total (w.recorder c)⟩) hne ?_
    show (w.limited 0).walk (c.facing d) d ⟨.int 0, 0⟩ = _
    rw [walk_alike]
    exact ((hL d hd).2 0 0 (.inl rfl)).trans (if_pos (.inl rfl))
  have honce (d : Direction) (hd : d ∈ Direction.both.walks) : (L d).entities.Once := by
    obtain ⟨x, x', hwalk⟩ := (hL d hd).1
    exact walk_keeps (P := fun g => g.entities.Once) (ho d) hk hwalk
      (fun _ _ _ _ _ _ _ _ _ hP => hP.put _ _) (fun _ _ hP => hP) .nil
  have hback : Direction.input ∈ Direction.both.walks := by decide
  have hforth : Direction.output ∈ Direction.both.walks := by decide
  refine ⟨L .input, L .output, hsingle _ hback (by decide), hsingle _ hforth (by decide),
    fun x => ?_, fun id => ?_⟩
  · rw [hl, Context.hasRelation_walks, hd]
    simp [Direction.walks]
  · have haggregate : c.aggregate (c.direction.walks.map L) =
        ((LineageGraph.empty c.guid .both c.requestedDepth).merge (L .input)).merge (L .output) := by
      unfold Context.aggregate
      rw [hd]
      rfl
    rw [hl, haggregate, LineageGraph.get?_merge (honce _ hforth),
      LineageGraph.get?_merge (honce _ hback)]
    exact congrArg _ Option.or_none

end Walker

/-! ## 5. Resolved requests -/

namespace Service

/-- The same service under a limit of vertices, where 0 is none. -/
def limited (s : Service Outcome) (m : Nat) : Service Outcome := { s with maxVertices := .int m }

variable {s : Service Outcome} {g : MemoryGraph} {answer : Script → Outcome (List Edge)}
  {req : LineageRequest} {res : Resolution} {n : Nat} {T : Direction → Terrain}

theorem info_walk {m : Nat} {c : Context} (h : req.context s.policy s.graph = .ok c)
    (hnative : s.usesPattern c = false) :
    (s.limited m).info req =
      (s.walker.limited m).traverse c >>= fun lineage => .ok ⟨c, lineage⟩ := by
  have hnative : ¬ (s.limited m).usesPattern c = true := by
    rw [show (s.limited m).usesPattern c = false from hnative]
    exact Bool.false_ne_true
  rw [info_eq (s := s.limited m) h]
  unfold lineageOf
  rw [if_neg hnative]
  rfl

/-- What a limit changes, and what a lineage both ways is made of, where the collections of the
request are read already. -/
theorem info_limited (hg : g.Built) (hs : s.graph = g.accessWith answer)
    (hT : ∀ d, (T d).For g.added.toList s.policy.taxonomy.labels (d == .input))
    (hn : req.depth.wholeNumber? = some (n : Int)) (h : (s.limited 0).info req = .ok res)
    (hnative : s.usesPattern res.context = false) :
    (∀ m, (s.limited m).info req =
      if m = 0 ∨ (res.context.direction.walks.map fun d =>
          (T d).expansions (s.walker.recorder res.context) n).sum ≤ m then .ok res
      else .error (.lineage (.budgetExceeded (.int m)) req.guid)) ∧
    (res.context.direction = .both →
      ∃ back forth, (s.limited 0).info (req.facing .input) = .ok back ∧
        (s.limited 0).info (req.facing .output) = .ok forth ∧
        (∀ x, res.lineage.hasRelation x = true ↔
          back.lineage.hasRelation x = true ∨ forth.lineage.hasRelation x = true) ∧
        ∀ id, EntityMap.get? res.lineage.entities id =
          (EntityMap.get? forth.lineage.entities id).or
            (EntityMap.get? back.lineage.entities id)) := by
  obtain ⟨hc, _⟩ := info_ok h
  obtain ⟨c, l⟩ := res
  have hc : req.context s.policy s.graph = .ok c := hc
  obtain ⟨hfound, hguid, _, _, _, n', hn', hbudget⟩ := LineageRequest.context_ok hc
  rw [hs] at hfound
  obtain ⟨k, _, hk, _⟩ := LineageRequest.root_key hg hfound
  obtain rfl : n' = n := Int.ofNat.inj (Option.some.inj (hn'.symm.trans hn))
  have ho (d : Direction) : s.walker.Over (d == .input) (T d) := by
    refine ⟨?_, (hT d).into, (hT d).out⟩
    rw [(hT d).edges]
    show s.graph.Shows g.added.toList
    rw [hs]
    exact hg.shows answer
  have htotal (d : Direction) : (T d).total (s.walker.recorder c) =
      (T d).expansions (s.walker.recorder c) n' := Terrain.total_eq hbudget
  rw [info_walk hc hnative] at h
  obtain ⟨_, hl, h⟩ := Outcome.bind_eq_ok.mp h
  cases h
  refine ⟨fun m => ?_, fun hboth => ?_⟩
  · rw [info_walk hc hnative, Walker.traverse_limited ho hk hl m, ← hguid]
    simp only [htotal]
    split <;> rfl
  · obtain ⟨back, forth, hback, hforth, hrelations, hentities⟩ :=
      Walker.traverse_both ho hk hl hboth
    have hfacing (d : Direction) {l' : LineageGraph}
        (hl' : (s.walker.limited 0).traverse (c.facing d) = .ok l') :
        (s.limited 0).info (req.facing d) = .ok ⟨c.facing d, l'⟩ := by
      rw [info_walk (LineageRequest.context_facing hc d) hnative, hl', Outcome.ok_bind]
    exact ⟨_, _, hfacing _ hback, hfacing _ hforth, hrelations, hentities⟩

/-- **What a limit of vertices changes, and what a lineage both ways is.** A request that is
resolved without a limit fails under the limit `m`, not 0, exactly when its walks expand more than
`m` vertices together; otherwise the limit changes nothing. In both directions it has the relations
and the entities of the lineages in either one, with the header from the one forward where there
are two. -/
theorem resolve_limited (hg : g.Built) (hs : s.graph = g.accessWith answer)
    (hT : ∀ d, (T d).For g.added.toList s.policy.taxonomy.labels (d == .input))
    (hn : req.depth.wholeNumber? = some (n : Int)) (h : (s.limited 0).resolve req = .ok res)
    (hnative : s.usesPattern res.context = false) :
    (∀ m, (s.limited m).resolve req =
      if m = 0 ∨ (res.context.direction.walks.map fun d =>
          (T d).expansions (s.walker.recorder res.context) n).sum ≤ m then .ok res
      else .error (.lineage (.budgetExceeded (.int m)) req.guid)) ∧
    (res.context.direction = .both →
      ∃ back forth, (s.limited 0).resolve (req.facing .input) = .ok back ∧
        (s.limited 0).resolve (req.facing .output) = .ok forth ∧
        (∀ x, res.lineage.hasRelation x = true ↔
          back.lineage.hasRelation x = true ∨ forth.lineage.hasRelation x = true) ∧
        ∀ id, EntityMap.get? res.lineage.entities id =
          (EntityMap.get? forth.lineage.entities id).or
            (EntityMap.get? back.lineage.entities id)) := by
  rw [resolve_eq] at h
  obtain ⟨req', hcollected, h⟩ := Outcome.bind_eq_ok.mp h
  obtain ⟨hguid, hdepth, hfacing⟩ := LineageRequest.collected_ok hcollected
  rw [← hdepth] at hn
  obtain ⟨hlimit, hboth⟩ := info_limited hg hs hT hn h hnative
  simp only [resolve_eq, hcollected, hfacing, Outcome.ok_bind, ← hguid]
  exact ⟨hlimit, hboth⟩

end Service

/-! ## 6. Around the loop -/

namespace Loop

/-- A service that walks over the catalogue. -/
def walking : Service Outcome := ⟨graph.access, policy, false, false, .int 0⟩

/-- The request for all that flows into `y` or out of it. -/
def bothWays : LineageRequest := request.facing .both

/-- The labels for a direction, with the edges of the catalogue. -/
def terrains (d : Direction) : Terrain :=
  if d = .input then ⟨edges, .text "writes", .text "reads"⟩ else terrain

theorem terrains_for (d : Direction) :
    (terrains d).For graph.added.toList taxonomy.labels (d == .input) := by
  cases d <;> exact ⟨rfl, rfl, rfl⟩

/-- The direction of the resolved request under a limit of vertices, or its fault. -/
def directionUnder (m : Nat) : Outcome Direction :=
  ((walking.limited m).resolve bothWays).map fun res => res.context.direction

theorem directionUnder_zero : directionUnder 0 = .ok .both := by
  unfold directionUnder walking MemoryGraph.access
  rw [accessWith_eq]
  cbv

theorem directionUnder_three :
    directionUnder 3 = .error (.lineage (.budgetExceeded (.int 3)) (.text "y")) := by
  unfold directionUnder walking MemoryGraph.access
  rw [accessWith_eq]
  cbv

theorem directionUnder_four : directionUnder 4 = .ok .both := by
  unfold directionUnder walking MemoryGraph.access
  rw [accessWith_eq]
  cbv

end Loop

namespace Service

/-- Around the loop the two walks expand four vertices together: `y` alone one way, and all three
tables the other. -/
theorem resolve_limited_loop :
    Loop.graph.Built ∧ ∃ res, (Loop.walking.limited 0).resolve Loop.bothWays = .ok res ∧
      (res.context.direction.walks.map fun d =>
        (Loop.terrains d).expansions (Loop.walking.walker.recorder res.context) 0).sum = 4 ∧
      (∀ m, (Loop.walking.limited m).resolve Loop.bothWays =
        if m = 0 ∨ 4 ≤ m then .ok res
        else .error (.lineage (.budgetExceeded (.int m)) (.text "y"))) ∧
      ∃ back forth, (Loop.walking.limited 0).resolve (Loop.bothWays.facing .input) = .ok back ∧
        (Loop.walking.limited 0).resolve (Loop.bothWays.facing .output) = .ok forth ∧
        (∀ x, res.lineage.hasRelation x = true ↔
          back.lineage.hasRelation x = true ∨ forth.lineage.hasRelation x = true) ∧
        ∀ id, EntityMap.get? res.lineage.entities id =
          (EntityMap.get? forth.lineage.entities id).or
            (EntityMap.get? back.lineage.entities id) := by
  obtain ⟨res, hres, hdirection⟩ := Outcome.map_eq_ok Loop.directionUnder_zero
  obtain ⟨hlimit, hboth⟩ := resolve_limited (n := 0) Loop.seeded.built rfl Loop.terrains_for rfl
    hres rfl
  have hsum : (res.context.direction.walks.map fun d =>
      (Loop.terrains d).expansions (Loop.walking.walker.recorder res.context) 0).sum = 4 := by
    have hthree := Loop.directionUnder_three
    have hfour := Loop.directionUnder_four
    unfold Loop.directionUnder at hthree hfour
    rw [hlimit] at hthree hfour
    split at hthree
    · cases hthree
    split at hfour
    · omega
    · cases hfour
  refine ⟨Loop.seeded.built, res, hres, hsum, fun m => ?_, hboth hdirection⟩
  rw [hlimit m, hsum]
  rfl

end Service

end DataLineage
