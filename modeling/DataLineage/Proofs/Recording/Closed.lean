import DataLineage.Proofs.Recording.Held

/-!
# Closed graphs, and the union of two graphs

A lineage graph is closed when both ends of each of its relations have a header. This module says
what keeps a graph closed, and what a union of graphs holds:

* `LineageGraph.Closed`, `LineageGraph.missingEntities_eq_nil` -- a closed graph misses nothing;
* `Recorder.Took.closed` -- calls keep a graph closed, whatever edges they are for: a relation is
  recorded after the headers of its ends, and the second edge of a pair leaves the process of the
  first one;
* `LineageGraph.hasRelation_merge`, `LineageGraph.hasEntity_merge` -- a union has the relations and
  the entities of both graphs;
* `LineageGraph.merge_keeps` -- what new headers and new relations keep, a union keeps.
-/

namespace DataLineage

namespace LineageGraph

/-! ## 1. Closed graphs -/

/-- Is there a header under the key? -/
def Knows (g : LineageGraph) (k : Key) : Prop := ∀ s : Scalar, s.key = k → g.hasEntity s = true

/-- **Both ends of each relation have a header.** -/
def Closed (g : LineageGraph) : Prop :=
  ∀ x ∈ g.relations, g.Knows x.source.key ∧ g.Knows x.target.key

theorem hasEntity_congr (g : LineageGraph) {s t : Scalar} (h : s.key = t.key) :
    g.hasEntity s = g.hasEntity t := by
  simp only [hasEntity, EntityMap.has, Scalar.same_eq, h]

theorem knows_iff {g : LineageGraph} {s : Scalar} : g.Knows s.key ↔ g.hasEntity s = true :=
  ⟨fun h => h s rfl, fun h _ ht => (g.hasEntity_congr ht).trans h⟩

theorem Knows.putEntity {g : LineageGraph} {k : Key} (h : g.Knows k) (id : Scalar)
    (hd : EntityHeader) : (g.putEntity id hd).Knows k := fun s hs => by
  rw [hasEntity_putEntity, h s hs]
  rfl

theorem Closed.putEntity {g : LineageGraph} (h : g.Closed) (id : Scalar) (hd : EntityHeader) :
    (g.putEntity id hd).Closed := fun x hx =>
  ⟨(h x hx).1.putEntity id hd, (h x hx).2.putEntity id hd⟩

/-- A relation between known entities keeps a graph closed. -/
theorem Closed.addRelation {g : LineageGraph} (h : g.Closed) {x : Relation}
    (hs : g.Knows x.source.key) (ht : g.Knows x.target.key) : (g.addRelation x).Closed := by
  intro y hy
  rcases mem_addRelation hy with hy | rfl
  · exact h y hy
  · exact ⟨hs, ht⟩

theorem Closed.empty (guid : Value) (direction : Direction) (depth : Value) :
    (LineageGraph.empty guid direction depth).Closed := fun _ hx => absurd hx List.not_mem_nil

theorem mem_note {seen : List Scalar} {s t : Scalar} (h : t ∈ ends.note seen s) :
    t ∈ seen ∨ t = s := by
  unfold ends.note at h
  split at h
  · exact .inl h
  · simpa using h

/-- The listed ends are ends of relations. -/
theorem mem_ends {g : LineageGraph} {s : Scalar} (h : s ∈ g.ends) :
    ∃ x ∈ g.relations, s = x.source ∨ s = x.target := by
  have step (rs : List Relation) (seen : List Scalar)
      (hs : s ∈ rs.foldl (fun seen r => ends.note (ends.note seen r.source) r.target) seen) :
      s ∈ seen ∨ ∃ x ∈ rs, s = x.source ∨ s = x.target := by
    induction rs generalizing seen with
    | nil => exact .inl hs
    | cons r rest ih =>
        rcases ih _ hs with hs | ⟨x, hx, hs⟩
        · rcases mem_note hs with hs | rfl
          · rcases mem_note hs with hs | rfl
            · exact .inl hs
            · exact .inr ⟨r, List.mem_cons_self, .inl rfl⟩
          · exact .inr ⟨r, List.mem_cons_self, .inr rfl⟩
        · exact .inr ⟨x, List.mem_cons_of_mem _ hx, hs⟩
  exact (step g.relations [] h).resolve_left List.not_mem_nil

/-- **A closed graph misses no entity.** -/
theorem missingEntities_eq_nil {g : LineageGraph} (h : g.Closed) : g.missingEntities = [] := by
  unfold missingEntities
  rw [List.filter_eq_nil_iff]
  intro s hs
  obtain ⟨x, hx, rfl | rfl⟩ := mem_ends hs
  · rw [(h x hx).1 _ rfl]
    exact Bool.false_ne_true
  · rw [(h x hx).2 _ rfl]
    exact Bool.false_ne_true

end LineageGraph

/-! ## 2. Calls keep a graph closed -/

namespace Recorder

variable {r : Recorder} {g g' : LineageGraph}

/-- Entering a vertex makes it known, keeps what was known, and keeps a graph closed. -/
theorem entered_closed {v : Vertex} (h : r.entered v g = .ok g') :
    (∀ k, v.id.key = .ok k → g'.Knows k) ∧ (∀ k, g.Knows k → g'.Knows k) ∧
      (g.Closed → g'.Closed) := by
  obtain ⟨id, hv, ⟨hg, rfl⟩ | ⟨_, hd, _, rfl⟩⟩ := entered_ok h
  · refine ⟨fun k hk => ?_, fun _ h => h, fun h => h⟩
    rw [hv] at hk
    cases hk
    exact LineageGraph.knows_iff.mpr hg
  · refine ⟨fun k hk => ?_, fun k hk => hk.putEntity id hd, fun h => h.putEntity id hd⟩
    rw [hv] at hk
    cases hk
    refine LineageGraph.knows_iff.mpr ?_
    rw [LineageGraph.hasEntity_putEntity, beq_self_eq_true, Bool.or_true]

/-- Recording an edge between known vertices keeps a graph closed. -/
theorem edgeEntered_closed {e : Edge} (h : r.edgeEntered e g = .ok g')
    (hs : ∀ k, e.source.id.key = .ok k → g.Knows k)
    (ht : ∀ k, e.target.id.key = .ok k → g.Knows k) (hg : g.Closed) :
    g'.Closed ∧ ∀ k, g.Knows k → g'.Knows k := by
  rcases edgeEntered_ok h with ⟨_, rfl⟩ | ⟨x, hx, rfl⟩
  · exact ⟨hg, fun _ h => h⟩
  · have known (k : Key) (hk : x.source.key = k ∨ x.target.key = k) : g.Knows k := by
      rcases (relationOf_ends hx k).mp hk with hk | hk
      · exact hs k hk
      · exact ht k hk
    exact ⟨hg.addRelation (known _ (.inl rfl)) (known _ (.inr rfl)), fun _ h => h⟩

theorem singleEntered_closed {e : Edge} (h : r.singleEntered e g = .ok g') (hg : g.Closed) :
    g'.Closed := by
  obtain ⟨g₁, h₁, h⟩ := Outcome.bind_eq_ok.mp h
  obtain ⟨g₂, h₂, h₃⟩ := Outcome.bind_eq_ok.mp h
  obtain ⟨hs, _, hc₁⟩ := entered_closed h₁
  obtain ⟨ht, hk₂, hc₂⟩ := entered_closed h₂
  exact (edgeEntered_closed h₃ (fun k hk => hk₂ k (hs k hk)) ht (hc₂ (hc₁ hg))).1

theorem pairEntered_closed {into out : Edge} (hj : (Call.pair into out).Joined)
    (h : r.pairEntered into out g = .ok g') (hg : g.Closed) : g'.Closed := by
  unfold pairEntered at h
  split at h
  · obtain ⟨g₁, h₁, h⟩ := Outcome.bind_eq_ok.mp h
    obtain ⟨g₂, h₂, h⟩ := Outcome.bind_eq_ok.mp h
    obtain ⟨x, hx, h⟩ := Outcome.bind_eq_ok.mp h
    cases h
    obtain ⟨hi, _, hc₁⟩ := entered_closed h₁
    obtain ⟨ho, hk₂, hc₂⟩ := entered_closed h₂
    have known (k : Key) (hk : x.source.key = k ∨ x.target.key = k) : g₂.Knows k := by
      rcases (relationThrough_ends hx k).mp hk with hk | hk
      · exact hk₂ k (hi k hk)
      · exact ho k hk
    exact (hc₂ (hc₁ hg)).addRelation (known _ (.inl rfl)) (known _ (.inr rfl))
  · obtain ⟨g₁, h₁, h⟩ := Outcome.bind_eq_ok.mp h
    obtain ⟨g₂, h₂, h⟩ := Outcome.bind_eq_ok.mp h
    obtain ⟨g₃, h₃, h⟩ := Outcome.bind_eq_ok.mp h
    obtain ⟨g₄, h₄, h₅⟩ := Outcome.bind_eq_ok.mp h
    obtain ⟨ht, _, hc₁⟩ := entered_closed h₁
    obtain ⟨hp, hk₂, hc₂⟩ := entered_closed h₂
    obtain ⟨ho, hk₃, hc₃⟩ := entered_closed h₃
    obtain ⟨hc₄, hk₄⟩ := edgeEntered_closed h₄ (fun k hk => hk₃ k (hp k hk))
      (fun k hk => hk₃ k (hk₂ k (ht k hk))) (hc₃ (hc₂ (hc₁ hg)))
    -- the second edge leaves the process of the first, which is known
    obtain ⟨p, hpi, hpo⟩ := hj
    refine (edgeEntered_closed h₅ (fun k hk => ?_) (fun k hk => hk₄ k (ho k hk)) hc₄).1
    rw [hpo] at hk
    cases hk
    exact hk₄ p (hk₃ p (hp p hpi))

/-- **Calls keep a graph closed.** -/
theorem Took.closed {cs : List Call} (hT : r.Took cs g g') (hj : ∀ c ∈ cs, c.Joined)
    (hg : g.Closed) : g'.Closed := by
  induction hT with
  | nil g => exact hg
  | @cons c cs g g₁ g₂ skipped h rest ih =>
      refine ih (fun c hc => hj c (List.mem_cons_of_mem _ hc)) ?_
      cases c with
      | edge e =>
          rcases addEdge_ok h with ⟨_, rfl⟩ | ⟨_, rfl⟩ | ⟨_, h⟩
          · exact hg
          · exact hg
          · exact singleEntered_closed h hg
      | pair into out =>
          obtain ⟨_, ⟨_, rfl⟩ | ⟨_, h⟩⟩ := addPair_ok h
          · exact hg
          · exact pairEntered_closed (hj _ List.mem_cons_self) h hg

end Recorder

/-! ## 3. Unions -/

namespace LineageGraph

/-- What new relations keep, recording the relations of a list keeps. -/
theorem addRelations_keeps {P : LineageGraph → Prop} {g : LineageGraph} {rs : List Relation}
    (relation : ∀ g, ∀ x ∈ rs, P g → P (g.addRelation x)) (hg : P g) : P (g.addRelations rs) := by
  unfold addRelations
  induction rs generalizing g with
  | nil => exact hg
  | cons x rest ih =>
      exact ih (fun g x hx => relation g x (List.mem_cons_of_mem _ hx))
        (relation g x List.mem_cons_self hg)

/-- **What new headers and new relations keep, a union keeps.** -/
theorem merge_keeps {P : LineageGraph → Prop} {g other : LineageGraph}
    (entity : ∀ g, ∀ e ∈ other.entities, P g → P (g.putEntity e.1 e.2))
    (relation : ∀ g, ∀ x ∈ other.relations, P g → P (g.addRelation x)) (hg : P g) :
    P (g.merge other) := by
  have entities (es : List (Scalar × EntityHeader)) (he : ∀ e ∈ es, e ∈ other.entities)
      (g : LineageGraph) (hg : P g) : P (es.foldl (fun g e => g.putEntity e.1 e.2) g) := by
    induction es generalizing g with
    | nil => exact hg
    | cons e rest ih =>
        exact ih (fun e he' => he e (List.mem_cons_of_mem _ he')) _
          (entity g e (he e List.mem_cons_self) hg)
  exact addRelations_keeps relation (entities _ (fun _ h => h) g hg)

theorem hasEntity_addRelations (g : LineageGraph) (rs : List Relation) (id : Scalar) :
    (g.addRelations rs).hasEntity id = g.hasEntity id := by
  unfold addRelations
  induction rs generalizing g with
  | nil => rfl
  | cons x rest ih => exact ih (g.addRelation x)

theorem hasEntity_putEntities (g : LineageGraph) (es : List (Scalar × EntityHeader)) (id : Scalar) :
    (es.foldl (fun g e => g.putEntity e.1 e.2) g).hasEntity id =
      (g.hasEntity id || EntityMap.has es id) := by
  induction es generalizing g with
  | nil => simp [EntityMap.has]
  | cons e rest ih =>
      rw [List.foldl_cons, ih, hasEntity_putEntity, Bool.or_assoc]
      simp only [EntityMap.has, List.any_cons, Scalar.same_eq, Bool.beq_comm (a := id.key)]

/-- **A union has the entities of both graphs.** -/
theorem hasEntity_merge (g other : LineageGraph) (id : Scalar) :
    (g.merge other).hasEntity id = (g.hasEntity id || other.hasEntity id) := by
  rw [merge, hasEntity_addRelations, hasEntity_putEntities]
  rfl

/-- Headers leave the relations as they are. -/
theorem relations_putEntities (g : LineageGraph) (es : List (Scalar × EntityHeader)) :
    (es.foldl (fun g e => g.putEntity e.1 e.2) g).relations = g.relations := by
  induction es generalizing g with
  | nil => rfl
  | cons e rest ih => exact ih (g.putEntity e.1 e.2)

theorem hasRelation_addRelations {g : LineageGraph} {rs : List Relation} {x : Relation} :
    (g.addRelations rs).hasRelation x = true ↔
      g.hasRelation x = true ∨ ∃ y ∈ rs, x.same y = true := by
  unfold addRelations
  induction rs generalizing g with
  | nil => simp
  | cons y rest ih =>
      rw [List.foldl_cons, ih, hasRelation_addRelation, or_assoc]
      simp only [List.mem_cons, exists_eq_or_imp]

/-- **A union has the relations of both graphs.** -/
theorem hasRelation_merge {g other : LineageGraph} {x : Relation} :
    (g.merge other).hasRelation x = true ↔
      g.hasRelation x = true ∨ other.hasRelation x = true := by
  rw [merge, hasRelation_addRelations, hasRelation_iff, relations_putEntities,
    ← hasRelation_iff, hasRelation_iff (g := other)]

/-- The union of closed graphs is closed. -/
theorem Closed.merge {g other : LineageGraph} (hg : g.Closed) (ho : other.Closed) :
    (g.merge other).Closed := by
  intro x hx
  have known (y : Relation) (h : g.Knows y.source.key ∧ g.Knows y.target.key ∨
      other.Knows y.source.key ∧ other.Knows y.target.key) :
      (g.merge other).Knows y.source.key ∧ (g.merge other).Knows y.target.key := by
    simp only [knows_iff, hasEntity_merge, Bool.or_eq_true] at h ⊢
    grind
  have hx' : (g.merge other).hasRelation x = true := hasRelation_of_mem hx
  have ends {a : LineageGraph} (ha : a.Closed) (h : a.hasRelation x = true) :
      a.Knows x.source.key ∧ a.Knows x.target.key := by
    obtain ⟨y, hy, hxy⟩ := hasRelation_iff.mp h
    obtain ⟨hs, ht, _⟩ := (Relation.same_iff x y).mp hxy
    rw [hs, ht]
    exact ha y hy
  exact known x ((hasRelation_merge.mp hx').imp (ends hg) (ends ho))

end LineageGraph

end DataLineage
