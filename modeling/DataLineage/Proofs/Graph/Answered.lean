import DataLineage.Pattern.Answer
import DataLineage.Proofs.Graph.Listing

/-!
# Which edges an answer graph lists

The graph of answered edges keeps the first edge of each identity and lists these as a graph in
memory would. This module says which edges they are:

* `AnswerGraph.Keeps g es` -- the graph keeps the edges `es`: its index lists them, no two of them
  are known by the same, and it has seen what they are known by and nothing else;
* `AnswerGraph.ofEdges_keeps` -- the graph of a list of edges keeps edges of the list, one for
  each identity in it;
* `AnswerGraph.Keeps.shows` -- access to the graph shows the edges that it keeps;
* `AnswerGraph.ofEdges_isOk` -- edges that can be identified make a graph.
-/

namespace DataLineage

namespace AnswerGraph

/-! ## 1. What is kept -/

/-- **The graph keeps the edges**, in the order in which they were answered first. -/
structure Keeps (g : AnswerGraph) (es : List Edge) : Prop where
  edges : ∀ side vertex label, g.index.edges side vertex label = listed es side vertex label
  keyed : ∀ e ∈ es, ∃ k, e.keys = .ok k
  seen : ∀ k, g.seen.contains k = true ↔ ∃ e ∈ es, e.answerKey = .ok k
  distinct : es.Pairwise fun a b => a.answerKey ≠ b.answerKey
  targets : ∀ e ∈ es, ∀ k, e.target.id.key = .ok k → k ∈ g.vertices.map Prod.fst

theorem Keeps.empty : Keeps .empty [] where
  edges side vertex label := EdgeIndex.edges_empty side vertex label
  keyed _ he := absurd he List.not_mem_nil
  seen k := by simp [AnswerGraph.empty]
  distinct := .nil
  targets _ he := absurd he List.not_mem_nil

theorem mem_of_lookup {vertices : List (Key × Vertex)} {k : Key}
    (h : (vertices.lookup k).isSome = true) : k ∈ vertices.map Prod.fst := by
  induction vertices with
  | nil => cases h
  | cons p rest ih =>
      rw [List.lookup_cons] at h
      rw [List.map_cons, List.mem_cons]
      by_cases hk : k = p.1
      · exact .inl hk
      · rw [beq_eq_false_iff_ne.mpr hk] at h
        exact .inr (ih h)

/-- After a vertex is entered its key is there, and so is every other that was. -/
theorem mem_putVertex (vertices : List (Key × Vertex)) (key : Key) (v : Vertex) :
    key ∈ (putVertex vertices key v).map Prod.fst ∧
      ∀ k ∈ vertices.map Prod.fst, k ∈ (putVertex vertices key v).map Prod.fst := by
  unfold putVertex
  split
  · rename_i h
    exact ⟨mem_of_lookup h, fun _ hk => hk⟩
  · rw [List.map_append]
    exact ⟨List.mem_append_right _ (List.mem_singleton.mpr rfl),
      fun _ hk => List.mem_append_left _ hk⟩

/-- **One more answered edge** is known already, and then nothing changes, or is kept. -/
theorem add_ok {g g' : AnswerGraph} {e : Edge} (h : g.add e = .ok g') :
    ∃ key, e.answerKey = .ok key ∧ ((g.seen.contains key = true ∧ g' = g) ∨
      (g.seen.contains key = false ∧ ∃ k, e.keys = .ok k ∧
        g'.seen = g.seen.insert key ∧ g'.index = g.index.add k e ∧
        g'.vertices = putVertex (putVertex g.vertices k.source e.source) k.target e.target)) := by
  obtain ⟨key, hkey, h⟩ := Outcome.bind_eq_ok.mp h
  refine ⟨key, hkey, ?_⟩
  cases hs : g.seen.contains key with
  | true =>
      rw [hs] at h
      cases h
      exact .inl ⟨rfl, rfl⟩
  | false =>
      rw [hs] at h
      obtain ⟨k, hk, h⟩ := Outcome.bind_eq_ok.mp h
      cases h
      exact .inr ⟨rfl, k, hk, rfl, rfl, rfl⟩

theorem Keeps.add {g g' : AnswerGraph} {es : List Edge} {e : Edge} (h : g.Keeps es)
    (ha : g.add e = .ok g') :
    ∃ key, e.answerKey = .ok key ∧ ((g'.Keeps es ∧ ∃ e' ∈ es, e'.answerKey = .ok key) ∨
      g'.Keeps (es ++ [e])) := by
  obtain ⟨key, hkey, ⟨hs, rfl⟩ | ⟨hs, k, hk, hseen, hindex, hvertices⟩⟩ := add_ok ha
  · exact ⟨key, hkey, .inl ⟨h, (h.seen key).mp hs⟩⟩
  · refine ⟨key, hkey, .inr ⟨fun side vertex label => ?_, fun x hx => ?_, fun x => ?_, ?_,
      fun x hx kx hkx => ?_⟩⟩
    · rw [hindex, EdgeIndex.edges_add, h.edges, listed_concat hk]
    · rcases List.mem_append.mp hx with hx | hx
      · exact h.keyed x hx
      · rw [List.mem_singleton.mp hx]
        exact ⟨k, hk⟩
    · rw [hseen, Std.HashSet.contains_insert, Bool.or_eq_true, beq_iff_eq, h.seen]
      simp only [List.mem_append, List.mem_singleton, or_and_right, exists_or, exists_eq_left,
        hkey, Except.ok.injEq]
      exact Or.comm
    · refine List.pairwise_append.mpr ⟨h.distinct, List.pairwise_singleton _ _, fun a ha b hb => ?_⟩
      rw [List.mem_singleton.mp hb, hkey]
      intro hab
      have : g.seen.contains key = true := (h.seen key).mpr ⟨a, ha, hab⟩
      rw [hs] at this
      cases this
    · obtain ⟨ht, hkeep⟩ :=
        mem_putVertex (putVertex g.vertices k.source e.source) k.target e.target
      rw [hvertices]
      rcases List.mem_append.mp hx with hx | hx
      · exact hkeep _ ((mem_putVertex g.vertices k.source e.source).2 _ (h.targets x hx kx hkx))
      · rw [List.mem_singleton.mp hx] at hkx
        have hkt : e.target.id.key = .ok k.target := EdgeKeys.endAt_key hk .incoming
        rw [hkx] at hkt
        cases hkt
        exact ht

/-- **The graph of a list keeps edges of the list, one for each identity in it.** -/
theorem ofEdges_keeps {edges : List Edge} {g : AnswerGraph} (h : ofEdges edges = .ok g) :
    ∃ es, g.Keeps es ∧ (∀ e ∈ es, e ∈ edges) ∧
      ∀ e ∈ edges, ∃ e' ∈ es, ∃ key, e.answerKey = .ok key ∧ e'.answerKey = .ok key := by
  have fold (edges : List Edge) (g₀ : AnswerGraph) (es₀ : List Edge) (h₀ : g₀.Keeps es₀)
      (h : edges.foldlM add g₀ = .ok g) :
      ∃ es, g.Keeps es ∧ (∀ e ∈ es, e ∈ es₀ ∨ e ∈ edges) ∧ (∀ e ∈ es₀, e ∈ es) ∧
        ∀ e ∈ edges, ∃ e' ∈ es, ∃ key, e.answerKey = .ok key ∧ e'.answerKey = .ok key := by
    induction edges generalizing g₀ es₀ with
    | nil =>
        cases h
        exact ⟨es₀, h₀, fun _ he => .inl he, fun _ he => he, fun _ he => absurd he List.not_mem_nil⟩
    | cons e rest ih =>
        rw [List.foldlM_cons] at h
        obtain ⟨g₁, h₁, h⟩ := Outcome.bind_eq_ok.mp h
        obtain ⟨key, hkey, ⟨hk, e', he', hke'⟩ | hk⟩ := h₀.add h₁
        · obtain ⟨es, hes, hsub, hsup, hrep⟩ := ih g₁ es₀ hk h
          refine ⟨es, hes, fun x hx => (hsub x hx).imp_right (List.mem_cons_of_mem _), hsup,
            fun x hx => ?_⟩
          rcases List.mem_cons.mp hx with rfl | hx
          · exact ⟨e', hsup e' he', key, hkey, hke'⟩
          · exact hrep x hx
        · obtain ⟨es, hes, hsub, hsup, hrep⟩ := ih g₁ (es₀ ++ [e]) hk h
          refine ⟨es, hes, fun x hx => ?_, fun x hx => hsup x (List.mem_append_left _ hx),
            fun x hx => ?_⟩
          · rcases hsub x hx with hx | hx
            · rcases List.mem_append.mp hx with hx | hx
              · exact .inl hx
              · rw [List.mem_singleton.mp hx]
                exact .inr List.mem_cons_self
            · exact .inr (List.mem_cons_of_mem _ hx)
          · rcases List.mem_cons.mp hx with rfl | hx
            · exact ⟨x, hsup x (List.mem_append_right _ (List.mem_singleton.mpr rfl)), key, hkey,
                hkey⟩
            · exact hrep x hx
  obtain ⟨es, hes, hsub, _, hrep⟩ := fold edges _ [] .empty h
  exact ⟨es, hes, fun e he => (hsub e he).resolve_left List.not_mem_nil, hrep⟩

/-! ## 2. Access -/

/-- **Access to an answer graph shows the edges that it keeps.** -/
theorem Keeps.shows {g : AnswerGraph} {es : List Edge} (h : g.Keeps es) : g.access.Shows es where
  edges v side label := by
    simp only [access, AnswerGraph.edges, h.edges]
  keyed := h.keyed
  bounded := ⟨g.vertices.map Prod.fst, Nat.le_of_eq (List.length_map _), h.targets⟩

/-- **Edges that can be identified make a graph.** -/
theorem ofEdges_isOk {edges : List Edge} (hk : ∀ e ∈ edges, ∃ k, e.keys = .ok k)
    (hr : ∀ e ∈ edges, ∃ s, e.relationshipId = .scalar s) : ∃ g, ofEdges edges = .ok g := by
  have one (g : AnswerGraph) (e : Edge) (he : e ∈ edges) : ∃ g', g.add e = .ok g' := by
    obtain ⟨k, hk⟩ := hk e he
    obtain ⟨s, hs⟩ := hr e he
    have hkey : ∃ key, e.answerKey = .ok key := by
      unfold Edge.answerKey
      rw [hs, hk]
      split <;> exact ⟨_, rfl⟩
    obtain ⟨key, hkey⟩ := hkey
    unfold add
    rw [hkey, hk, Outcome.ok_bind]
    split <;> exact ⟨_, rfl⟩
  exact Outcome.foldlM_isOk one empty

end AnswerGraph

end DataLineage
