import DataLineage.Recorder

/-!
# What one step of recording does

The steps of a recorder run in a monad that carries the lineage graph. Here each of them is written
as a function from the graph before to the graph after, so that nothing later has to look into the
monad:

* `Recorder.entered`, `Recorder.edgeEntered`, `Recorder.pairEntered` -- the graph with one more
  header, with the relation of an edge, with all that an open pair leaves in it;
* `Recorder.opensPair` -- the decision about a pair, which looks at the request alone;
* `Recorder.on_addPair`, `Recorder.on_addEdge` -- a step answers the decision, and enters
  everything or nothing.

What the graph holds afterwards is told by `LineageGraph.hasRelation_addRelation`,
`LineageGraph.contains_addRelation` and `Recorder.entered_ok`.
-/

namespace DataLineage

/-! ## 1. What a lineage graph holds -/

namespace Relation

theorem same_trans {a b c : Relation} (h : a.same b = true) (h' : b.same c = true) :
    a.same c = true := by
  rw [same_iff] at h h' ⊢
  exact ⟨h.1.trans h'.1, h.2.1.trans h'.2.1, h.2.2.1.trans h'.2.2.1, h.2.2.2.trans h'.2.2.2⟩

/-- A relation between values is made of their scalars. -/
theorem ofValues_ok {source target relationshipId processId : Value} {x : Relation} :
    ofValues source target relationshipId processId = .ok x ↔
      source = .scalar x.source ∧ target = .scalar x.target ∧
        relationshipId = .scalar x.relationshipId ∧ processId = .scalar x.processId := by
  have hi (v : Value) (s : Scalar) : v.identifier = .ok s ↔ v = .scalar s := by
    cases v <;> simp [Value.identifier]
  simp only [ofValues, Outcome.bind_eq_ok, hi, pure, Except.pure, Except.ok.injEq]
  constructor
  · intro h
    obtain ⟨s, rfl, t, rfl, i, rfl, p, rfl, rfl⟩ := h
    exact ⟨rfl, rfl, rfl, rfl⟩
  · intro h
    obtain ⟨rfl, rfl, rfl, rfl⟩ := h
    exact ⟨_, rfl, _, rfl, _, rfl, _, rfl, rfl⟩

end Relation

namespace LineageGraph

theorem hasRelation_iff {g : LineageGraph} {x : Relation} :
    g.hasRelation x = true ↔ ∃ y ∈ g.relations, x.same y = true := by
  simp [hasRelation]

theorem hasRelation_of_mem {g : LineageGraph} {x : Relation} (h : x ∈ g.relations) :
    g.hasRelation x = true := hasRelation_iff.mpr ⟨x, h, Relation.same_refl x⟩

/-- **One more relation is recorded, and every other that was.** -/
theorem hasRelation_addRelation {g : LineageGraph} {y x : Relation} :
    (g.addRelation y).hasRelation x = true ↔ g.hasRelation x = true ∨ x.same y = true := by
  rw [hasRelation_iff, hasRelation_iff]
  by_cases hy : g.hasRelation y = true
  · obtain ⟨z, hz, hyz⟩ := hasRelation_iff.mp hy
    simp only [addRelation, hy, if_true]
    refine ⟨.inl, fun h => h.elim id fun hxy => ⟨z, hz, Relation.same_trans hxy hyz⟩⟩
  · simp only [addRelation, if_neg hy, List.mem_append, List.mem_singleton]
    constructor
    · intro h'
      obtain ⟨z, hz | rfl, hxz⟩ := h'
      · exact .inl ⟨z, hz, hxz⟩
      · exact .inr hxz
    · intro h'
      rcases h' with ⟨z, hz, hxz⟩ | hxy
      · exact ⟨z, .inl hz, hxz⟩
      · exact ⟨y, .inr rfl, hxy⟩

/-- A relationship id is in use when a relation with it was entered. -/
theorem contains_addRelation {g : LineageGraph} {y : Relation} {k : Key} :
    (g.addRelation y).relationshipIds.contains k = true ↔
      g.relationshipIds.contains k = true ∨ y.relationshipId ≠ .null ∧ y.relationshipId.key = k := by
  simp only [addRelation, noteId]
  by_cases hn : y.relationshipId = .null
  · simp [hn]
  · simp [hn, or_comm]

/-- Only a scalar is looked up among the relationship ids, and null is none of them. -/
theorem containsRelationship_ok {g : LineageGraph} {id : Value} {b : Bool}
    (h : g.containsRelationship id = .ok b) :
    ∃ s, id = .scalar s ∧ (b = true ↔ s ≠ .null ∧ g.relationshipIds.contains s.key = true) := by
  cases id with
  | scalar s =>
      refine ⟨s, rfl, ?_⟩
      by_cases hs : s = .null
      · subst hs
        cases h
        simp
      · rw [containsRelationship, Value.isNull_scalar hs] at h
        cases h
        simp [hs]
  | list xs => cases h
  | set members => cases h
  | record fs => cases h

theorem containsRelationship_scalar (g : LineageGraph) (s : Scalar) :
    ∃ b, g.containsRelationship (.scalar s) = .ok b := by
  unfold containsRelationship
  split
  · exact ⟨_, rfl⟩
  · exact ⟨_, rfl⟩

end LineageGraph

/-! ## 2. The steps as functions of the graph -/

namespace Recorder

/-- The graph with the header of a vertex, entered unless there is one. -/
def entered (r : Recorder) (v : Vertex) (g : LineageGraph) : Outcome LineageGraph := do
  let id ← v.id.identifier
  if g.hasEntity id then return g
  return g.putEntity id (← r.context.header v)

/-- The graph with the relation of an edge, recorded unless its relationship is. -/
def edgeEntered (r : Recorder) (e : Edge) (g : LineageGraph) : Outcome LineageGraph := do
  if ← g.containsRelationship e.relationshipId then return g
  return g.addRelation (← r.relationOf e)

/-- **All that an open pair leaves in the graph.** -/
def pairEntered (r : Recorder) (into out : Edge) (g : LineageGraph) : Outcome LineageGraph :=
  if r.context.hidesProcesses then do
    let g ← r.entered into.target g
    let g ← r.entered out.target g
    return g.addRelation (← r.relationThrough into out)
  else do
    let g ← r.entered into.target g
    let g ← r.entered into.source g
    let g ← r.entered out.target g
    let g ← r.edgeEntered into g
    r.edgeEntered out g

/-- **Is a pair recorded?** The decision looks at its two datasets alone. -/
def opensPair (r : Recorder) (into out : Edge) : Outcome Bool :=
  if r.context.hidesProcesses then r.opensHidden into out
  else do
    let left ← r.sees into.target
    let right ← r.sees out.target
    return if r.requireBoth then left && right else left || right

variable (r : Recorder)

theorem on_materialize (v : Vertex) (g : LineageGraph) :
    Recording.on (r.materialize v) g = (r.entered v g).map fun g' => ((), g') := by
  unfold materialize entered
  rw [Recording.on_bind, Recording.on_ofExcept]
  cases v.id.identifier with
  | error e => rfl
  | ok id =>
      show Recording.on (get >>= _) g = _
      rw [Recording.on_bind, Recording.on_get]
      show Recording.on (if (!g.hasEntity id) = true then _ else _) g = _
      cases hg : g.hasEntity id with
      | true =>
          simp only [hg, Bool.not_true, Bool.false_eq_true, if_false, Outcome.ok_bind, if_true]
          rfl
      | false =>
          simp only [hg, Bool.not_false, if_true, Outcome.ok_bind, Bool.false_eq_true, if_false]
          rw [Recording.on_bind, Recording.on_ofExcept]
          cases r.context.header v <;> rfl

theorem on_recordEdge (e : Edge) (g : LineageGraph) :
    Recording.on (r.recordEdge e) g = (r.edgeEntered e g).map fun g' => ((), g') := by
  unfold recordEdge edgeEntered
  rw [Recording.on_bind, Recording.on_get]
  show Recording.on (_ >>= _) g = _
  rw [Recording.on_bind, Recording.on_ofExcept]
  cases g.containsRelationship e.relationshipId with
  | error f => rfl
  | ok known =>
      cases known with
      | true => rfl
      | false =>
          show Recording.on (_ >>= _) g = _
          rw [Recording.on_bind, Recording.on_ofExcept]
          cases r.relationOf e <;> rfl

/-- Steps that enter something are chained like the functions that they are. -/
theorem on_then {α : Type} {x : Recording Unit} {f : LineageGraph → Outcome LineageGraph}
    (hx : ∀ g, Recording.on x g = (f g).map fun g' => ((), g')) (y : Recording α)
    (g : LineageGraph) :
    Recording.on (x >>= fun _ => y) g = f g >>= fun g' => Recording.on y g' := by
  rw [Recording.on_bind, hx]
  cases f g <;> rfl

theorem on_addEdges (into out : Edge) (g : LineageGraph)
    (hm : r.context.hidesProcesses = false) :
    Recording.on (r.addEdges into out) g = do
      if ← r.opensPair into out then return (false, ← r.pairEntered into out g)
      return (true, g) := by
  unfold addEdges opensPair pairEntered
  simp only [hm, Bool.false_eq_true, if_false]
  rw [Recording.on_bind, Recording.on_ofExcept]
  cases r.sees into.target with
  | error e => rfl
  | ok left =>
      show Recording.on (_ >>= _) g = _
      rw [Recording.on_bind, Recording.on_ofExcept]
      cases r.sees out.target with
      | error e => rfl
      | ok right =>
          show Recording.on (if _ then _ else _) g = _
          simp only [Outcome.ok_bind, pure, Except.pure]
          generalize (if r.requireBoth = true then left && right else left || right) = opens
          cases opens with
          | true =>
              simp only [if_true, on_then (r.on_materialize _), on_then (r.on_recordEdge _),
                bind_assoc]
              rfl
          | false => rfl

theorem on_addHidden (into out : Edge) (g : LineageGraph)
    (hm : r.context.hidesProcesses = true) :
    Recording.on (r.addHidden into out) g = do
      if ← r.opensPair into out then return (false, ← r.pairEntered into out g)
      return (true, g) := by
  unfold addHidden opensPair pairEntered
  simp only [hm, if_true]
  rw [Recording.on_bind, Recording.on_ofExcept]
  cases r.opensHidden into out with
  | error e => rfl
  | ok b =>
      cases b with
      | false => rfl
      | true =>
          show Recording.on (_ >>= _) g = _
          simp only [on_then (r.on_materialize _), Outcome.ok_bind, if_true, bind_assoc]
          refine congrArg _ (funext fun g₁ => congrArg _ (funext fun g₂ => ?_))
          rw [Recording.on_bind, Recording.on_ofExcept]
          cases r.relationThrough into out <;> rfl

/-- **A pair is decided about by looking at the request, and entered as a whole or not at all.** -/
theorem on_addPair (into out : Edge) (g : LineageGraph) :
    Recording.on (r.addPair into out) g = do
      if ← r.opensPair into out then return (false, ← r.pairEntered into out g)
      return (true, g) := by
  cases hm : r.context.hidesProcesses with
  | true => rw [r.addPair_hidden _ _ hm, r.on_addHidden _ _ _ hm]
  | false => rw [r.addPair_expanded _ _ hm, r.on_addEdges _ _ _ hm]

/-- The graph with a single edge and its two ends. -/
def singleEntered (e : Edge) (g : LineageGraph) : Outcome LineageGraph := do
  let g ← r.entered e.source g
  let g ← r.entered e.target g
  r.edgeEntered e g

/-- **A single edge is left alone where its relationship is known**, and otherwise decided about
like a pair. -/
theorem on_addEdge (e : Edge) (g : LineageGraph) :
    Recording.on (r.addEdge e) g = do
      if ← g.containsRelationship e.relationshipId then return (false, g)
      if ← r.opensEdge e then return (false, ← r.singleEntered e g)
      return (true, g) := by
  unfold addEdge singleEntered
  rw [Recording.on_bind, Recording.on_get]
  show Recording.on (_ >>= _) g = _
  rw [Recording.on_bind, Recording.on_ofExcept]
  cases g.containsRelationship e.relationshipId with
  | error f => rfl
  | ok known =>
      cases known with
      | true => rfl
      | false =>
          show Recording.on (_ >>= _) g = _
          rw [Recording.on_bind, Recording.on_ofExcept]
          cases r.opensEdge e with
          | error f => rfl
          | ok opens =>
              cases opens with
              | false => rfl
              | true =>
                  show Recording.on (_ >>= _) g = _
                  simp only [on_then (r.on_materialize _), on_then (r.on_recordEdge _),
                    Outcome.ok_bind, if_true, bind_assoc]
                  rfl

end Recorder

end DataLineage
