import DataLineage.Proofs.Recording.Headers

/-!
# Consistent lineage graphs

A call of a recorder can fail half way, and what it has entered by then stays. So what a call keeps
is told of the graph that it leaves behind, whether it fails or not, and whatever edges it is for:

* `LineageGraph.Indexed` -- the ids in use are those that relations carry, so that these are the
  relationships that are contained;
* `LineageGraph.Consistent` -- the ends of relations have headers, no relationship id is there
  twice, and the ids in use are those of the relations;
* `LineageGraph.Extends` -- nothing is lost, and no header is replaced;
* `Recording.Grows` -- **a step leaves a consistent graph that extends the one before**, with a rule
  for each way in which steps are put together;
* `Recorder.addEdge_grows`, `Recorder.addEdges_grows`, `Recorder.addHidden_grows` -- the steps of a
  recorder do, and what they leave when they skip and when they do not.
-/

namespace DataLineage

/-! ## 1. Consistent graphs -/

namespace LineageGraph

variable {joined : Prop} {g g' g'' : LineageGraph} {x : Relation}

/-- A recorded relation carries the relationship id. -/
def Carries (g : LineageGraph) (k : Key) : Prop :=
  ∃ x ∈ g.relations, x.relationshipId ≠ .null ∧ x.relationshipId.key = k

/-- The relationship id of a relation that is there, if it has one, is carried. -/
theorem carries_of_hasRelation (hx : g.hasRelation x = true) (hn : x.relationshipId ≠ .null) :
    g.Carries x.relationshipId.key := by
  obtain ⟨y, hy, hsame⟩ := hasRelation_iff.mp hx
  obtain ⟨_, _, hid, _⟩ := (Relation.same_iff x y).mp hsame
  refine ⟨y, hy, fun hnull => hn ?_, hid.symm⟩
  rw [hnull] at hid
  exact (Scalar.key_eq_null_iff _).mp hid

/-- One more relation carries its id, if it has one, and the others carry theirs. -/
theorem carries_addRelation (g : LineageGraph) (x : Relation) (k : Key) :
    (g.addRelation x).Carries k ↔
      g.Carries k ∨ x.relationshipId ≠ .null ∧ x.relationshipId.key = k := by
  constructor
  · rintro ⟨y, hy, hn, hk⟩
    rcases mem_addRelation hy with hy | rfl
    · exact .inl ⟨y, hy, hn, hk⟩
    · exact .inr ⟨hn, hk⟩
  · rintro (⟨y, hy, hn, hk⟩ | ⟨hn, rfl⟩)
    · exact ⟨y, mem_addRelation_of_mem hy, hn, hk⟩
    · exact carries_of_hasRelation
        (hasRelation_addRelation.mpr (.inr (Relation.same_refl x))) hn

/-- **The ids in use are those that relations carry.** -/
def Indexed (g : LineageGraph) : Prop := ∀ k, g.relationshipIds.contains k = true ↔ g.Carries k

namespace Indexed

theorem empty (guid : Value) (direction : Direction) (depth : Value) :
    (LineageGraph.empty guid direction depth).Indexed := fun k => by
  have hnone : (∅ : Std.HashSet Key).contains k = false := Std.HashSet.contains_empty
  refine ⟨fun h => ?_, fun ⟨_, hx, _⟩ => absurd hx List.not_mem_nil⟩
  exact Bool.noConfusion (hnone.symm.trans h)

theorem addRelation (h : g.Indexed) (x : Relation) : (g.addRelation x).Indexed := fun k => by
  rw [contains_addRelation, carries_addRelation, h k]

/-- **A relationship is contained exactly when a recorded relation carries its id.** -/
theorem contains_iff (h : g.Indexed) (s : Scalar) :
    ∃ b, g.containsRelationship (.scalar s) = .ok b ∧
      (b = true ↔ s ≠ .null ∧ ∃ x ∈ g.relations, x.relationshipId.key = s.key) := by
  obtain ⟨b, hb⟩ := g.containsRelationship_scalar s
  obtain ⟨s', hs, hiff⟩ := containsRelationship_ok hb
  cases hs
  refine ⟨b, hb, hiff.trans (and_congr_right fun hn => (h _).trans ?_)⟩
  constructor
  · rintro ⟨x, hx, _, hk⟩
    exact ⟨x, hx, hk⟩
  · rintro ⟨x, hx, hk⟩
    refine ⟨x, hx, fun hnull => hn ?_, hk⟩
    rw [hnull] at hk
    exact (Scalar.key_eq_null_iff _).mp hk.symm

end Indexed

/-- **The graph is consistent**: no two relations carry the same relationship id, and the ids in use
are those that relations carry. Where pairs of edges are joined, the graph is closed as well. -/
structure Consistent (joined : Prop) (g : LineageGraph) : Prop where
  closed : joined → g.Closed
  once : g.relations.Pairwise fun x y =>
    x.relationshipId ≠ .null → x.relationshipId.key ≠ y.relationshipId.key
  index : ∀ k, g.relationshipIds.contains k = true ↔ g.Carries k

namespace Consistent

theorem empty (joined : Prop) (guid : Value) (direction : Direction) (depth : Value) :
    (LineageGraph.empty guid direction depth).Consistent joined where
  closed _ := .empty guid direction depth
  once := .nil
  index := Indexed.empty guid direction depth

theorem putEntity (h : g.Consistent joined) (id : Scalar) (hd : EntityHeader) :
    (g.putEntity id hd).Consistent joined where
  closed hj := (h.closed hj).putEntity id hd
  once := h.once
  index := h.index

/-- **A relation under a new id, or under none, keeps a graph consistent.** -/
theorem addRelation (h : g.Consistent joined)
    (hends : joined → g.Knows x.source.key ∧ g.Knows x.target.key)
    (hnew : x.relationshipId ≠ .null → ¬g.Carries x.relationshipId.key) :
    (g.addRelation x).Consistent joined := by
  refine ⟨fun hj => (h.closed hj).addRelation (hends hj).1 (hends hj).2, ?_,
    Indexed.addRelation h.index x⟩
  show (if g.hasRelation x then g.relations else g.relations ++ [x]).Pairwise _
  split
  · exact h.once
  · refine List.pairwise_append.mpr ⟨h.once, List.pairwise_singleton _ _, fun y hy z hz hn => ?_⟩
    obtain rfl := List.mem_singleton.mp hz
    intro hkey
    have hz' : z.relationshipId ≠ .null := by
      intro hnull
      rw [hnull] at hkey
      exact hn ((Scalar.key_eq_null_iff _).mp hkey)
    exact hnew hz' ⟨y, hy, hn, hkey⟩

theorem contains_iff (h : g.Consistent joined) (s : Scalar) :
    ∃ b, g.containsRelationship (.scalar s) = .ok b ∧
      (b = true ↔ s ≠ .null ∧ ∃ x ∈ g.relations, x.relationshipId.key = s.key) :=
  Indexed.contains_iff h.index s

end Consistent

end LineageGraph

/-! ## 2. Graphs that grow -/

/-- The header of an entity that has none yet comes last. -/
theorem EntityMap.put_new {es : EntityMap} {id : Scalar} (h : EntityMap.has es id = false)
    (hd : EntityHeader) : EntityMap.put es id hd = es ++ [(id, hd)] := by
  induction es with
  | nil => rfl
  | cons e rest ih =>
      unfold EntityMap.has at h
      rw [List.any_cons, Bool.or_eq_false_iff] at h
      obtain ⟨hother, hrest⟩ := h
      have hne : ¬e.1.key = id.key := by
        rw [← Scalar.same_iff, hother]
        exact Bool.false_ne_true
      unfold EntityMap.put
      rw [if_neg hne, ih hrest]
      rfl

namespace LineageGraph

variable {g g' g'' : LineageGraph}

/-- **Nothing is lost**: entities and relations come behind those that are there. -/
structure Extends (g g' : LineageGraph) : Prop where
  entities : g.entities <+: g'.entities
  relations : g.relations <+: g'.relations

namespace Extends

theorem refl (g : LineageGraph) : g.Extends g := ⟨List.prefix_rfl, List.prefix_rfl⟩

theorem trans (h : g.Extends g') (h' : g'.Extends g'') : g.Extends g'' :=
  ⟨h.entities.trans h'.entities, h.relations.trans h'.relations⟩

theorem putEntity {id : Scalar} (h : g.hasEntity id = false) (hd : EntityHeader) :
    g.Extends (g.putEntity id hd) := by
  refine ⟨?_, List.prefix_rfl⟩
  show g.entities <+: EntityMap.put g.entities id hd
  rw [EntityMap.put_new h]
  exact List.prefix_append _ _

theorem addRelation (g : LineageGraph) (x : Relation) : g.Extends (g.addRelation x) := by
  refine ⟨List.prefix_rfl, ?_⟩
  show g.relations <+: if g.hasRelation x then g.relations else g.relations ++ [x]
  split
  · exact List.prefix_rfl
  · exact List.prefix_append _ _

/-- Every header stays the one that is found. -/
theorem header (h : g.Extends g') {id : Scalar} {hd : EntityHeader}
    (hid : g.entities.get? id = some hd) : g'.entities.get? id = some hd := by
  obtain ⟨more, hmore⟩ := h.entities
  obtain ⟨e, he, rfl⟩ := Option.map_eq_some_iff.mp hid
  rw [← hmore]
  unfold EntityMap.get?
  rw [List.find?_append, he]
  rfl

theorem knows (h : g.Extends g') {k : Key} (hk : g.Knows k) : g'.Knows k := by
  intro s hs
  obtain ⟨hd, hhd⟩ := EntityMap.has_iff.mp (hk s hs)
  exact EntityMap.has_iff.mpr ⟨hd, h.header hhd⟩

theorem hasRelation (h : g.Extends g') {x : Relation} (hx : g.hasRelation x = true) :
    g'.hasRelation x = true := by
  obtain ⟨y, hy, hsame⟩ := hasRelation_iff.mp hx
  exact hasRelation_iff.mpr ⟨y, h.relations.subset hy, hsame⟩

end Extends

end LineageGraph

/-! ## 3. Steps that let graphs grow -/

namespace Recording

variable {α β : Type} {joined : Prop} {g : LineageGraph}

/-- **The step leaves a consistent graph that extends the one before**, whether it fails or not;
where it answers something, the answer and the graph are as told. -/
def Grows (joined : Prop) (x : Recording α) (g : LineageGraph) (Q : α → LineageGraph → Prop) :
    Prop :=
  ∃ result g', x.run.run g = (result, g') ∧ g'.Consistent joined ∧ g.Extends g' ∧
    ∀ a, result = .ok a → Q a g'

namespace Grows

theorem pure (hg : g.Consistent joined) {a : α} {Q : α → LineageGraph → Prop} (hQ : Q a g) :
    Grows joined (pure a) g Q := by
  refine ⟨.ok a, g, rfl, hg, .refl g, fun _ ha => ?_⟩
  cases ha
  exact hQ

/-- A step that enters something. -/
theorem put {f : LineageGraph → LineageGraph} {Q : Unit → LineageGraph → Prop}
    (hf : (f g).Consistent joined) (hext : g.Extends (f g)) (hQ : Q () (f g)) :
    Grows joined (Recording.put f) g Q :=
  ⟨.ok (), f g, rfl, hf, hext, fun _ _ => hQ⟩

/-- **The second of two steps goes on with the graph of the first**, if that does not fail. -/
theorem bind {x : Recording α} {f : α → Recording β} {P : α → LineageGraph → Prop}
    {Q : β → LineageGraph → Prop} (hx : Grows joined x g P)
    (hf : ∀ a g₁, g₁.Consistent joined → g.Extends g₁ → P a g₁ → Grows joined (f a) g₁ Q) :
    Grows joined (x >>= f) g Q := by
  obtain ⟨result, g₁, hrun, hg₁, hext, hP⟩ := hx
  have hbind : (x >>= f).run.run g = match (result, g₁) with
      | (.ok a, g₁) => (f a).run.run g₁
      | (.error e, g₁) => (.error e, g₁) := by
    rw [ExceptT.run_bind, StateT.run_bind, hrun]
    cases result <;> rfl
  cases result with
  | error e => exact ⟨.error e, g₁, hbind, hg₁, hext, nofun⟩
  | ok a =>
      obtain ⟨result', g₂, hrun', hg₂, hext', hQ⟩ := hf a g₁ hg₁ hext (hP a rfl)
      exact ⟨result', g₂, hbind.trans hrun', hg₂, hext.trans hext', hQ⟩

/-- What is worked out without the graph leaves it alone. -/
theorem value_bind (hg : g.Consistent joined) {x : Outcome α} {f : α → Recording β}
    {Q : β → LineageGraph → Prop} (hf : ∀ a, x = .ok a → Grows joined (f a) g Q) :
    Grows joined (MonadExcept.ofExcept x >>= f) g Q := by
  cases x with
  | error e => exact ⟨.error e, g, rfl, hg, .refl g, nofun⟩
  | ok a => exact hf a rfl

theorem mono {x : Recording α} {P Q : α → LineageGraph → Prop} (h : Grows joined x g P)
    (hPQ : ∀ a g', P a g' → Q a g') : Grows joined x g Q := by
  obtain ⟨result, g', hrun, hg', hext, hP⟩ := h
  exact ⟨result, g', hrun, hg', hext, fun a ha => hPQ a g' (hP a ha)⟩

/-- What a step leaves behind. -/
theorem left {x : Recording α} {Q : α → LineageGraph → Prop} (h : Grows joined x g Q) :
    (Recording.left x g).Consistent joined ∧ g.Extends (Recording.left x g) := by
  obtain ⟨result, g', hrun, hg', hext, _⟩ := h
  unfold Recording.left
  rw [hrun]
  exact ⟨hg', hext⟩

/-- What is there after a step that does not fail. -/
theorem on {x : Recording α} {Q : α → LineageGraph → Prop} (h : Grows joined x g Q) {a : α}
    {g' : LineageGraph} (hon : Recording.on x g = .ok (a, g')) : g'.Consistent joined := by
  obtain ⟨result, g₁, hrun, hg₁, _, _⟩ := h
  unfold Recording.on at hon
  rw [hrun] at hon
  cases result with
  | error e => cases hon
  | ok b =>
      cases hon
      exact hg₁

end Grows

end Recording

/-! ## 4. Steps of a recorder -/

namespace Recorder

variable {r : Recorder} {joined : Prop} {g g' g'' : LineageGraph} {e : Edge}

/-- **The edge is represented** in the graph, by its own relation, or by one with the same
relationship id: one that was there before, or that of another edge. -/
def Represents (r : Recorder) (g g' : LineageGraph) (others : List Edge) (e : Edge) : Prop :=
  (∃ x, r.relationOf e = .ok x ∧ g'.hasRelation x = true) ∨
    ∃ x ∈ g'.relations, (x ∈ g.relations ∨ ∃ e' ∈ others, r.relationOf e' = .ok x) ∧
      x.relationshipId ≠ .null ∧ e.relationshipId.key = .ok x.relationshipId.key

theorem Represents.mono {others : List Edge} (h : r.Represents g g' others e)
    (hext : g'.Extends g'') : r.Represents g g'' others e := by
  rcases h with ⟨x, hx, hrecorded⟩ | ⟨x, hx, hfrom, hid⟩
  · exact .inl ⟨x, hx, hext.hasRelation hrecorded⟩
  · exact .inr ⟨x, hext.relations.subset hx, hfrom, hid⟩

theorem Represents.congr {others : List Edge} {g₁ : LineageGraph}
    (h : r.Represents g₁ g' others e) (hrel : g₁.relations = g.relations) :
    r.Represents g g' others e := by
  unfold Represents at h ⊢
  rwa [hrel] at h

/-- Entering the header of a vertex makes it known and records nothing. -/
theorem materialize_grows (r : Recorder) (hg : g.Consistent joined) (v : Vertex) :
    (r.materialize v).Grows joined g fun _ g' =>
      (∀ k, v.id.key = .ok k → g'.Knows k) ∧ g'.relations = g.relations := by
  unfold materialize
  refine .value_bind hg fun id hid => ?_
  have hv : v.id.key = .ok id.key := by
    cases hv : v.id with
    | scalar s =>
        rw [hv] at hid
        cases hid
        rfl
    | list xs => rw [hv] at hid; cases hid
    | set ms => rw [hv] at hid; cases hid
    | record fs => rw [hv] at hid; cases hid
  have hknown (g' : LineageGraph) (h : g'.hasEntity id = true) (k : Key)
      (hk : v.id.key = .ok k) : g'.Knows k := by
    rw [hv] at hk
    cases hk
    exact LineageGraph.knows_iff.mpr h
  show Recording.Grows joined (if (!g.hasEntity id) = true then _ else _) g _
  cases hhas : g.hasEntity id with
  | true => exact .pure hg ⟨hknown g hhas, rfl⟩
  | false =>
      refine .value_bind hg fun hd _ => .put (hg.putEntity id hd) (.putEntity hhas hd) ⟨?_, rfl⟩
      refine hknown _ ?_
      rw [LineageGraph.hasEntity_putEntity, beq_self_eq_true, Bool.or_true]

/-- **Recording an edge** whose ends are known represents it, and records no other one. -/
theorem recordEdge_grows (hg : g.Consistent joined)
    (hknown : joined → (∀ k, e.source.id.key = .ok k → g.Knows k) ∧
      ∀ k, e.target.id.key = .ok k → g.Knows k) :
    (r.recordEdge e).Grows joined g fun _ g' => r.Represents g g' [] e ∧
      ∀ x ∈ g'.relations, x ∈ g.relations ∨ r.relationOf e = .ok x := by
  unfold recordEdge
  show Recording.Grows joined (_ >>= _) g _
  refine .value_bind hg fun known hcontains => ?_
  obtain ⟨s, hs, hiff⟩ := LineageGraph.containsRelationship_ok hcontains
  cases known with
  | true =>
      -- an earlier relation carries the relationship id
      obtain ⟨_, hcarried⟩ := hiff.mp rfl
      obtain ⟨x, hx, hn, hk⟩ := (hg.index _).mp hcarried
      refine .pure hg ⟨.inr ⟨x, hx, .inl hx, hn, ?_⟩, fun _ hx => .inl hx⟩
      rw [hs, hk]
      rfl
  | false =>
      refine .value_bind hg fun x hx => ?_
      have hends (hj : joined) : g.Knows x.source.key ∧ g.Knows x.target.key := by
        have known (k : Key) (hk : x.source.key = k ∨ x.target.key = k) : g.Knows k := by
          rcases (relationOf_ends hx k).mp hk with hk | hk
          · exact (hknown hj).1 k hk
          · exact (hknown hj).2 k hk
        exact ⟨known _ (.inl rfl), known _ (.inr rfl)⟩
      have hid : x.relationshipId = s := by
        obtain ⟨hid, _⟩ := relationOf_ok hx
        exact Value.scalar.inj (hid.symm.trans hs)
      have hnew (hn : x.relationshipId ≠ .null) : ¬g.Carries x.relationshipId.key := by
        rw [hid] at hn ⊢
        exact fun hcarries => Bool.noConfusion (hiff.mpr ⟨hn, (hg.index _).mpr hcarries⟩)
      refine .put (hg.addRelation hends hnew) (.addRelation g x) ⟨.inl ⟨x, hx, ?_⟩, fun y hy => ?_⟩
      · exact LineageGraph.hasRelation_addRelation.mpr (.inr (Relation.same_refl x))
      · rcases LineageGraph.mem_addRelation hy with hy | rfl
        · exact .inl hy
        · exact .inr hx

/-- **A single edge** is left alone where its relationship is known, skipped without a trace, or
recorded between known ends. -/
theorem addEdge_grows (r : Recorder) (hg : g.Consistent joined) (e : Edge) :
    (r.addEdge e).Grows joined g fun skipped g' =>
      (skipped = true → g' = g) ∧ (skipped = false → r.Represents g g' [] e) := by
  unfold addEdge
  show Recording.Grows joined (_ >>= _) g _
  refine .value_bind hg fun known hcontains => ?_
  cases known with
  | true =>
      obtain ⟨s, hs, hiff⟩ := LineageGraph.containsRelationship_ok hcontains
      obtain ⟨_, hcarried⟩ := hiff.mp rfl
      obtain ⟨x, hx, hn, hk⟩ := (hg.index _).mp hcarried
      refine .pure hg ⟨nofun, fun _ => .inr ⟨x, hx, .inl hx, hn, ?_⟩⟩
      rw [hs, hk]
      rfl
  | false =>
      refine .value_bind hg fun opens _ => ?_
      cases opens with
      | false => exact .pure hg ⟨fun _ => rfl, nofun⟩
      | true =>
          refine (r.materialize_grows hg e.source).bind fun _ g₁ hg₁ _ ⟨hsource, hrel₁⟩ => ?_
          refine (r.materialize_grows hg₁ e.target).bind fun _ g₂ hg₂ hext ⟨htarget, hrel₂⟩ => ?_
          have hknown : joined → (∀ k, e.source.id.key = .ok k → g₂.Knows k) ∧
              ∀ k, e.target.id.key = .ok k → g₂.Knows k :=
            fun _ => ⟨fun k hk => hext.knows (hsource k hk), htarget⟩
          refine (recordEdge_grows hg₂ hknown).bind fun _ g₃ hg₃ _ ⟨hrep, _⟩ => ?_
          refine .pure hg₃ ⟨nofun, fun _ => hrep.congr ?_⟩
          rw [hrel₂, hrel₁]

/-- **The two edges of a pair** are skipped without a trace, or recorded one after the other. Where
they leave the same process, its header is there before either of them. -/
theorem addEdges_grows (r : Recorder) (hg : g.Consistent joined) (into out : Edge)
    (hj : joined → into.source.id.key = out.source.id.key) :
    (r.addEdges into out).Grows joined g fun skipped g' => (skipped = true → g' = g) ∧
      (skipped = false → r.Represents g g' [] into ∧ r.Represents g g' [into] out) := by
  unfold addEdges
  refine .value_bind hg fun left _ => .value_bind hg fun right _ => ?_
  generalize (if r.requireBoth = true then left && right else left || right) = opens
  cases opens with
  | false => exact .pure hg ⟨fun _ => rfl, nofun⟩
  | true =>
      refine (r.materialize_grows hg into.target).bind fun _ g₁ hg₁ _ ⟨hleft, hrel₁⟩ => ?_
      refine (r.materialize_grows hg₁ into.source).bind fun _ g₂ hg₂ hext₂ ⟨hprocess, hrel₂⟩ => ?_
      refine (r.materialize_grows hg₂ out.target).bind fun _ g₃ hg₃ hext₃ ⟨hright, hrel₃⟩ => ?_
      have hrel : g₃.relations = g.relations := by rw [hrel₃, hrel₂, hrel₁]
      have hknownInto : joined → (∀ k, into.source.id.key = .ok k → g₃.Knows k) ∧
          ∀ k, into.target.id.key = .ok k → g₃.Knows k :=
        fun _ => ⟨fun k hk => hext₃.knows (hprocess k hk),
          fun k hk => hext₃.knows (hext₂.knows (hleft k hk))⟩
      refine (recordEdge_grows hg₃ hknownInto).bind fun _ g₄ hg₄ hext₄ ⟨hinto, hnew⟩ => ?_
      have hknownOut : joined → (∀ k, out.source.id.key = .ok k → g₄.Knows k) ∧
          ∀ k, out.target.id.key = .ok k → g₄.Knows k :=
        fun h => ⟨fun k hk => hext₄.knows ((hknownInto h).1 k ((hj h).trans hk)),
          fun k hk => hext₄.knows (hright k hk)⟩
      refine (recordEdge_grows hg₄ hknownOut).bind fun _ g₅ hg₅ hext₅ ⟨hout, _⟩ => ?_
      refine .pure hg₅ ⟨nofun, fun _ => ⟨(hinto.mono hext₅).congr hrel, ?_⟩⟩
      -- what stands for the second edge was there before the call, or is the first edge
      rcases hout with hown | ⟨x, hx, hfrom, hid⟩
      · exact .inl hown
      · refine .inr ⟨x, hx, ?_, hid⟩
        rcases hfrom with hfrom | ⟨_, hnone, _⟩
        · rcases hnew x hfrom with hold | hinto
          · exact .inl (hrel ▸ hold)
          · exact .inr ⟨into, List.mem_singleton_self into, hinto⟩
        · exact absurd hnone List.not_mem_nil

/-- **A pair through a hidden process** is skipped without a trace, or recorded between its datasets
under no relationship id. -/
theorem addHidden_grows (r : Recorder) (hg : g.Consistent joined) (into out : Edge) :
    (r.addHidden into out).Grows joined g fun skipped g' => skipped = true → g' = g := by
  unfold addHidden
  refine .value_bind hg fun opens _ => ?_
  cases opens with
  | false => exact .pure hg fun _ => rfl
  | true =>
      refine (r.materialize_grows hg into.target).bind fun _ g₁ hg₁ _ ⟨hinto, _⟩ => ?_
      refine (r.materialize_grows hg₁ out.target).bind fun _ g₂ hg₂ hext ⟨hout, _⟩ => ?_
      refine .value_bind hg₂ fun x hx => ?_
      have known (k : Key) (hk : x.source.key = k ∨ x.target.key = k) : g₂.Knows k := by
        rcases (relationThrough_ends hx k).mp hk with hk | hk
        · exact hext.knows (hinto k hk)
        · exact hout k hk
      have hid : x.relationshipId = .null := (relationThrough_ok hx).1
      have hrecorded : (g₂.addRelation x).Consistent joined :=
        hg₂.addRelation (fun _ => ⟨known _ (.inl rfl), known _ (.inr rfl)⟩) fun hn => absurd hid hn
      exact (Recording.Grows.put (Q := fun _ _ => True) hrecorded (.addRelation g₂ x) trivial).bind
        fun _ g₃ hg₃ _ _ => .pure hg₃ nofun

end Recorder

end DataLineage
