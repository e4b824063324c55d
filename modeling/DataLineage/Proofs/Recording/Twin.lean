import DataLineage.Proofs.Lineage.Twin
import DataLineage.Proofs.Recording.Readable

/-!
# Recording for twins

Two recorders, one for vertices with their id among their properties and one for their twins,
decide alike and enter the same entities and relations; the headers differ in the attribute `id`
alone, and only where it was asked for.

* `Recording.Alike` -- steps of recording that go on alike over such lineages;
* `Recorder.Twin.addPair`, `Recorder.Twin.addEdge` -- **the same is recorded**;
* `Call.Twin` -- calls for twins: they bring in the same relations (`Recorder.Twin.yields`), pass
  together (`Recorder.Twin.passes`), and one fails as the other does (`Recorder.Twin.fails`).
-/

namespace DataLineage

/-! ## 1. Alike steps -/

namespace LineageGraph

variable {names : List Scalar}

/-- The lineage without the attribute `id`, where attributes of these names were asked for. -/
def plainFor (names : List Scalar) (l : LineageGraph) : LineageGraph :=
  { l with entities := l.entities.map fun e => (e.1, e.2.plainFor names) }

theorem hasEntity_plainFor (l : LineageGraph) (id : Scalar) :
    (l.plainFor names).hasEntity id = l.hasEntity id := by
  show (l.entities.map _).any _ = l.entities.any _
  rw [List.any_map]
  rfl

theorem putEntity_plainFor (l : LineageGraph) (id : Scalar) (h : EntityHeader) :
    (l.plainFor names).putEntity id (h.plainFor names) = (l.putEntity id h).plainFor names := by
  have hput (entities : EntityMap) :
      EntityMap.put (entities.map fun e => (e.1, e.2.plainFor names)) id (h.plainFor names) =
        (EntityMap.put entities id h).map fun e => (e.1, e.2.plainFor names) := by
    induction entities with
    | nil => rfl
    | cons e rest ih =>
        rw [List.map_cons, EntityMap.put, EntityMap.put]
        split
        · rfl
        · rw [ih, List.map_cons]
  exact congrArg (fun entities => { l with entities }) (hput l.entities)

end LineageGraph

namespace Recording

variable {α β α' β' : Type} {R : α → β → Prop} {S : α' → β' → Prop} {names : List Scalar}

/-- **The steps go on alike** over a lineage and the plain one: with the same fault, or with answers
in the relation and a lineage and its plain one. -/
def Alike (names : List Scalar) (R : α → β → Prop) (x : Recording α) (y : Recording β) : Prop :=
  ∀ l, Outcome.Alike (fun a b => R a.1 b.1 ∧ b.2 = a.2.plainFor names) (on x l)
    (on y (l.plainFor names))

theorem Alike.pure {a : α} {b : β} (h : R a b) : Alike names R (pure a) (pure b) :=
  fun _ => .ok ⟨h, rfl⟩

theorem Alike.ofExcept {x : Outcome α} {y : Outcome β} (h : Outcome.Alike R x y) :
    Alike names R (MonadExcept.ofExcept x) (MonadExcept.ofExcept y) := by
  intro l
  rw [on_ofExcept, on_ofExcept]
  cases h with
  | ok h => exact .ok ⟨h, rfl⟩
  | error e => exact .error e

theorem Alike.get : Alike names (fun l l' => l' = l.plainFor names) get get :=
  fun _ => .ok ⟨rfl, rfl⟩

theorem Alike.put {f f' : LineageGraph → LineageGraph}
    (h : ∀ l, f' (l.plainFor names) = (f l).plainFor names) :
    Alike names Eq (put f) (put f') := fun l => .ok ⟨rfl, h l⟩

/-- **What goes on alike from alike steps is alike.** -/
theorem Alike.bind {x : Recording α} {y : Recording β} {f : α → Recording α'}
    {f' : β → Recording β'} (h : Alike names R x y)
    (hf : ∀ a b, R a b → Alike names S (f a) (f' b)) : Alike names S (x >>= f) (y >>= f') := by
  intro l
  rw [on_bind, on_bind]
  refine (h l).bind fun a b hab => ?_
  rw [hab.2]
  exact hf _ _ hab.1 a.2

/-- What is worked out the same way goes on alike. -/
theorem Alike.ofExcept_bind {f : α → Recording α'} {f' : α → Recording β'} (x : Outcome α)
    (hf : ∀ a, Alike names S (f a) (f' a)) :
    Alike names S (MonadExcept.ofExcept x >>= f) (MonadExcept.ofExcept x >>= f') :=
  (Alike.ofExcept (.refl x)).bind fun a _ hab => hab.1 ▸ hf a

/-- A step without an answer goes on alike. -/
theorem Alike.then {x y : Recording Unit} {f : Unit → Recording α'} {f' : Unit → Recording β'}
    (h : Alike names Eq x y) (hf : Alike names S (f ()) (f' ())) :
    Alike names S (x >>= f) (y >>= f') := h.bind fun _ _ _ => hf

end Recording

/-! ## 2. Decisions -/

/-- **The second recorder is the first one for a twin of the root.** -/
structure Recorder.Twin (r r' : Recorder) : Prop where
  context : r.context.Twin r'.context
  taxonomy : r'.taxonomy = r.taxonomy
  requireBoth : r'.requireBoth = r.requireBoth

/-- Calls for twins. -/
inductive Call.Twin : Call → Call → Prop where
  | pair {into into' out out' : Edge} (hi : into.Twin into') (ho : out.Twin out') :
      Twin (.pair into out) (.pair into' out')
  | edge {e e' : Edge} (h : e.Twin e') : Twin (.edge e) (.edge e')

namespace Recorder.Twin

variable {r r' : Recorder} {v v' : Vertex} {e e' into into' out out' : Edge} {c c' : Call}

theorem hidesProcesses (h : r.Twin r') :
    r'.context.hidesProcesses = r.context.hidesProcesses := by
  rw [h.context.same]
  rfl

theorem attributes (h : r.Twin r') : r'.context.attributes = r.context.attributes := by
  rw [h.context.same]

theorem isDataset (h : r.Twin r') : r'.context.isDataset = r.context.isDataset := by
  rw [h.context.same]

theorem budget (h : r.Twin r') : r'.context.budget = r.context.budget := by
  rw [h.context.same]

theorem sees (h : r.Twin r') (hv : v.Twin v') : r'.sees v' = r.sees v := by
  unfold Recorder.sees
  rw [h.context.isRoot hv, h.context.admits hv]

theorem opensHidden (h : r.Twin r') (hi : into.Twin into') (ho : out.Twin out') :
    r'.opensHidden into' out' = r.opensHidden into out := by
  unfold Recorder.opensHidden
  rw [h.context.admits ho.target, h.sees hi.target]

theorem opensPair (h : r.Twin r') (hi : into.Twin into') (ho : out.Twin out') :
    r'.opensPair into' out' = r.opensPair into out := by
  unfold Recorder.opensPair
  rw [h.hidesProcesses, h.opensHidden hi ho, h.sees hi.target, h.sees ho.target, h.requireBoth]

theorem justifies (h : r.Twin r') (hv : v.Twin v') : r'.justifies v' = r.justifies v := by
  unfold Recorder.justifies
  rw [h.context.isRoot hv, h.context.admits hv, h.taxonomy, hv.typeName]

theorem opensEdge (h : r.Twin r') (he : e.Twin e') : r'.opensEdge e' = r.opensEdge e := by
  unfold Recorder.opensEdge
  rw [h.justifies he.source, h.justifies he.target]

/-- **The same calls are open.** -/
theorem opens (h : r.Twin r') (hc : c.Twin c') : r'.opens c' = r.opens c := by
  cases hc with
  | pair hi ho => exact h.opensPair hi ho
  | edge he => exact h.opensEdge he

theorem relationOf (h : r.Twin r') (he : e.Twin e') : r'.relationOf e' = r.relationOf e := by
  unfold Recorder.relationOf Recorder.isInput
  rw [h.taxonomy, he.label, he.source.id, he.target.id, he.relationshipId]

theorem relationThrough (h : r.Twin r') (hi : into.Twin into') (ho : out.Twin out') :
    r'.relationThrough into' out' = r.relationThrough into out := by
  unfold Recorder.relationThrough Recorder.isInput
  rw [h.taxonomy, hi.label, hi.target.id, ho.target.id, ho.source.id]

/-- **The same relations are brought in.** -/
theorem yields (h : r.Twin r') (hc : c.Twin c') (x : Relation) :
    r'.Yields c' x ↔ r.Yields c x := by
  cases hc with
  | @pair into into' out out' hi ho =>
      have hpair : r'.PairYields into' out' x ↔ r.PairYields into out x := by
        unfold Recorder.PairYields
        rw [h.hidesProcesses, h.relationThrough hi ho, h.relationOf hi, h.relationOf ho]
      show r'.opensPair into' out' = .ok true ∧ _ ↔ r.opensPair into out = .ok true ∧ _
      rw [h.opensPair hi ho, hpair]
  | @edge e e' he =>
      show r'.opensEdge e' = .ok true ∧ r'.relationOf e' = .ok x ↔
        r.opensEdge e = .ok true ∧ r.relationOf e = .ok x
      rw [h.opensEdge he, h.relationOf he]

open Recording

/-- **An entity** is entered under a header that differs in the attribute `id` alone. -/
theorem materialize (h : r.Twin r') (hv : v.Twin v') :
    Alike r.context.attributes Eq (r.materialize v) (r'.materialize v') := by
  unfold Recorder.materialize
  rw [hv.id]
  refine .ofExcept_bind _ fun id => Alike.get.bind fun l l' hl => ?_
  rw [hl, LineageGraph.hasEntity_plainFor]
  split
  · have hheader : Outcome.Alike (fun hd hd' => hd' = hd.plainFor r.context.attributes)
        (r.context.header v) (r'.context.header v') := by
      rw [h.context.header hv]
      cases r.context.header v with
      | ok hd => exact .ok rfl
      | error e => exact .error e
    refine (Alike.ofExcept hheader).bind fun hd hd' hh => .put fun l => ?_
    rw [hh, LineageGraph.putEntity_plainFor]
  · exact .pure rfl

theorem recordEdge (h : r.Twin r') (he : e.Twin e') :
    Alike r.context.attributes Eq (r.recordEdge e) (r'.recordEdge e') := by
  unfold Recorder.recordEdge
  rw [h.relationOf he, he.relationshipId]
  refine Alike.get.bind fun l l' hl => ?_
  rw [show l'.containsRelationship e.relationshipId = l.containsRelationship e.relationshipId from
    hl ▸ rfl]
  refine .ofExcept_bind _ fun known => ?_
  cases known with
  | true => exact .pure rfl
  | false => exact .ofExcept_bind (r.relationOf e) fun relation => .put fun l => rfl

theorem addEdges (h : r.Twin r') (hi : into.Twin into') (ho : out.Twin out') :
    Alike r.context.attributes Eq (r.addEdges into out) (r'.addEdges into' out') := by
  unfold Recorder.addEdges
  rw [h.sees hi.target, h.sees ho.target, h.requireBoth]
  refine .ofExcept_bind _ fun left => .ofExcept_bind _ fun right => ?_
  generalize (if r.requireBoth = true then left && right else left || right) = opens
  cases opens with
  | true =>
      refine .then (h.materialize hi.target) ?_
      refine .then (h.materialize hi.source) ?_
      refine .then (h.materialize ho.target) ?_
      refine .then (h.recordEdge hi) ?_
      exact .then (h.recordEdge ho) (.pure rfl)
  | false => exact .pure rfl

theorem addHidden (h : r.Twin r') (hi : into.Twin into') (ho : out.Twin out') :
    Alike r.context.attributes Eq (r.addHidden into out) (r'.addHidden into' out') := by
  unfold Recorder.addHidden
  rw [h.opensHidden hi ho, h.relationThrough hi ho]
  refine .ofExcept_bind _ fun opens => ?_
  cases opens with
  | true =>
      refine .then (h.materialize hi.target) ?_
      refine .then (h.materialize ho.target) ?_
      refine .ofExcept_bind (r.relationThrough into out) fun relation => ?_
      exact .then (.put fun l => rfl) (.pure rfl)
  | false => exact .pure rfl

/-- **A pair is recorded alike.** -/
theorem addPair (h : r.Twin r') (hi : into.Twin into') (ho : out.Twin out') :
    Alike r.context.attributes Eq (r.addPair into out) (r'.addPair into' out') := by
  unfold Recorder.addPair
  rw [h.hidesProcesses]
  split
  · exact h.addHidden hi ho
  · exact h.addEdges hi ho

/-- **A single edge is recorded alike.** -/
theorem addEdge (h : r.Twin r') (he : e.Twin e') :
    Alike r.context.attributes Eq (r.addEdge e) (r'.addEdge e') := by
  unfold Recorder.addEdge
  rw [h.opensEdge he, he.relationshipId]
  refine Alike.get.bind fun l l' hl => ?_
  rw [show l'.containsRelationship e.relationshipId = l.containsRelationship e.relationshipId from
    hl ▸ rfl]
  refine .ofExcept_bind _ fun known => ?_
  cases known with
  | true => exact .pure rfl
  | false =>
      refine .ofExcept_bind _ fun opens => ?_
      cases opens with
      | true =>
          refine .then (h.materialize he.source) ?_
          refine .then (h.materialize he.target) ?_
          exact .then (h.recordEdge he) (.pure rfl)
      | false => exact .pure rfl

end Recorder.Twin

end DataLineage
