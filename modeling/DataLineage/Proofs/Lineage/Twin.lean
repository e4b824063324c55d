import DataLineage.Proofs.Recording.Step
import DataLineage.Walk
import Mathlib.Data.List.Forall2

/-!
# Vertices with and without their id among their properties

A graph may keep the id of a vertex among its properties, or only beside them, and it may list
properties in an order of its own. Where neither filters nor projectors look at the property `id`,
the same is seen of a vertex either way; only a header for which the attribute `id` was asked shows
the difference:

* `Outcome.Alike` -- outcomes that are the same fault, or results in a relation;
* `Vertex.Twin`, `Edge.Twin`, `Context.Twin` -- a thing with the property `id`, and the same thing
  without it;
* `Context.Blind` -- neither the filters of a request nor its projector look at the property `id`;
* `Context.Twin.admits` -- **then the same vertices are shown**;
* `EntityHeader.plainFor`, `Context.Twin.header` -- and their headers differ in the attribute `id`
  alone.
-/

namespace DataLineage

/-! ## 1. Alike outcomes -/

/-- Two outcomes are alike when both are the same fault, or results in the relation. -/
inductive Outcome.Alike {α β : Type} (R : α → β → Prop) : Outcome α → Outcome β → Prop where
  | ok {a : α} {b : β} (h : R a b) : Alike R (.ok a) (.ok b)
  | error (e : Fault) : Alike R (.error e) (.error e)

namespace Outcome.Alike

variable {α β α' β' : Type} {R : α → β → Prop} {S : α' → β' → Prop} {x : Outcome α} {y : Outcome β}

/-- An outcome is alike to itself, with the same result. -/
theorem refl (x : Outcome α) : Alike (fun a b => a = b ∧ x = .ok a) x x := by
  cases x with
  | ok a => exact .ok ⟨rfl, rfl⟩
  | error e => exact .error e

/-- **What goes on alike from alike outcomes is alike.** -/
theorem bind {f : α → Outcome α'} {g : β → Outcome β'} (h : Alike R x y)
    (hf : ∀ a b, R a b → Alike S (f a) (g b)) : Alike S (x >>= f) (y >>= g) := by
  cases h with
  | ok hab => exact hf _ _ hab
  | error e => exact .error e

theorem imp {R' : α → β → Prop} (h : Alike R x y) (hr : ∀ a b, R a b → R' a b) : Alike R' x y := by
  cases h with
  | ok hab => exact .ok (hr _ _ hab)
  | error e => exact .error e

theorem bind_self {f : α → Outcome α'} {g : α → Outcome β'} (x : Outcome α)
    (hf : ∀ a, Alike S (f a) (g a)) : Alike S (x >>= f) (x >>= g) :=
  (refl x).bind fun a _ hab => hab.1 ▸ hf a

/-- Lists whose members are in a relation are gone through alike. -/
theorem foldlM {σ σ' : Type} {T : σ → σ' → Prop} {f : σ → α → Outcome σ} {g : σ' → β → Outcome σ'}
    {l : List α} {l' : List β} (hl : List.Forall₂ R l l')
    (hf : ∀ s s' a b, T s s' → R a b → Alike T (f s a) (g s' b)) {s : σ} {s' : σ'} (hs : T s s') :
    Alike T (l.foldlM f s) (l'.foldlM g s') := by
  induction hl generalizing s s' with
  | nil => exact .ok hs
  | cons hab _ ih =>
      rw [List.foldlM_cons, List.foldlM_cons]
      exact (hf _ _ _ _ hs hab).bind fun _ _ ht => ih ht

end Outcome.Alike

/-! ## 2. Twins -/

/-- **The second vertex is the first one without the property `id`**; their id identifies
something. -/
structure Vertex.Twin (v v' : Vertex) : Prop where
  named : ∃ s, v.id = .scalar s
  id : v'.id = v.id
  typeName : v'.typeName = v.typeName
  other : ∀ k, k ≠ .text "id" → Record.valueOf? v'.properties k = Record.valueOf? v.properties k
  bare : Record.valueOf? v'.properties (.text "id") = none

/-- The second edge is the first one between the twins of its ends. -/
structure Edge.Twin (e e' : Edge) : Prop where
  source : e.source.Twin e'.source
  target : e.target.Twin e'.target
  label : e'.label = e.label
  relationshipId : e'.relationshipId = e.relationshipId

theorem Edge.Twin.endAt {e e' : Edge} (h : e.Twin e') (side : Side) :
    (e.endAt side).Twin (e'.endAt side) := by
  cases side with
  | incoming => exact h.target
  | outgoing => exact h.source

/-- **The projector shows a vertex whatever its property `id`.** -/
def Projector.Blind (p : Projector) : Prop :=
  ∀ v v' : Vertex, v.Twin v' → p.predicate v' = p.predicate v

/-- No criterion looks at the property `id`. -/
def CriteriaBlind (cs : List Criterion) : Prop := ∀ c ∈ cs, c.subject.key ≠ .ok (.text "id")

/-- **The request does not look at the property `id`** of a vertex to decide whether it is shown. -/
structure Context.Blind (c : Context) : Prop where
  projector : c.projector.Blind
  criteria : CriteriaBlind c.criteria

/-- **The second context is the first one with the twin of its root**, for a request that does not
look at the property `id`. -/
structure Context.Twin (c c' : Context) : Prop where
  root : c.root.Twin c'.root
  same : c' = { c with root := c'.root }
  blind : c.Blind

/-! ## 3. What is seen of a vertex -/

namespace Vertex.Twin

variable {v v' : Vertex}

/-- The twin has the same properties under other names. -/
theorem get? (h : v.Twin v') {name : String} (hn : name ≠ "id") :
    Record.get? v'.properties name = Record.get? v.properties name := by
  rw [← Record.valueOf?_text, ← Record.valueOf?_text]
  exact h.other _ fun hk => hn (Key.text.inj hk)

theorem property (h : v.Twin v') {name : String} (hn : name ≠ "id") :
    v'.property name = v.property name := congrArg (fun x => x.getD .null) (h.get? hn)

theorem isDeleted (h : v.Twin v') : Projector.isDeleted v' = Projector.isDeleted v := by
  unfold Projector.isDeleted
  rw [h.property (by decide)]

theorem visible (h : v.Twin v') {p : Projector} (hp : p.Blind) : p.visible v' = p.visible v := by
  unfold Projector.visible
  rw [h.isDeleted, hp v v' h]

theorem holds (h : v.Twin v') {c : Criterion} (hc : c.subject.key ≠ .ok (.text "id")) :
    c.holds v' = c.holds v := by
  have hactual : c.actual v' = c.actual v := by
    unfold Criterion.actual
    rw [h.typeName]
    cases hk : c.subject.key with
    | error e => rfl
    | ok k =>
        have hk : k ≠ .text "id" := fun heq => hc (heq ▸ hk)
        split
        · rfl
        · exact congrArg Except.ok (h.other k hk)
  unfold Criterion.holds
  rw [hactual]

theorem admitsAll (h : v.Twin v') {cs : List Criterion} (hcs : CriteriaBlind cs) :
    DataLineage.admitsAll cs v' = DataLineage.admitsAll cs v := by
  induction cs with
  | nil => rfl
  | cons c rest ih =>
      unfold DataLineage.admitsAll
      rw [h.holds (hcs c List.mem_cons_self), ih fun c' hc' => hcs c' (List.mem_cons_of_mem _ hc')]

end Vertex.Twin

/-- The same vertices are the root. -/
theorem Context.Twin.isRoot {c c' : Context} (h : c.Twin c') {v v' : Vertex} (hv : v.Twin v') :
    c'.isRoot v' = c.isRoot v := by
  unfold Context.isRoot
  rw [hv.id, h.root.id]

/-- **The same vertices are shown.** -/
theorem Context.Twin.admits {c c' : Context} (h : c.Twin c') {v v' : Vertex} (hv : v.Twin v') :
    c'.admits v' = c.admits v := by
  rw [h.same]
  show (c.projector.visible v' >>= fun shown =>
    if shown then admitsAll c.criteria v' else .ok false) = c.admits v
  rw [hv.visible h.blind.projector, hv.admitsAll h.blind.criteria]
  rfl

/-! ## 4. Headers -/

/-- The header without the attribute `id`, where attributes of these names were asked for. -/
def EntityHeader.plainFor (names : List Scalar) (h : EntityHeader) : EntityHeader :=
  if .text "id" ∈ names then
    { h with attributes := match h.attributes with
      | .record fields => .record (Record.erase fields "id")
      | other => other }
  else h

/-- Erasing a field leaves the fields of other keys. -/
theorem Record.valueOf?_erase (r : Record) {name : String} {k : Key} (h : k ≠ .text name) :
    valueOf? (erase r name) k = valueOf? r k := by
  unfold valueOf? erase
  rw [List.find?_filter]
  congr 2
  funext f
  rw [Bool.eq_iff_iff, decide_eq_true_eq, bne_iff_ne, beq_iff_eq]
  exact and_iff_right_of_imp fun hk hf => h (hk.symm.trans (hf ▸ rfl))

/-- An erased field is not there. -/
theorem Record.valueOf?_erase_self (r : Record) (name : String) :
    valueOf? (erase r name) (.text name) = none := by
  unfold valueOf? erase
  rw [List.find?_filter, Option.map_eq_none_iff, List.find?_eq_none]
  intro f _ hf
  rw [decide_eq_true_eq, bne_iff_ne, beq_iff_eq, Scalar.key_eq_text_iff] at hf
  exact hf.1 hf.2

namespace Projector

/-- The named attributes that a vertex has. -/
theorem attributes_eq (v : Vertex) (names : List Scalar) :
    attributes v (names.map .scalar) = .ok ((names.filterMap fun n =>
      (Record.valueOf? v.properties n.key).map (n, ·)).foldl addField []) := by
  have hmap : (names.map Value.scalar).mapM (attributeOf v) =
      .ok (names.map fun n => (Record.valueOf? v.properties n.key).map (n, ·)) := by
    induction names with
    | nil => rfl
    | cons n rest ih =>
        rw [List.map_cons, List.mapM_cons, ih]
        rfl
  unfold attributes
  rw [hmap]
  show Except.ok (((names.map _).filterMap id).foldl addField []) = _
  rw [List.filterMap_map]
  rfl

/-- A field that is erased might as well not be added. -/
theorem erase_addField (r : Record) (field : Scalar × Value) (name : String) :
    Record.erase (addField r field) name =
      if field.1 = .text name then Record.erase r name
      else addField (Record.erase r name) field := by
  unfold addField
  by_cases hf : field.1 = .text name
  · rw [if_pos hf]
    split
    · rfl
    · simp [Record.erase, hf]
  · have hk : field.1.key ≠ .text name := fun h => hf ((Scalar.key_eq_text_iff _ _).mp h)
    have hkey : Record.hasKey (Record.erase r name) field.1.key = Record.hasKey r field.1.key :=
      congrArg Option.isSome (Record.valueOf?_erase r hk)
    rw [if_neg hf, hkey]
    split
    · rfl
    · simp [Record.erase, hf]

theorem erase_addFields (fields : List (Scalar × Value)) (r : Record) (name : String) :
    Record.erase (fields.foldl addField r) name =
      (fields.filter fun f => f.1 != .text name).foldl addField (Record.erase r name) := by
  induction fields generalizing r with
  | nil => rfl
  | cons f rest ih =>
      rw [List.foldl_cons, ih, erase_addField, List.filter_cons]
      by_cases hf : f.1 = .text name
      · simp [hf]
      · simp [hf]

variable {v v' : Vertex}

/-- What a name stands for is the same for a twin, unless the name is `id`. -/
theorem attribute_twin (h : v.Twin v') {n : Scalar} (hn : n ≠ .text "id") :
    (Record.valueOf? v'.properties n.key).map (n, ·) =
      (Record.valueOf? v.properties n.key).map (n, ·) :=
  congrArg (Option.map (n, ·)) (h.other _ fun hk => hn ((Scalar.key_eq_text_iff _ _).mp hk))

/-- **The attributes of the twin** are those of the vertex without `id`. -/
theorem attributes_twin (h : v.Twin v') (names : List Scalar) {fields : Record}
    (hf : attributes v (names.map .scalar) = .ok fields) :
    attributes v' (names.map .scalar) = .ok (Record.erase fields "id") := by
  rw [attributes_eq] at hf ⊢
  obtain rfl := Except.ok.inj hf
  rw [erase_addFields, List.filter_filterMap]
  refine congrArg (fun f => Except.ok ((names.filterMap f).foldl addField [])) (funext fun n => ?_)
  by_cases hn : n = .text "id"
  · subst hn
    rw [show (Scalar.text "id").key = .text "id" from rfl, h.bare]
    cases Record.valueOf? v.properties (.text "id") <;> rfl
  · rw [attribute_twin h hn]
    cases Record.valueOf? v.properties n.key with
    | none => rfl
    | some value => exact (if_pos (bne_iff_ne.mpr hn)).symm

/-- Attributes of other names are the same. -/
theorem attributes_twin_other (h : v.Twin v') {names : List Scalar} (hid : .text "id" ∉ names) :
    attributes v' (names.map .scalar) = attributes v (names.map .scalar) := by
  rw [attributes_eq, attributes_eq]
  exact congrArg (fun fields => Except.ok (fields.foldl addField [])) (List.filterMap_congr
    fun n hn => attribute_twin h fun heq => hid (heq ▸ hn))

/-- **The header of the twin** is that of the vertex but for the attribute `id`. -/
theorem header_twin (h : v.Twin v') (names : List Scalar) :
    header v' (names.map .scalar) =
      (header v (names.map .scalar)).map (EntityHeader.plainFor names) := by
  have hdisplay : displayText v' = displayText v := by
    unfold displayText displayAttributes
    simp only [List.map_cons, List.map_nil]
    rw [h.property (by decide), h.property (by decide), h.property (by decide), h.id]
  have hfields := attributes_eq v names
  unfold header
  rw [h.property (by decide), h.get? (by decide), hdisplay, h.id, h.typeName]
  by_cases hid : .text "id" ∈ names
  · rw [attributes_twin h names hfields, hfields]
    cases (v.property "classifications").elementsOrNone with
    | error e => rfl
    | ok classes => exact congrArg Except.ok (if_pos hid).symm
  · rw [attributes_twin_other h hid, hfields]
    cases (v.property "classifications").elementsOrNone with
    | error e => rfl
    | ok classes => exact congrArg Except.ok (if_neg hid).symm

end Projector

theorem Context.Twin.header {c c' : Context} (h : c.Twin c') {v v' : Vertex} (hv : v.Twin v') :
    c'.header v' = (c.header v).map (EntityHeader.plainFor c.attributes) := by
  rw [h.same]
  exact Projector.header_twin hv c.attributes

/-- The twin has a header exactly where the vertex has one. -/
theorem Context.Twin.header_isOk {c c' : Context} (h : c.Twin c') {v v' : Vertex}
    (hv : v.Twin v') : (∃ hd, c'.header v' = .ok hd) ↔ ∃ hd, c.header v = .ok hd := by
  rw [h.header hv]
  cases c.header v with
  | ok hd => exact ⟨fun _ => ⟨hd, rfl⟩, fun _ => ⟨_, rfl⟩⟩
  | error e => exact ⟨fun ⟨_, h⟩ => (nomatch h), fun ⟨_, h⟩ => (nomatch h)⟩

/-- **Where attributes of these names were asked for, the authorizer decides whatever the attribute
`id` of a header.** -/
def Authorizer.BlindFor (a : Authorizer) (names : List Scalar) : Prop :=
  ∀ h : EntityHeader, a.permits (h.plainFor names) = a.permits h

/-- A list of denied types looks at the type alone. -/
theorem Authorizer.deny_blind (types : List Key) (names : List Scalar) :
    (deny types).BlindFor names := by
  intro h
  unfold EntityHeader.plainFor
  split <;> rfl

end DataLineage
