import DataLineage.Proofs.Graph.Listing
import DataLineage.Proofs.Recording.Step

/-!
# What a lineage graph holds after a list of calls

A walk does nothing to its lineage graph but call the recorder, for one pair or one edge after the
other. What the graph holds in the end is told by the calls alone, whatever their order:

* `Recorder.Took` -- a list of calls leads from one graph to another;
* `Recorder.Yields` -- the relations that a call brings in;
* `LineageGraph.Holds g R` -- the graph records the relations of `R`, knows their relationship ids,
  and has headers for their ends and for nothing else;
* `Recorder.Took.holds` -- from a graph that holds `R`, calls lead to one that holds `R` and what
  the calls yield. This needs that no two different edges share a relationship id: the recorder
  passes over an edge whose id it knows;
* `Recorder.Took.keeps` -- what entering a header or a relation keeps, calls keep.
-/

namespace DataLineage

/-! ## 1. Calls -/

/-- One call to a recorder, for a pair of edges or for a single edge. -/
inductive Call where
  | pair (into out : Edge)
  | edge (e : Edge)

/-- The edges of a call. -/
def Call.edges : Call → List Edge
  | pair into out => [into, out]
  | edge e => [e]

/-- The two edges of a pair leave one process. -/
def Call.Joined : Call → Prop
  | pair into out => ∃ k, into.source.id.key = .ok k ∧ out.source.id.key = .ok k
  | edge _ => True

namespace Recorder

/-- What the recorder does for a call. -/
def answer (r : Recorder) : Call → Recording Bool
  | .pair into out => r.addPair into out
  | .edge e => r.addEdge e

/-- **The calls of a list, one after the other, lead from one graph to another.** -/
inductive Took (r : Recorder) : List Call → LineageGraph → LineageGraph → Prop where
  | nil (g : LineageGraph) : Took r [] g g
  | cons {c : Call} {cs : List Call} {g g₁ g₂ : LineageGraph} {skipped : Bool}
      (h : Recording.on (r.answer c) g = .ok (skipped, g₁)) (rest : Took r cs g₁ g₂) :
      Took r (c :: cs) g g₂

theorem Took.append {r : Recorder} {cs cs' : List Call} {g g₁ g₂ : LineageGraph}
    (h : r.Took cs g g₁) (h' : r.Took cs' g₁ g₂) : r.Took (cs ++ cs') g g₂ := by
  induction h with
  | nil g => exact h'
  | cons hc _ ih => exact .cons hc (ih h')

/-- The relations that stand for a pair. -/
def PairYields (r : Recorder) (into out : Edge) (x : Relation) : Prop :=
  if r.context.hidesProcesses then r.relationThrough into out = .ok x
  else r.relationOf into = .ok x ∨ r.relationOf out = .ok x

/-- **The relations that a call brings in**: those of an open pair, or of an edge that is not
skipped. -/
def Yields (r : Recorder) : Call → Relation → Prop
  | .pair into out, x => r.opensPair into out = .ok true ∧ r.PairYields into out x
  | .edge e, x => r.opensEdge e = .ok true ∧ r.relationOf e = .ok x

end Recorder

/-! ## 2. Steps, case by case -/

namespace Recorder

variable {r : Recorder}

theorem entered_ok {v : Vertex} {g g' : LineageGraph} (h : r.entered v g = .ok g') :
    ∃ id, v.id = .scalar id ∧ (g.hasEntity id = true ∧ g' = g ∨
      g.hasEntity id = false ∧ ∃ hd, r.context.header v = .ok hd ∧ g' = g.putEntity id hd) := by
  obtain ⟨id, hid, h⟩ := Outcome.bind_eq_ok.mp h
  have hv : v.id = .scalar id := by
    cases hv : v.id with
    | scalar s => rw [hv] at hid; cases hid; rfl
    | list xs => rw [hv] at hid; cases hid
    | set ms => rw [hv] at hid; cases hid
    | record fs => rw [hv] at hid; cases hid
  refine ⟨id, hv, ?_⟩
  cases hg : g.hasEntity id with
  | true =>
      rw [hg, if_pos rfl] at h
      cases h
      exact .inl ⟨rfl, rfl⟩
  | false =>
      rw [hg, if_neg Bool.false_ne_true] at h
      obtain ⟨hd, hhd, h⟩ := Outcome.bind_eq_ok.mp h
      cases h
      exact .inr ⟨rfl, hd, hhd, rfl⟩

theorem edgeEntered_ok {e : Edge} {g g' : LineageGraph} (h : r.edgeEntered e g = .ok g') :
    (g.containsRelationship e.relationshipId = .ok true ∧ g' = g) ∨
      ∃ x, r.relationOf e = .ok x ∧ g' = g.addRelation x := by
  obtain ⟨known, hk, h⟩ := Outcome.bind_eq_ok.mp h
  cases known with
  | true => cases h; exact .inl ⟨hk, rfl⟩
  | false =>
      obtain ⟨x, hx, h⟩ := Outcome.bind_eq_ok.mp h
      cases h
      exact .inr ⟨x, hx, rfl⟩

/-- **A call for a pair**: skipped, and the graph is as it was, or entered. -/
theorem addPair_ok {into out : Edge} {g g' : LineageGraph} {skipped : Bool}
    (h : Recording.on (r.addPair into out) g = .ok (skipped, g')) :
    r.opensPair into out = .ok (!skipped) ∧ (skipped = true ∧ g' = g ∨
      skipped = false ∧ r.pairEntered into out g = .ok g') := by
  rw [on_addPair] at h
  obtain ⟨opens, ho, h⟩ := Outcome.bind_eq_ok.mp h
  cases opens with
  | true =>
      obtain ⟨g₁, h₁, h⟩ := Outcome.bind_eq_ok.mp h
      cases h
      exact ⟨ho, .inr ⟨rfl, h₁⟩⟩
  | false =>
      cases h
      exact ⟨ho, .inl ⟨rfl, rfl⟩⟩

/-- **A call for a single edge**: its relationship is known, or it is skipped, or entered. -/
theorem addEdge_ok {e : Edge} {g g' : LineageGraph} {skipped : Bool}
    (h : Recording.on (r.addEdge e) g = .ok (skipped, g')) :
    (g.containsRelationship e.relationshipId = .ok true ∧ g' = g) ∨
      (r.opensEdge e = .ok false ∧ g' = g) ∨
      (r.opensEdge e = .ok true ∧ r.singleEntered e g = .ok g') := by
  rw [on_addEdge] at h
  obtain ⟨known, hk, h⟩ := Outcome.bind_eq_ok.mp h
  cases known with
  | true => cases h; exact .inl ⟨hk, rfl⟩
  | false =>
      obtain ⟨opens, ho, h⟩ := Outcome.bind_eq_ok.mp h
      cases opens with
      | false => cases h; exact .inr (.inl ⟨ho, rfl⟩)
      | true =>
          obtain ⟨g₁, h₁, h⟩ := Outcome.bind_eq_ok.mp h
          cases h
          exact .inr (.inr ⟨ho, h₁⟩)

/-- The relation of an edge lies between its two ends, and carries its relationship id. -/
theorem relationOf_ok {e : Edge} {x : Relation} (h : r.relationOf e = .ok x) :
    e.relationshipId = .scalar x.relationshipId ∧ x.processId = .null ∧
      (r.isInput e = true ∧ e.target.id = .scalar x.source ∧ e.source.id = .scalar x.target ∨
        r.isInput e = false ∧ e.source.id = .scalar x.source ∧ e.target.id = .scalar x.target) := by
  unfold relationOf at h
  cases hi : r.isInput e with
  | true =>
      rw [hi, if_pos rfl] at h
      obtain ⟨hs, ht, hr, hp⟩ := Relation.ofValues_ok.mp h
      exact ⟨hr, (Value.scalar.inj hp).symm, .inl ⟨rfl, hs, ht⟩⟩
  | false =>
      rw [hi, if_neg Bool.false_ne_true] at h
      obtain ⟨hs, ht, hr, hp⟩ := Relation.ofValues_ok.mp h
      exact ⟨hr, (Value.scalar.inj hp).symm, .inr ⟨rfl, hs, ht⟩⟩

/-- An edge between scalars with a scalar for its relationship has a relation. -/
theorem relationOf_isOk {e : Edge} {s t i : Scalar} (hs : e.source.id = .scalar s)
    (ht : e.target.id = .scalar t) (hi : e.relationshipId = .scalar i) :
    ∃ x, r.relationOf e = .ok x := by
  unfold relationOf
  rw [hs, ht, hi]
  split <;> exact ⟨_, rfl⟩

/-- The relation through a hidden process lies between the two datasets of the pair. -/
theorem relationThrough_ok {into out : Edge} {x : Relation}
    (h : r.relationThrough into out = .ok x) :
    x.relationshipId = .null ∧ out.source.id = .scalar x.processId ∧
      (r.isInput into = true ∧ into.target.id = .scalar x.source ∧ out.target.id = .scalar x.target ∨
        r.isInput into = false ∧ out.target.id = .scalar x.source ∧
          into.target.id = .scalar x.target) := by
  unfold relationThrough at h
  cases hi : r.isInput into with
  | true =>
      rw [hi, if_pos rfl] at h
      obtain ⟨hs, ht, hr, hp⟩ := Relation.ofValues_ok.mp h
      exact ⟨(Value.scalar.inj hr).symm, hp, .inl ⟨rfl, hs, ht⟩⟩
  | false =>
      rw [hi, if_neg Bool.false_ne_true] at h
      obtain ⟨hs, ht, hr, hp⟩ := Relation.ofValues_ok.mp h
      exact ⟨(Value.scalar.inj hr).symm, hp, .inr ⟨rfl, hs, ht⟩⟩

/-- The ends of the relation of an edge are the ends of the edge. -/
theorem relationOf_ends {e : Edge} {x : Relation} (h : r.relationOf e = .ok x) (k : Key) :
    (x.source.key = k ∨ x.target.key = k) ↔ e.source.id.key = .ok k ∨ e.target.id.key = .ok k := by
  obtain ⟨_, _, ⟨_, hs, ht⟩ | ⟨_, hs, ht⟩⟩ := relationOf_ok h
  · simp only [hs, ht, Value.key, Except.ok.injEq]
    exact Or.comm
  · simp only [hs, ht, Value.key, Except.ok.injEq]

/-- The ends of the relation through a hidden process are the two datasets. -/
theorem relationThrough_ends {into out : Edge} {x : Relation}
    (h : r.relationThrough into out = .ok x) (k : Key) :
    (x.source.key = k ∨ x.target.key = k) ↔
      into.target.id.key = .ok k ∨ out.target.id.key = .ok k := by
  obtain ⟨_, _, ⟨_, hs, ht⟩ | ⟨_, hs, ht⟩⟩ := relationThrough_ok h
  · simp only [hs, ht, Value.key, Except.ok.injEq]
  · simp only [hs, ht, Value.key, Except.ok.injEq]
    exact Or.comm

end Recorder

/-! ## 3. What a graph records, and what it names -/

/-- Two edges of one label between the same two vertices. -/
def Edge.Same (a b : Edge) : Prop := ∃ k, a.keys = .ok k ∧ b.keys = .ok k

/-- **No two different edges share a relationship id**, but for the null one. -/
def UniqueIds (es : List Edge) : Prop :=
  ∀ a ∈ es, ∀ b ∈ es, ∀ s t : Scalar, a.relationshipId = .scalar s → b.relationshipId = .scalar t →
    s ≠ .null → s.key = t.key → a.keys = b.keys

/-- Edges with one relationship id are the same. -/
def Traced (es : List Edge) : Prop :=
  ∀ a ∈ es, ∀ b ∈ es, ∀ s t : Scalar, a.relationshipId = .scalar s → b.relationshipId = .scalar t →
    s ≠ .null → s.key = t.key → a.Same b

theorem UniqueIds.subset {es es' : List Edge} (h : UniqueIds es) (hes : ∀ e ∈ es', e ∈ es) :
    UniqueIds es' := fun a ha b hb => h a (hes a ha) b (hes b hb)

/-- Where every edge can be identified, a relationship id tells its edge. -/
theorem UniqueIds.traced {es : List Edge} (h : UniqueIds es)
    (hk : ∀ e ∈ es, ∃ k, e.keys = .ok k) : Traced es := by
  intro a ha b hb s t hs ht hn hst
  obtain ⟨k, hka⟩ := hk a ha
  exact ⟨k, hka, (h a ha b hb s t hs ht hn hst).symm.trans hka⟩

/-- Edges that are the same have the same relation, if they share the relationship id. -/
theorem Recorder.relationOf_same {r : Recorder} {a b : Edge} {x y : Relation} (h : a.Same b)
    (hx : r.relationOf a = .ok x) (hy : r.relationOf b = .ok y)
    (hi : x.relationshipId.key = y.relationshipId.key) : x.same y = true := by
  obtain ⟨k, ha, hb⟩ := h
  obtain ⟨hal, has, hat⟩ := (Edge.keys_eq_ok_iff a k).mp ha
  obtain ⟨hbl, hbs, hbt⟩ := (Edge.keys_eq_ok_iff b k).mp hb
  have hin : r.isInput a = r.isInput b := Value.equal_congr hal hbl _
  obtain ⟨_, hxp, hx⟩ := relationOf_ok hx
  obtain ⟨_, hyp, hy⟩ := relationOf_ok hy
  rw [Relation.same_iff, hxp, hyp]
  rcases hx with ⟨hxi, hxs, hxt⟩ | ⟨hxi, hxs, hxt⟩
  · rcases hy with ⟨_, hys, hyt⟩ | ⟨hyi, _, _⟩
    · rw [hxs] at hat
      rw [hxt] at has
      rw [hys] at hbt
      rw [hyt] at hbs
      exact ⟨Except.ok.inj (hat.trans hbt.symm), Except.ok.inj (has.trans hbs.symm), hi, rfl⟩
    · rw [← hin, hxi] at hyi
      cases hyi
  · rcases hy with ⟨hyi, _, _⟩ | ⟨_, hys, hyt⟩
    · rw [← hin, hxi] at hyi
      cases hyi
    · rw [hxs] at has
      rw [hxt] at hat
      rw [hys] at hbs
      rw [hyt] at hbt
      exact ⟨Except.ok.inj (has.trans hbs.symm), Except.ok.inj (hat.trans hbt.symm), hi, rfl⟩

namespace LineageGraph

/-- **The graph records the relations of `R`**, and knows their relationship ids. -/
structure Records (g : LineageGraph) (R : Relation → Prop) : Prop where
  relations : ∀ x, g.hasRelation x = true ↔ ∃ y, R y ∧ x.same y = true
  ids : ∀ k, g.relationshipIds.contains k = true ↔
    ∃ y, R y ∧ y.relationshipId ≠ .null ∧ y.relationshipId.key = k

/-- The graph has headers for the entities of `K` and for nothing else. -/
def Names (g : LineageGraph) (K : Key → Prop) : Prop := ∀ id, g.hasEntity id = true ↔ K id.key

/-- The ends of relations. -/
def Ends (R : Relation → Prop) (k : Key) : Prop := ∃ y, R y ∧ (y.source.key = k ∨ y.target.key = k)

/-- Relations that are the same have the same ends. -/
theorem ends_same {R S : Relation → Prop} (h : ∀ x, S x ↔ ∃ y, R y ∧ x.same y = true) (k : Key) :
    Ends S k ↔ Ends R k := by
  constructor
  · intro h'
    obtain ⟨x, hx, hk⟩ := h'
    obtain ⟨y, hy, hxy⟩ := (h x).mp hx
    obtain ⟨hs, ht, _⟩ := (Relation.same_iff x y).mp hxy
    exact ⟨y, hy, hs ▸ ht ▸ hk⟩
  · intro h'
    obtain ⟨y, hy, hk⟩ := h'
    exact ⟨y, (h y).mpr ⟨y, hy, Relation.same_refl y⟩, hk⟩

theorem ends_or {R S : Relation → Prop} (k : Key) :
    Ends (fun y => R y ∨ S y) k ↔ Ends R k ∨ Ends S k := by
  simp only [Ends, or_and_right, exists_or]

/-- **The graph holds the relations of `R`, and its entities are their ends.** -/
structure Holds (g : LineageGraph) (R : Relation → Prop) : Prop where
  records : g.Records R
  names : g.Names (Ends R)

variable {g g' : LineageGraph} {R R' : Relation → Prop}

theorem Records.congr (h : g.Records R) (hR : ∀ x, R x ↔ R' x) : g.Records R' := by
  have e : R = R' := funext fun x => propext (hR x)
  exact e ▸ h

theorem Names.congr {K K' : Key → Prop} (h : g.Names K) (hK : ∀ k, K k ↔ K' k) : g.Names K' :=
  fun id => (h id).trans (hK id.key)

theorem Names.of_eq {K : Key → Prop} (h : g.Names K) (he : g'.entities = g.entities) :
    g'.Names K := fun id => by
  unfold hasEntity
  rw [he]
  exact h id

theorem Holds.congr (h : g.Holds R) (hR : ∀ x, R x ↔ R' x) : g.Holds R' := by
  have e : R = R' := funext fun x => propext (hR x)
  exact e ▸ h

theorem Holds.empty (guid : Value) (direction : Direction) (depth : Value) :
    (LineageGraph.empty guid direction depth).Holds fun _ => False where
  records := by
    refine ⟨fun x => ?_, fun k => ?_⟩
    · simp [hasRelation, LineageGraph.empty]
    · simp [LineageGraph.empty]
  names id := by simp [hasEntity, EntityMap.has, LineageGraph.empty, Ends]

/-- One more relation is recorded. -/
theorem Records.add (h : g.Records R) (x : Relation) :
    (g.addRelation x).Records fun y => R y ∨ y = x := by
  refine ⟨fun z => ?_, fun k => ?_⟩
  · rw [hasRelation_addRelation, h.relations]
    constructor
    · intro h'
      rcases h' with ⟨y, hy, hz⟩ | hz
      · exact ⟨y, .inl hy, hz⟩
      · exact ⟨x, .inr rfl, hz⟩
    · intro h'
      obtain ⟨y, hy | rfl, hz⟩ := h'
      · exact .inl ⟨y, hy, hz⟩
      · exact .inr hz
  · rw [contains_addRelation, h.ids]
    constructor
    · intro h'
      rcases h' with ⟨y, hy, hk⟩ | hk
      · exact ⟨y, .inl hy, hk⟩
      · exact ⟨x, .inr rfl, hk⟩
    · intro h'
      obtain ⟨y, hy | rfl, hk⟩ := h'
      · exact .inl ⟨y, hy, hk⟩
      · exact .inr hk

/-- A relation that is the same as a recorded one may be counted or not. -/
theorem Records.absorb (h : g.Records R) {x y : Relation} (hy : R y) (hxy : x.same y = true) :
    g.Records fun z => R z ∨ z = x := by
  refine ⟨fun z => ?_, fun k => ?_⟩
  · rw [h.relations]
    constructor
    · intro h'
      obtain ⟨w, hw, hz⟩ := h'
      exact ⟨w, .inl hw, hz⟩
    · intro h'
      obtain ⟨w, hw | rfl, hz⟩ := h'
      · exact ⟨w, hw, hz⟩
      · exact ⟨y, hy, Relation.same_trans hz hxy⟩
  · rw [h.ids]
    constructor
    · intro h'
      obtain ⟨w, hw, hk⟩ := h'
      exact ⟨w, .inl hw, hk⟩
    · intro h'
      obtain ⟨w, hw | rfl, hn, hk⟩ := h'
      · exact ⟨w, hw, hn, hk⟩
      · have hi : w.relationshipId.key = y.relationshipId.key := ((Relation.same_iff w y).mp hxy).2.2.1
        refine ⟨y, hy, fun hnull => hn ?_, hi ▸ hk⟩
        rw [hnull] at hi
        exact (Scalar.key_eq_null_iff _).mp hi

end LineageGraph

/-! ## 4. One call -/

namespace Recorder

variable {r : Recorder} {es : List Edge} {g g' : LineageGraph} {R : Relation → Prop}
  {K : Key → Prop}

/-- The relations with a relationship id are relations of edges of `es`. -/
def DrawnFrom (r : Recorder) (es : List Edge) (R : Relation → Prop) : Prop :=
  ∀ y, R y → y.relationshipId ≠ .null → ∃ e ∈ es, r.relationOf e = .ok y

/-- Entering a header changes which entities are named, and nothing else. -/
theorem entered_names {v : Vertex} (h : r.entered v g = .ok g') :
    ∃ id k, v.id = .scalar id ∧ v.id.key = .ok k ∧ g'.hasEntity id = true ∧
      (g.Names K → g'.Names fun k' => K k' ∨ k' = k) ∧
      g'.relations = g.relations ∧ g'.relationshipIds = g.relationshipIds := by
  obtain ⟨id, hv, ⟨hg, rfl⟩ | ⟨_, hd, _, rfl⟩⟩ := entered_ok h
  · refine ⟨id, id.key, hv, by rw [hv]; rfl, hg, fun hK x => ?_, rfl, rfl⟩
    rw [hK x]
    refine ⟨.inl, fun hx => hx.elim (fun hk => hk) fun hx => ?_⟩
    rw [hx]
    exact (hK id).mp hg
  · refine ⟨id, id.key, hv, by rw [hv]; rfl, ?_, fun hK x => ?_, rfl, rfl⟩
    · rw [LineageGraph.hasEntity_putEntity, beq_self_eq_true, Bool.or_true]
    · rw [LineageGraph.hasEntity_putEntity, Bool.or_eq_true, beq_iff_eq, hK x]

/-- What is recorded does not depend on the headers. -/
theorem records_of_eq (hr : g'.relations = g.relations)
    (hi : g'.relationshipIds = g.relationshipIds) (h : g.Records R) : g'.Records R := by
  refine ⟨fun x => ?_, fun k => ?_⟩
  · rw [LineageGraph.hasRelation_iff, hr, ← LineageGraph.hasRelation_iff, h.relations]
  · rw [hi, h.ids]

/-- Recording an edge leaves the headers as they are. -/
theorem edgeEntered_entities {e : Edge} (h : r.edgeEntered e g = .ok g') :
    g'.entities = g.entities := by
  rcases edgeEntered_ok h with ⟨_, rfl⟩ | ⟨x, _, rfl⟩ <;> rfl

/-- **An edge whose relationship is known is recorded already**, as no other edge shares its
relationship. -/
theorem known_records (hU : Traced es) (hR : r.DrawnFrom es R) (hg : g.Records R) {e : Edge}
    (he : e ∈ es) (hk : g.containsRelationship e.relationshipId = .ok true) {x : Relation}
    (hx : r.relationOf e = .ok x) : ∃ y, R y ∧ x.same y = true := by
  obtain ⟨s, hs, hb⟩ := LineageGraph.containsRelationship_ok hk
  obtain ⟨hn, hc⟩ := hb.mp rfl
  obtain ⟨y, hy, hyn, hyk⟩ := (hg.ids s.key).mp hc
  obtain ⟨e', he', hy'⟩ := hR y hy hyn
  have hxs : Value.scalar s = .scalar x.relationshipId := hs.symm.trans (relationOf_ok hx).1
  have hxk : x.relationshipId.key = y.relationshipId.key := by
    rw [← Value.scalar.inj hxs, hyk]
  have hsame : e.Same e' := hU e he e' he' s _ hs (relationOf_ok hy').1 hn hyk.symm
  exact ⟨y, hy, relationOf_same hsame hx hy' hxk⟩

/-- **After an edge is entered its relation is recorded**, and what was recorded before. -/
theorem edgeEntered_records (hU : Traced es) (hR : r.DrawnFrom es R) (hg : g.Records R)
    {e : Edge} (he : e ∈ es) (h : r.edgeEntered e g = .ok g') :
    g'.Records fun y => R y ∨ r.relationOf e = .ok y := by
  rcases edgeEntered_ok h with ⟨hk, rfl⟩ | ⟨x, hx, rfl⟩
  · cases hx : r.relationOf e with
    | error f => exact hg.congr fun y => ⟨.inl, fun h => h.elim id fun h => nomatch h⟩
    | ok x =>
        obtain ⟨y, hy, hxy⟩ := known_records hU hR hg he hk hx
        refine (hg.absorb hy hxy).congr fun z => or_congr Iff.rfl ?_
        exact ⟨fun hz => hz ▸ rfl, fun hz => (Except.ok.inj hz).symm⟩
  · refine (hg.add x).congr fun z => or_congr Iff.rfl ?_
    rw [hx]
    exact ⟨fun hz => hz ▸ rfl, fun hz => (Except.ok.inj hz).symm⟩

theorem DrawnFrom.or_edge (hR : r.DrawnFrom es R) {e : Edge} (he : e ∈ es) :
    r.DrawnFrom es fun y => R y ∨ r.relationOf e = .ok y := by
  rintro y (hy | hy) hn
  · exact hR y hy hn
  · exact ⟨e, he, hy⟩

/-- An edge that was entered has a relation. -/
theorem edgeEntered_relation {e : Edge} {s t : Scalar} (hs : e.source.id = .scalar s)
    (ht : e.target.id = .scalar t) (h : r.edgeEntered e g = .ok g') :
    ∃ x, r.relationOf e = .ok x := by
  rcases edgeEntered_ok h with ⟨hk, _⟩ | ⟨x, hx, _⟩
  · obtain ⟨i, hi, _⟩ := LineageGraph.containsRelationship_ok hk
    exact relationOf_isOk hs ht hi
  · exact ⟨x, hx⟩

theorem ends_edge {e : Edge} {x : Relation} (h : r.relationOf e = .ok x) (k : Key) :
    LineageGraph.Ends (fun y => r.relationOf e = .ok y) k ↔
      e.source.id.key = .ok k ∨ e.target.id.key = .ok k := by
  rw [← relationOf_ends h]
  constructor
  · intro h'
    obtain ⟨y, hy, hk⟩ := h'
    rw [h] at hy
    cases hy
    exact hk
  · exact fun hk => ⟨x, h, hk⟩

theorem ends_through {into out : Edge} {x : Relation} (h : r.relationThrough into out = .ok x)
    (k : Key) :
    LineageGraph.Ends (fun y => r.relationThrough into out = .ok y) k ↔
      into.target.id.key = .ok k ∨ out.target.id.key = .ok k := by
  rw [← relationThrough_ends h]
  constructor
  · intro h'
    obtain ⟨y, hy, hk⟩ := h'
    rw [h] at hy
    cases hy
    exact hk
  · exact fun hk => ⟨x, h, hk⟩

/-- A pair with a hidden process leaves one relation and its two ends. -/
theorem hiddenEntered_holds (hm : r.context.hidesProcesses = true) (hg : g.Holds R)
    {into out : Edge} (h : r.pairEntered into out g = .ok g') :
    g'.Holds fun y => R y ∨ r.PairYields into out y := by
  unfold pairEntered at h
  rw [if_pos hm] at h
  obtain ⟨g₁, h₁, h⟩ := Outcome.bind_eq_ok.mp h
  obtain ⟨g₂, h₂, h⟩ := Outcome.bind_eq_ok.mp h
  obtain ⟨x, hx, h⟩ := Outcome.bind_eq_ok.mp h
  cases h
  obtain ⟨_, k₁, _, hk₁, _, hn₁, hr₁, hi₁⟩ := entered_names (K := LineageGraph.Ends R) h₁
  obtain ⟨_, k₂, _, hk₂, _, hn₂, hr₂, hi₂⟩ :=
    entered_names (K := fun k => LineageGraph.Ends R k ∨ k = k₁) h₂
  have hy : ∀ y, r.PairYields into out y ↔ r.relationThrough into out = .ok y := fun y => by
    unfold PairYields
    rw [if_pos hm]
  refine LineageGraph.Holds.congr (R := fun y => R y ∨ r.relationThrough into out = .ok y)
    ⟨?_, ?_⟩ fun y => or_congr Iff.rfl (hy y).symm
  · have hg₂ : g₂.Records R := records_of_eq hr₂ hi₂ (records_of_eq hr₁ hi₁ hg.records)
    refine (hg₂.add x).congr fun y => or_congr Iff.rfl ?_
    rw [hx]
    exact ⟨fun hy => hy ▸ rfl, fun hy => (Except.ok.inj hy).symm⟩
  · refine ((hn₂ (hn₁ hg.names)).of_eq rfl).congr fun k => ?_
    rw [LineageGraph.ends_or, ends_through hx, hk₁, hk₂, Except.ok.injEq, Except.ok.injEq,
      or_assoc, eq_comm (a := k), eq_comm (a := k)]

/-- A pair of edges leaves both their relations, the process between them and the two datasets. -/
theorem edgesEntered_holds (hm : r.context.hidesProcesses = false) (hU : Traced es)
    (hR : r.DrawnFrom es R) (hg : g.Holds R) {into out : Edge} (hi : into ∈ es) (ho : out ∈ es)
    (hj : (Call.pair into out).Joined) (h : r.pairEntered into out g = .ok g') :
    g'.Holds fun y => R y ∨ r.PairYields into out y := by
  unfold pairEntered at h
  rw [if_neg (by rw [hm]; exact Bool.false_ne_true)] at h
  obtain ⟨g₁, h₁, h⟩ := Outcome.bind_eq_ok.mp h
  obtain ⟨g₂, h₂, h⟩ := Outcome.bind_eq_ok.mp h
  obtain ⟨g₃, h₃, h⟩ := Outcome.bind_eq_ok.mp h
  obtain ⟨g₄, h₄, h₅⟩ := Outcome.bind_eq_ok.mp h
  obtain ⟨t, kt, ht, hkt, _, hn₁, hr₁, hi₁⟩ := entered_names (K := LineageGraph.Ends R) h₁
  obtain ⟨p, kp, hp, hkp, _, hn₂, hr₂, hi₂⟩ :=
    entered_names (K := fun k => LineageGraph.Ends R k ∨ k = kt) h₂
  obtain ⟨o, ko, hot, hko, _, hn₃, hr₃, hi₃⟩ :=
    entered_names (K := fun k => (LineageGraph.Ends R k ∨ k = kt) ∨ k = kp) h₃
  have hg₃ : g₃.Records R :=
    records_of_eq hr₃ hi₃ (records_of_eq hr₂ hi₂ (records_of_eq hr₁ hi₁ hg.records))
  have hg₅ := edgeEntered_records hU (hR.or_edge hi) (edgeEntered_records hU hR hg₃ hi h₄) ho h₅
  have hy : ∀ y, (R y ∨ r.PairYields into out y) ↔
      (R y ∨ r.relationOf into = .ok y) ∨ r.relationOf out = .ok y := fun y => by
    unfold PairYields
    rw [if_neg (by rw [hm]; exact Bool.false_ne_true), or_assoc]
  -- the process of the second edge is the one of the first, under the same key
  obtain ⟨k, hk, hok⟩ := hj
  rw [hkp] at hk
  cases hk
  obtain ⟨p', hp', _⟩ := (Value.key_eq_ok_iff _ _).mp hok
  obtain ⟨xi, hxi⟩ := edgeEntered_relation hp ht h₄
  obtain ⟨xo, hxo⟩ := edgeEntered_relation hp' hot h₅
  refine LineageGraph.Holds.congr ⟨hg₅, ?_⟩ fun y => (hy y).symm
  have hn := hn₃ (hn₂ (hn₁ hg.names))
  refine ((hn.of_eq (edgeEntered_entities h₄)).of_eq (edgeEntered_entities h₅)).congr fun k => ?_
  rw [LineageGraph.ends_or, LineageGraph.ends_or, ends_edge hxi, ends_edge hxo, hkp, hkt, hko, hok,
    Except.ok.injEq, Except.ok.injEq, Except.ok.injEq, eq_comm (a := k), eq_comm (a := k),
    eq_comm (a := k)]
  grind

/-- A single edge leaves its relation and its two ends. -/
theorem singleEntered_holds (hU : Traced es) (hR : r.DrawnFrom es R) (hg : g.Holds R)
    {e : Edge} (he : e ∈ es) (h : r.singleEntered e g = .ok g') :
    g'.Holds fun y => R y ∨ r.relationOf e = .ok y := by
  obtain ⟨g₁, h₁, h⟩ := Outcome.bind_eq_ok.mp h
  obtain ⟨g₂, h₂, h₃⟩ := Outcome.bind_eq_ok.mp h
  obtain ⟨s, ks, hs, hks, _, hn₁, hr₁, hi₁⟩ := entered_names (K := LineageGraph.Ends R) h₁
  obtain ⟨t, kt, ht, hkt, _, hn₂, hr₂, hi₂⟩ :=
    entered_names (K := fun k => LineageGraph.Ends R k ∨ k = ks) h₂
  have hg₂ : g₂.Records R := records_of_eq hr₂ hi₂ (records_of_eq hr₁ hi₁ hg.records)
  obtain ⟨x, hx⟩ := edgeEntered_relation hs ht h₃
  refine ⟨edgeEntered_records hU hR hg₂ he h₃, ?_⟩
  refine ((hn₂ (hn₁ hg.names)).of_eq (edgeEntered_entities h₃)).congr fun k => ?_
  rw [LineageGraph.ends_or, ends_edge hx, hks, hkt, Except.ok.injEq, Except.ok.injEq, or_assoc,
    eq_comm (a := k), eq_comm (a := k)]

/-- A single edge that was called for is recorded, if it is open at all. -/
theorem addEdge_holds (hU : Traced es) (hR : r.DrawnFrom es R) (hg : g.Holds R) {e : Edge}
    (he : e ∈ es) {skipped : Bool} (h : Recording.on (r.addEdge e) g = .ok (skipped, g')) :
    g'.Holds fun y => R y ∨ r.Yields (.edge e) y := by
  rcases addEdge_ok h with ⟨hk, rfl⟩ | ⟨hc, rfl⟩ | ⟨ho, h⟩
  · -- its relationship is known: whatever it yields is there under the same keys
    by_cases hx : ∃ x, r.opensEdge e = .ok true ∧ r.relationOf e = .ok x
    · obtain ⟨x, ho, hx⟩ := hx
      obtain ⟨y, hy, hxy⟩ := known_records hU hR hg.records he hk hx
      have hyx : ∀ z, (R z ∨ z = x) ↔ (R z ∨ r.Yields (.edge e) z) := fun z => by
        refine or_congr Iff.rfl ⟨fun hz => ⟨ho, hz ▸ hx⟩, fun hz => ?_⟩
        exact Except.ok.inj (hz.2.symm.trans hx)
      refine ⟨(hg.records.absorb hy hxy).congr hyx, hg.names.congr fun k => ⟨?_, ?_⟩⟩
      · exact fun ⟨z, hz, hk⟩ => ⟨z, .inl hz, hk⟩
      · intro h'
        obtain ⟨z, hz | ⟨_, hz⟩, hk⟩ := h'
        · exact ⟨z, hz, hk⟩
        · rw [hx] at hz
          cases hz
          obtain ⟨hs, ht, _⟩ := (Relation.same_iff x y).mp hxy
          exact ⟨y, hy, hs ▸ ht ▸ hk⟩
    · exact hg.congr fun y => ⟨.inl, fun hy => hy.elim id fun hy => absurd ⟨y, hy⟩ hx⟩
  · refine hg.congr fun y => ⟨.inl, fun hy => hy.elim id fun hy => ?_⟩
    have hy : r.opensEdge e = .ok true := hy.1
    rw [hc] at hy
    cases hy
  · refine (singleEntered_holds hU hR hg he h).congr fun y => or_congr Iff.rfl ?_
    exact ⟨fun hy => ⟨ho, hy⟩, And.right⟩

/-- A pair that was called for is recorded, if it is open. -/
theorem addPair_holds (hU : Traced es) (hR : r.DrawnFrom es R) (hg : g.Holds R)
    {into out : Edge} (hi : into ∈ es) (ho : out ∈ es) (hj : (Call.pair into out).Joined)
    {skipped : Bool} (h : Recording.on (r.addPair into out) g = .ok (skipped, g')) :
    g'.Holds fun y => R y ∨ r.Yields (.pair into out) y := by
  obtain ⟨hc, ⟨rfl, rfl⟩ | ⟨rfl, hp⟩⟩ := addPair_ok h
  · refine hg.congr fun y => ⟨.inl, fun hy => hy.elim id fun hy => ?_⟩
    have hy : r.opensPair into out = .ok true := hy.1
    rw [hc] at hy
    cases hy
  · have hP : g'.Holds fun y => R y ∨ r.PairYields into out y := by
      cases hm : r.context.hidesProcesses with
      | true => exact hiddenEntered_holds hm hg hp
      | false => exact edgesEntered_holds hm hU hR hg hi ho hj hp
    exact hP.congr fun y => or_congr Iff.rfl ⟨fun hy => ⟨hc, hy⟩, And.right⟩

/-- What a call yields is drawn from its edges. -/
theorem DrawnFrom.or_call (hR : r.DrawnFrom es R) {c : Call} (hc : ∀ e ∈ c.edges, e ∈ es) :
    r.DrawnFrom es fun y => R y ∨ r.Yields c y := by
  rintro y (hy | hy) hn
  · exact hR y hy hn
  · cases c with
    | edge e => exact ⟨e, hc e (List.mem_singleton.mpr rfl), hy.2⟩
    | pair into out =>
        have hp : r.PairYields into out y := hy.2
        unfold PairYields at hp
        split at hp
        · exact absurd (relationThrough_ok hp).1 hn
        · rcases hp with hp | hp
          · exact ⟨into, hc into List.mem_cons_self, hp⟩
          · exact ⟨out, hc out (List.mem_cons_of_mem _ List.mem_cons_self), hp⟩

/-- **What a graph holds after calls**: what it held, and what the calls yield. -/
theorem Took.holds {cs : List Call} (hT : r.Took cs g g') (hU : Traced es)
    (hcs : ∀ c ∈ cs, (∀ e ∈ c.edges, e ∈ es) ∧ c.Joined) (hR : r.DrawnFrom es R)
    (hg : g.Holds R) : g'.Holds fun y => R y ∨ ∃ c ∈ cs, r.Yields c y := by
  induction hT generalizing R with
  | nil g => exact hg.congr fun y => by simp
  | @cons c cs g g₁ g₂ skipped h rest ih =>
      obtain ⟨hc, hj⟩ := hcs c List.mem_cons_self
      have h₁ : g₁.Holds fun y => R y ∨ r.Yields c y := by
        cases c with
        | edge e => exact addEdge_holds hU hR hg (hc e (List.mem_singleton.mpr rfl)) h
        | pair into out =>
            exact addPair_holds hU hR hg (hc into List.mem_cons_self)
              (hc out (List.mem_cons_of_mem _ List.mem_cons_self)) hj h
      refine (ih (fun c hc => hcs c (List.mem_cons_of_mem _ hc)) (hR.or_call hc) h₁).congr fun y => ?_
      simp only [List.mem_cons, exists_eq_or_imp, or_assoc]

end Recorder

/-! ## 5. What calls keep -/

/-- Does the vertex end an edge of the call? -/
def Call.Meets (c : Call) (v : Vertex) : Prop := ∃ e ∈ c.edges, v = e.source ∨ v = e.target

namespace Recorder

variable {r : Recorder} {g g' : LineageGraph} {P : LineageGraph → Prop}

/-- What new headers keep, entering a vertex keeps. -/
theorem entered_keeps {v : Vertex}
    (entity : ∀ g id hd, v.id = .scalar id → r.context.header v = .ok hd → P g →
      P (g.putEntity id hd)) (hg : P g) (h : r.entered v g = .ok g') : P g' := by
  obtain ⟨id, hv, ⟨_, rfl⟩ | ⟨_, hd, hh, rfl⟩⟩ := entered_ok h
  · exact hg
  · exact entity g id hd hv hh hg

/-- What new relations keep, entering an edge keeps. -/
theorem edgeEntered_keeps {e : Edge} (relation : ∀ g x, P g → P (g.addRelation x)) (hg : P g)
    (h : r.edgeEntered e g = .ok g') : P g' := by
  rcases edgeEntered_ok h with ⟨_, rfl⟩ | ⟨x, _, rfl⟩
  · exact hg
  · exact relation g x hg

/-- **What headers of the met vertices and new relations keep, calls keep.** -/
theorem Took.keeps {cs : List Call} (hT : r.Took cs g g')
    (entity : ∀ c ∈ cs, ∀ v, c.Meets v → ∀ g id hd, v.id = .scalar id →
      r.context.header v = .ok hd → P g → P (g.putEntity id hd))
    (relation : ∀ g x, P g → P (g.addRelation x)) (hg : P g) : P g' := by
  induction hT with
  | nil g => exact hg
  | @cons c cs g g₁ g₂ skipped h rest ih =>
      refine ih (fun c hc => entity c (List.mem_cons_of_mem _ hc)) ?_
      have enter (v : Vertex) (hv : c.Meets v) {a b : LineageGraph} (ha : P a)
          (hab : r.entered v a = .ok b) : P b :=
        entered_keeps (entity c List.mem_cons_self v hv) ha hab
      have record (e : Edge) {a b : LineageGraph} (ha : P a) (hab : r.edgeEntered e a = .ok b) :
          P b := edgeEntered_keeps relation ha hab
      cases c with
      | edge e =>
          rcases addEdge_ok h with ⟨_, rfl⟩ | ⟨_, rfl⟩ | ⟨_, h⟩
          · exact hg
          · exact hg
          · obtain ⟨a, ha, h⟩ := Outcome.bind_eq_ok.mp h
            obtain ⟨b, hb, h⟩ := Outcome.bind_eq_ok.mp h
            have he : e ∈ (Call.edge e).edges := List.mem_singleton.mpr rfl
            exact record e (enter _ ⟨e, he, .inr rfl⟩ (enter _ ⟨e, he, .inl rfl⟩ hg ha) hb) h
      | pair into out =>
          have hi : into ∈ (Call.pair into out).edges := List.mem_cons_self
          have ho : out ∈ (Call.pair into out).edges := List.mem_cons_of_mem _ List.mem_cons_self
          obtain ⟨_, ⟨_, rfl⟩ | ⟨_, h⟩⟩ := addPair_ok h
          · exact hg
          · unfold pairEntered at h
            split at h
            · obtain ⟨a, ha, h⟩ := Outcome.bind_eq_ok.mp h
              obtain ⟨b, hb, h⟩ := Outcome.bind_eq_ok.mp h
              obtain ⟨x, _, h⟩ := Outcome.bind_eq_ok.mp h
              cases h
              exact relation b x (enter _ ⟨out, ho, .inr rfl⟩ (enter _ ⟨into, hi, .inr rfl⟩ hg ha) hb)
            · obtain ⟨a, ha, h⟩ := Outcome.bind_eq_ok.mp h
              obtain ⟨b, hb, h⟩ := Outcome.bind_eq_ok.mp h
              obtain ⟨d, hd, h⟩ := Outcome.bind_eq_ok.mp h
              obtain ⟨f, hf, h⟩ := Outcome.bind_eq_ok.mp h
              have hd : P d := enter _ ⟨out, ho, .inr rfl⟩ (enter _ ⟨into, hi, .inl rfl⟩
                (enter _ ⟨into, hi, .inr rfl⟩ hg ha) hb) hd
              exact record out (record into hd hf) h

end Recorder

end DataLineage
