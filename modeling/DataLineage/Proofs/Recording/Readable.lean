import DataLineage.Proofs.Recording.Held

/-!
# When recording does not fail

A step of recording looks at the vertices of its edges: at their ids, at whether they are visible,
at what their headers show. Where it can, it does not fail, whatever the lineage graph holds:

* `Recorder.Passes`, `Recorder.Fails` -- a call that is decided and whose vertices have headers, and
  a call that fails over some lineage graph;
* `Recorder.Passes.not_fails` -- **a call that passes fails over none**;
* `Recorder.Reads`, `Recorder.ReadsEdge` -- a vertex and an edge that can be looked at;
* `Recorder.pair_passes`, `Recorder.edge_passes` -- calls for such edges pass;
* `Projector.admits_isOk`, `Context.header_isOk` -- which vertices can be looked at: those that the
  projector and the criteria can judge and of which the classifications are a list;
* `Criterion.holds_isOk`, `Criterion.Unfit.holds_error` -- which criteria can judge a vertex.
-/

namespace DataLineage

/-! ## 1. Calls that pass -/

/-- What an edge carries can be looked up: the ids of its ends and of its relationship are
scalars. -/
structure Edge.Named (e : Edge) : Prop where
  source : ∃ s, e.source.id = .scalar s
  target : ∃ s, e.target.id = .scalar s
  relationship : ∃ s, e.relationshipId = .scalar s

namespace Recorder

variable {r : Recorder}

/-- The decision about a call, which looks at the request alone. -/
def opens (r : Recorder) : Call → Outcome Bool
  | .pair into out => r.opensPair into out
  | .edge e => r.opensEdge e

/-- The vertices that an open call enters. -/
def entrants (r : Recorder) : Call → List Vertex
  | .pair into out =>
    if r.context.hidesProcesses then [into.target, out.target]
    else [into.target, into.source, out.target]
  | .edge e => [e.source, e.target]

theorem entrants_hidden (into out : Edge) (h : r.context.hidesProcesses = true) :
    r.entrants (.pair into out) = [into.target, out.target] := if_pos h

theorem entrants_expanded (into out : Edge) (h : r.context.hidesProcesses = false) :
    r.entrants (.pair into out) = [into.target, into.source, out.target] :=
  if_neg (by rw [h]; exact Bool.false_ne_true)

/-- **The call passes**: it is decided about, and where it is open its vertices have headers. -/
def Passes (r : Recorder) (c : Call) : Prop :=
  ∃ opens, r.opens c = .ok opens ∧
    (opens = true → ∀ v ∈ r.entrants c, ∃ hd, r.context.header v = .ok hd)

/-- The call fails with the fault over some lineage graph. -/
def Fails (r : Recorder) (c : Call) (e : Fault) : Prop :=
  ∃ g, Recording.on (r.answer c) g = .error e

theorem entered_isOk {v : Vertex} (hid : ∃ s, v.id = .scalar s)
    (hheader : ∃ hd, r.context.header v = .ok hd) (g : LineageGraph) :
    ∃ g', r.entered v g = .ok g' := by
  obtain ⟨s, hs⟩ := hid
  unfold entered
  refine Outcome.bind_isOk ⟨s, by rw [hs]; rfl⟩ fun id _ => ?_
  split
  · exact ⟨g, rfl⟩
  · exact Outcome.bind_isOk hheader fun hd _ => ⟨_, rfl⟩

theorem edgeEntered_isOk {e : Edge} (h : e.Named) (g : LineageGraph) :
    ∃ g', r.edgeEntered e g = .ok g' := by
  obtain ⟨s, hs⟩ := h.source
  obtain ⟨t, ht⟩ := h.target
  obtain ⟨i, hi⟩ := h.relationship
  unfold edgeEntered
  refine Outcome.bind_isOk (hi ▸ g.containsRelationship_scalar i) fun known _ => ?_
  cases known with
  | true => exact ⟨g, rfl⟩
  | false => exact Outcome.bind_isOk (relationOf_isOk hs ht hi) fun x _ => ⟨_, rfl⟩

theorem relationThrough_isOk {into out : Edge} {s t p : Scalar} (hs : into.target.id = .scalar s)
    (ht : out.target.id = .scalar t) (hp : out.source.id = .scalar p) :
    ∃ x, r.relationThrough into out = .ok x := by
  unfold relationThrough
  rw [hs, ht, hp]
  split <;> exact ⟨_, rfl⟩

/-- An open pair whose vertices have headers is entered. -/
theorem pairEntered_isOk {into out : Edge} (hi : into.Named) (ho : out.Named)
    (h : ∀ v ∈ r.entrants (.pair into out), ∃ hd, r.context.header v = .ok hd)
    (g : LineageGraph) : ∃ g', r.pairEntered into out g = .ok g' := by
  unfold pairEntered
  split
  · rename_i hm
    rw [entrants_hidden _ _ hm] at h
    obtain ⟨s, hs⟩ := hi.target
    obtain ⟨t, ht⟩ := ho.target
    obtain ⟨p, hp⟩ := ho.source
    have hinto := h into.target (by simp)
    have hout := h out.target (by simp)
    exact Outcome.bind_isOk (entered_isOk hi.target hinto g) fun g₁ _ =>
      Outcome.bind_isOk (entered_isOk ho.target hout g₁) fun g₂ _ =>
        Outcome.bind_isOk (relationThrough_isOk hs ht hp) fun x _ => ⟨_, rfl⟩
  · rename_i hm
    rw [entrants_expanded _ _ (Bool.eq_false_iff.mpr hm)] at h
    have hinto := h into.target (by simp)
    have hsource := h into.source (by simp)
    have hout := h out.target (by simp)
    exact Outcome.bind_isOk (entered_isOk hi.target hinto g) fun g₁ _ =>
      Outcome.bind_isOk (entered_isOk hi.source hsource g₁) fun g₂ _ =>
        Outcome.bind_isOk (entered_isOk ho.target hout g₂) fun g₃ _ =>
          Outcome.bind_isOk (edgeEntered_isOk hi g₃) fun g₄ _ => edgeEntered_isOk ho g₄

/-- An open edge whose ends have headers is entered. -/
theorem singleEntered_isOk {e : Edge} (he : e.Named)
    (h : ∀ v ∈ r.entrants (.edge e), ∃ hd, r.context.header v = .ok hd) (g : LineageGraph) :
    ∃ g', r.singleEntered e g = .ok g' := by
  have hsource := h e.source List.mem_cons_self
  have htarget := h e.target (List.mem_cons_of_mem _ List.mem_cons_self)
  exact Outcome.bind_isOk (entered_isOk he.source hsource g) fun g₁ _ =>
    Outcome.bind_isOk (entered_isOk he.target htarget g₁) fun g₂ _ => edgeEntered_isOk he g₂

/-- **A call that passes fails over no lineage graph.** -/
theorem Passes.not_fails {c : Call} (h : r.Passes c) (hc : ∀ e ∈ c.edges, e.Named) (f : Fault) :
    ¬r.Fails c f := by
  obtain ⟨opens, hopens, hheaders⟩ := h
  suffices hok : ∀ g, ∃ a, Recording.on (r.answer c) g = .ok a by
    rintro ⟨g, he⟩
    obtain ⟨a, ha⟩ := hok g
    rw [he] at ha
    cases ha
  intro g
  cases c with
  | pair into out =>
      have hi := hc into List.mem_cons_self
      have ho := hc out (List.mem_cons_of_mem _ List.mem_cons_self)
      unfold answer
      rw [on_addPair]
      refine Outcome.bind_isOk ⟨opens, hopens⟩ fun b hb => ?_
      obtain rfl : opens = b := Except.ok.inj (hopens.symm.trans hb)
      cases opens with
      | true => exact Outcome.bind_isOk (pairEntered_isOk hi ho (hheaders rfl) g) fun _ _ => ⟨_, rfl⟩
      | false => exact ⟨_, rfl⟩
  | edge e =>
      have he := hc e List.mem_cons_self
      obtain ⟨i, hi⟩ := he.relationship
      unfold answer
      rw [on_addEdge]
      refine Outcome.bind_isOk (hi ▸ g.containsRelationship_scalar i) fun known _ => ?_
      cases known with
      | true => exact ⟨_, rfl⟩
      | false =>
          refine Outcome.bind_isOk ⟨opens, hopens⟩ fun b hb => ?_
          obtain rfl : opens = b := Except.ok.inj (hopens.symm.trans hb)
          cases opens with
          | true => exact Outcome.bind_isOk (singleEntered_isOk he (hheaders rfl) g) fun _ _ => ⟨_, rfl⟩
          | false => exact ⟨_, rfl⟩

/-! ## 2. Vertices that can be looked at -/

/-- **The vertex can be looked at**: its id is a scalar, it is visible or not, and it has a
header. -/
structure Reads (r : Recorder) (v : Vertex) : Prop where
  id : ∃ s, v.id = .scalar s
  admits : ∃ b, r.context.admits v = .ok b
  header : ∃ hd, r.context.header v = .ok hd

/-- The edge can be looked at: both its ends can, and its relationship id is a scalar. -/
structure ReadsEdge (r : Recorder) (e : Edge) : Prop where
  source : r.Reads e.source
  target : r.Reads e.target
  relationship : ∃ s, e.relationshipId = .scalar s

theorem ReadsEdge.named {e : Edge} (h : r.ReadsEdge e) : e.Named :=
  ⟨h.source.id, h.target.id, h.relationship⟩

theorem relationOf_total {e : Edge} (h : r.ReadsEdge e) : ∃ x, r.relationOf e = .ok x := by
  obtain ⟨s, hs⟩ := h.source.id
  obtain ⟨t, ht⟩ := h.target.id
  obtain ⟨i, hi⟩ := h.relationship
  exact relationOf_isOk hs ht hi

theorem sees_isOk {v : Vertex} (h : r.Reads v) : ∃ b, r.sees v = .ok b := by
  unfold sees
  split
  · exact ⟨true, rfl⟩
  · exact h.admits

theorem opensPair_isOk {into out : Edge} (hi : r.Reads into.target) (ho : r.Reads out.target) :
    ∃ b, r.opensPair into out = .ok b := by
  unfold opensPair
  split
  · refine Outcome.bind_isOk ho.admits fun b _ => ?_
    cases b with
    | true => exact sees_isOk hi
    | false => exact ⟨false, rfl⟩
  · exact Outcome.bind_isOk (sees_isOk hi) fun b _ =>
      Outcome.bind_isOk (sees_isOk ho) fun b' _ => ⟨_, rfl⟩

/-- **A call for a pair of edges that can be looked at passes.** -/
theorem pair_passes {into out : Edge} (hi : r.ReadsEdge into) (ho : r.ReadsEdge out) :
    r.Passes (.pair into out) := by
  obtain ⟨b, hb⟩ := opensPair_isOk hi.target ho.target
  refine ⟨b, hb, fun _ v hv => ?_⟩
  have hends : v = into.target ∨ v = into.source ∨ v = out.target := by
    cases hm : r.context.hidesProcesses with
    | true =>
        rw [entrants_hidden _ _ hm] at hv
        simp only [List.mem_cons, List.not_mem_nil, or_false] at hv
        exact hv.imp_right .inr
    | false =>
        rw [entrants_expanded _ _ hm] at hv
        simpa only [List.mem_cons, List.not_mem_nil, or_false] using hv
  rcases hends with rfl | rfl | rfl
  · exact hi.target.header
  · exact hi.source.header
  · exact ho.target.header

/-- An edge that leaves the root is open. -/
theorem opensEdge_root {e : Edge} (h : r.context.isRoot e.source = true) :
    r.opensEdge e = .ok true := by
  unfold opensEdge justifies
  rw [h]
  rfl

/-- **A call for an open edge that can be looked at passes.** -/
theorem edge_passes {e : Edge} (h : r.ReadsEdge e) (ho : r.opensEdge e = .ok true) :
    r.Passes (.edge e) := by
  refine ⟨true, ho, fun _ v hv => ?_⟩
  rcases List.mem_cons.mp hv with rfl | hv
  · exact h.source.header
  · exact List.mem_singleton.mp hv ▸ h.target.header

end Recorder

/-! ## 3. Which vertices can be looked at -/

namespace Criterion

/-- **The criterion cannot be put to the vertex**: it asks a set there for what cannot be a member,
or a text for what cannot be written. -/
inductive Unfit (c : Criterion) (v : Vertex) : Prop where
  | members {members : List Scalar} (asks : c.operator = .contains)
      (actual : c.actual v = .ok (some (.set members)))
      (value : (∃ items, c.value = .list items) ∨ ∃ fields, c.value = .record fields)
  | text {s : String} (asks : c.operator = .startsWith ∨ c.operator = .contains)
      (actual : c.actual v = .ok (some (.text s))) (value : c.value.isWritable = false)

/-- Criteria of the other operators can be put to every vertex. -/
theorem fit_of_operator {c : Criterion}
    (h : ¬ (c.operator = .startsWith ∨ c.operator = .contains)) (v : Vertex) : ¬ c.Unfit v := by
  rintro (⟨hop, -, -⟩ | ⟨hop, -, -⟩)
  · exact h (.inr hop)
  · exact h hop

/-- A criterion whose attribute a scalar names looks at a value, or at none. -/
theorem actual_isOk {c : Criterion} (hs : ∃ k, c.subject.key = .ok k) (v : Vertex) :
    ∃ a, c.actual v = .ok a := by
  unfold actual
  split
  · exact ⟨_, rfl⟩
  · exact Outcome.bind_isOk hs fun k _ => ⟨_, rfl⟩

/-- What a criterion answers is what the test of the value it looks at answers. -/
theorem holds_eq {c : Criterion} {v : Vertex} {a : Option Value} (ha : c.actual v = .ok a) :
    c.holds v = test c.operator a c.value := by
  unfold holds
  rw [ha]
  rfl

/-- **A criterion can judge a vertex** if a scalar names its attribute and it can be put to the
vertex. -/
theorem holds_isOk {c : Criterion} {v : Vertex} (hs : ∃ k, c.subject.key = .ok k)
    (hfit : ¬ c.Unfit v) : ∃ b, c.holds v = .ok b := by
  obtain ⟨a, ha⟩ := actual_isOk hs v
  rw [holds_eq ha]
  cases htest : test c.operator a c.value with
  | ok b => exact ⟨b, rfl⟩
  | error e =>
      rcases test_eq_error htest with ⟨hop, ⟨members, rfl⟩, -, hv⟩ | ⟨hop, ⟨s, rfl⟩, -, hv⟩
      · exact absurd (.members hop ha hv) hfit
      · exact absurd (.text hop ha hv) hfit

/-- **A criterion that cannot be put to a vertex fails there.** -/
theorem Unfit.holds_error {c : Criterion} {v : Vertex} (h : c.Unfit v) :
    ∃ e, c.holds v = .error e := by
  obtain ⟨hop, ha, ⟨items, hv⟩ | ⟨fields, hv⟩⟩ | ⟨hop | hop, ha, hv⟩ := h
  · exact ⟨.wrongKind, by rw [holds_eq ha, hop, hv]; rfl⟩
  · exact ⟨.wrongKind, by rw [holds_eq ha, hop, hv]; rfl⟩
  all_goals
    refine ⟨.badValue, ?_⟩
    rw [holds_eq ha, hop]
    show c.value.written.map _ = _
    unfold Value.written
    rw [hv]
    rfl

end Criterion

/-- A vertex is judged by criteria of which each can judge it. -/
theorem admitsAll_isOk {cs : List Criterion} {v : Vertex}
    (h : ∀ c ∈ cs, ∃ b, c.holds v = .ok b) : ∃ b, admitsAll cs v = .ok b := by
  induction cs with
  | nil => exact ⟨true, rfl⟩
  | cons c rest ih =>
      unfold admitsAll
      refine Outcome.bind_isOk (h c List.mem_cons_self) fun b _ => ?_
      cases b with
      | true => exact ih fun c hc => h c (List.mem_cons_of_mem _ hc)
      | false => exact ⟨false, rfl⟩

/-- Is the vertex visible, shown by the projector and admitted by the criteria? -/
def Projector.admits (p : Projector) (cs : List Criterion) (v : Vertex) : Outcome Bool := do
  if ← p.visible v then admitsAll cs v else return false

/-- **Is the vertex visible?** The projector says so, and then the criteria. -/
theorem Projector.admits_isOk {p : Projector} {cs : List Criterion} {v : Vertex}
    (hp : ∃ b, p.visible v = .ok b) (hc : ∀ c ∈ cs, ∃ b, c.holds v = .ok b) :
    ∃ b, p.admits cs v = .ok b := by
  unfold admits
  refine Outcome.bind_isOk hp fun b _ => ?_
  cases b with
  | true => exact admitsAll_isOk hc
  | false => exact ⟨false, rfl⟩

/-- **A vertex has a header** where its classifications, if it states any, are a list. -/
theorem Context.header_isOk (c : Context) {v : Vertex}
    (hl : ∀ x, Record.get? v.properties "classifications" = some x → ∃ items, x = .list items) :
    ∃ hd, c.header v = .ok hd := by
  have hnames : ∃ r, Projector.attributes v (c.attributes.map .scalar) = .ok r := by
    have hm (names : List Scalar) :
        ∃ fs, (names.map Value.scalar).mapM (Projector.attributeOf v) = .ok fs := by
      induction names with
      | nil => exact ⟨[], rfl⟩
      | cons s rest ih =>
          rw [List.map_cons, List.mapM_cons]
          exact Outcome.bind_isOk ⟨_, rfl⟩ fun f _ => Outcome.bind_isOk ih fun fs _ => ⟨_, rfl⟩
    exact Outcome.bind_isOk (hm c.attributes) fun fs _ => ⟨_, rfl⟩
  have hclasses : ∃ items, (v.property "classifications").elementsOrNone = .ok items := by
    unfold Vertex.property Record.get
    cases hx : Record.get? v.properties "classifications" with
    | none => exact ⟨[], rfl⟩
    | some x =>
        obtain ⟨items, rfl⟩ := hl x hx
        cases items with
        | nil => exact ⟨[], rfl⟩
        | cons a rest => exact ⟨a :: rest, rfl⟩
  exact Outcome.bind_isOk hnames fun r _ => Outcome.bind_isOk hclasses fun items _ => ⟨_, rfl⟩

end DataLineage
