import DataLineage.Proofs.Request.Context
import DataLineage.Service

/-!
# What a service does with a request

A request that has a context is resolved by one of the two strategies, and nothing else decides:

* `Service.info_eq` -- **the answer to a request that has a context**;
* `Service.info_ok`, `Service.resolve_ok` -- a request that is resolved has a context, and the
  lineage of it.
-/

namespace DataLineage

namespace Service

variable {s : Service Outcome} {req : LineageRequest} {c : Context} {res : Resolution}

/-- The lineage of a context, by the strategy that the service uses for it. -/
def lineageOf (s : Service Outcome) (c : Context) : Outcome LineageGraph :=
  if s.usesPattern c then s.walker.traverseAnswers c else s.walker.traverse c

/-- **The answer to a request that has a context** is the lineage of this, or its fault. -/
theorem info_eq (h : req.context s.policy s.graph = .ok c) :
    s.info req = s.lineageOf c >>= fun lineage => .ok ⟨c, lineage⟩ := by
  have hc : s.context req = .ok c := h
  unfold info lineageOf
  rw [hc, Outcome.ok_bind]
  by_cases hp : s.usesPattern c = true
  · simp only [hp, if_true]
    rfl
  · simp only [hp]
    rfl

/-- A request that is resolved has a context, and the lineage of it. -/
theorem info_ok (h : s.info req = .ok res) :
    req.context s.policy s.graph = .ok res.context ∧ s.lineageOf res.context = .ok res.lineage := by
  have h' := h
  obtain ⟨c, hc, _⟩ := Outcome.bind_eq_ok.mp h'
  rw [info_eq hc] at h
  obtain ⟨lineage, hl, h⟩ := Outcome.bind_eq_ok.mp h
  cases h
  exact ⟨hc, hl⟩

/-- A request whose collections are read first is resolved like one with the collections read. -/
theorem resolve_ok (h : s.resolve req = .ok res) :
    ∃ req', req'.guid = req.guid ∧ s.info req' = .ok res := by
  obtain ⟨attributes, _, h⟩ := Outcome.bind_eq_ok.mp h
  obtain ⟨filters, _, h⟩ := Outcome.bind_eq_ok.mp h
  refine ⟨_, ?_, h⟩
  rfl

end Service

end DataLineage
