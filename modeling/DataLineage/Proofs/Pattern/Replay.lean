import DataLineage.Proofs.Graph.Answered
import DataLineage.Proofs.Walk.Traverse

/-!
# Walks over answered edges

A walk over what a database answers is a walk over the graph of the answered edges.

* `Walker.replaying` -- the walker over an answer graph;
* `Walker.walkAnswer_ok` -- a walk that ends has made a pattern, got an answer to it, and walked
  over the edges that the graph of the answer keeps;
* `Walker.walkAnswer_eq` -- where the answer makes a graph, the walk is the one over that graph.
-/

namespace DataLineage

namespace Walker

/-- The walker over an answer graph. -/
def replaying (w : Walker Outcome) (a : AnswerGraph) : Walker Outcome :=
  ⟨a.access, w.taxonomy, w.requireBoth, w.maxVertices⟩

variable {w : Walker Outcome} {c : Context} {direction : Direction} {x₀ : VertexBudget}

/-- **A walk over an answer is a walk over the graph of the answered edges.** -/
theorem walkAnswer_eq {p : LineagePattern} {edges : List Edge} {a : AnswerGraph}
    (hp : LineagePattern.make w.taxonomy c.guid direction c.depth c.isDataset = .ok p)
    (he : w.graph.runScript p.script = .ok edges) (ha : AnswerGraph.ofEdges edges = .ok a) :
    w.walkAnswer c direction x₀ = (w.replaying a).walk c direction x₀ := by
  unfold walkAnswer
  rw [hp]
  show (w.graph.runScript p.script >>= _) = _
  rw [he, Outcome.ok_bind, ofExcept_eq, ha, Outcome.ok_bind]
  rfl

/-- A walk over an answer that ends has made a pattern, and has walked over edges of the answer to
it. -/
theorem walkAnswer_ok {l : LineageGraph} {x : VertexBudget}
    (h : w.walkAnswer c direction x₀ = .ok (l, x)) :
    ∃ p edges a es, LineagePattern.make w.taxonomy c.guid direction c.depth c.isDataset = .ok p ∧
      w.graph.runScript p.script = .ok edges ∧ a.Keeps es ∧ (∀ e ∈ es, e ∈ edges) ∧
        (w.replaying a).walk c direction x₀ = .ok (l, x) := by
  have h' := h
  unfold walkAnswer at h
  cases hp : LineagePattern.make w.taxonomy c.guid direction c.depth c.isDataset with
  | error f =>
      rw [hp] at h
      cases h
  | ok p =>
      rw [hp] at h
      obtain ⟨p, hok, h⟩ := Outcome.bind_eq_ok.mp h
      cases hok
      obtain ⟨edges, he, h⟩ := Outcome.bind_eq_ok.mp h
      rw [ofExcept_eq] at h
      obtain ⟨a, ha, _⟩ := Outcome.bind_eq_ok.mp h
      obtain ⟨es, hkeeps, hsub, _⟩ := AnswerGraph.ofEdges_keeps ha
      rw [walkAnswer_eq hp he ha] at h'
      exact ⟨p, edges, a, es, rfl, he, hkeeps, hsub, h'⟩

end Walker

end DataLineage
