import DataLineage.Lineage.Graph

/-!
# Steps of recording

A step of recording enters something into a lineage graph, and it can fail. What it entered before
it failed stays entered, so that the next step goes on from there. `Recording.on` gives the answer
of a step together with the graph after it, `Recording.left` the graph alone.

* `Recording.on_pure`, `Recording.on_bind`, `Recording.on_ofExcept` -- how steps are made of steps.
* `Recording.on_put` -- what a step that enters something leaves behind.
-/

namespace DataLineage

/-- **A step of recording**: it changes a lineage graph and answers something, or fails. -/
abbrev Recording := ExceptT Fault (StateM LineageGraph)

namespace Recording

variable {α β : Type}

/-- The answer of a step on a graph and the graph after it, or the fault of the step. -/
def on (x : Recording α) (g : LineageGraph) : Outcome (α × LineageGraph) :=
  match x.run.run g with
  | (.ok a, g') => .ok (a, g')
  | (.error e, _) => .error e

/-- The graph that a step leaves behind, whether it fails or not. -/
def left (x : Recording α) (g : LineageGraph) : LineageGraph := (x.run.run g).2

/-- The step that changes the graph. -/
def put (f : LineageGraph → LineageGraph) : Recording Unit := modify f

theorem on_pure (a : α) (g : LineageGraph) : on (pure a) g = .ok (a, g) := rfl

theorem on_get (g : LineageGraph) : on get g = .ok (g, g) := rfl

/-- A step that enters something answers nothing. -/
theorem on_put (f : LineageGraph → LineageGraph) (g : LineageGraph) :
    on (put f) g = .ok ((), f g) := rfl

/-- What is worked out without the graph leaves the graph alone. -/
theorem on_ofExcept (x : Outcome α) (g : LineageGraph) :
    on (MonadExcept.ofExcept x) g = x.map fun a => (a, g) := by
  cases x <;> rfl

/-- **The second of two steps goes on with the graph of the first.** -/
theorem on_bind (x : Recording α) (f : α → Recording β) (g : LineageGraph) :
    on (x >>= f) g = (on x g).bind fun p => on (f p.1) p.2 := by
  unfold on
  rw [ExceptT.run_bind, StateT.run_bind]
  rcases x.run.run g with ⟨r, g'⟩
  cases r <;> rfl

end Recording

end DataLineage
