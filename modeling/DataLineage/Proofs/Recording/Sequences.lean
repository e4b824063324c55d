import DataLineage.Proofs.Database.Sent
import DataLineage.Proofs.Lineage.Exact
import DataLineage.Proofs.Recording.Consistent
import DataLineage.Proofs.Walk.Explore

/-!
# Sequences of calls

A recorder can be called in four ways, in any order and for any edges, and calls may fail:

* `Recorder.Entry`, `Recorder.take` -- the ways to call a recorder;
* `Recorder.take_grows` -- **every call leaves a consistent graph that extends the one before**;
* `Recorder.after`, `Recorder.after_grows` -- and so does every sequence of calls;
* `Results`, `Walker.walk_consistent` -- a walk makes such calls, over any store and in any monad;
* `Recorder.calls_consistent` -- what holds after every call, and of the result of every walk.
-/

namespace DataLineage

/-! ## 1. Calls in any order -/

namespace Recorder

variable {r : Recorder} {joined : Prop} {g g' : LineageGraph}

/-- **A call of a recorder.** -/
inductive Entry where
  /-- for a single edge -/
  | edge (e : Edge)
  /-- for both edges of a pair -/
  | edges (into out : Edge)
  /-- for a pair through its hidden process -/
  | hidden (into out : Edge)
  /-- for a pair in the mode that the request asks for -/
  | pair (into out : Edge)
  deriving Repr, Inhabited

/-- The edges of a pair leave the same process. -/
def Entry.Joined : Entry → Prop
  | edge _ => True
  | edges into out | hidden into out | pair into out => into.source.id.key = out.source.id.key

/-- The step that a call makes; it answers whether it was skipped. -/
def take (r : Recorder) : Entry → Recording Bool
  | .edge e => r.addEdge e
  | .edges into out => r.addEdges into out
  | .hidden into out => r.addHidden into out
  | .pair into out => r.addPair into out

/-- The edges that a call is to record as they are, are represented in the graph after it. -/
def Represented (r : Recorder) (g g' : LineageGraph) : Entry → Prop
  | .edge e => r.Represents g g' [] e
  | .edges into out => r.Represents g g' [] into ∧ r.Represents g g' [into] out
  | .hidden _ _ => True
  | .pair into out => r.context.hidesProcesses = false →
      r.Represents g g' [] into ∧ r.Represents g g' [into] out

/-- **Every call leaves a consistent graph that extends the one before.** One that is skipped leaves
it alone, and one that is not leaves its edges represented. -/
theorem take_grows (r : Recorder) (hg : g.Consistent joined) (c : Entry) (hc : joined → c.Joined) :
    (r.take c).Grows joined g fun skipped g' =>
      (skipped = true → g' = g) ∧ (skipped = false → r.Represented g g' c) := by
  cases c with
  | edge e => exact r.addEdge_grows hg e
  | edges into out => exact r.addEdges_grows hg into out hc
  | hidden into out => exact (r.addHidden_grows hg into out).mono fun _ _ h => ⟨h, fun _ => trivial⟩
  | pair into out =>
      show (r.addPair into out).Grows joined g _
      cases hmode : r.context.hidesProcesses with
      | true =>
          rw [r.addPair_hidden _ _ hmode]
          refine (r.addHidden_grows hg into out).mono fun _ _ h => ⟨h, fun _ hexpanded => ?_⟩
          exact Bool.noConfusion (hmode.symm.trans hexpanded)
      | false =>
          rw [r.addPair_expanded _ _ hmode]
          exact (r.addEdges_grows hg into out hc).mono fun _ _ h => ⟨h.1, fun hs _ => h.2 hs⟩

/-- The graph that calls leave behind, one after the other, whether they fail or not. -/
def after (r : Recorder) (g : LineageGraph) (cs : List Entry) : LineageGraph :=
  cs.foldl (fun g c => Recording.left (r.take c) g) g

/-- **So does every sequence of calls.** -/
theorem after_grows (r : Recorder) (hg : g.Consistent joined) (cs : List Entry)
    (hcs : ∀ c ∈ cs, joined → c.Joined) :
    (r.after g cs).Consistent joined ∧ g.Extends (r.after g cs) := by
  induction cs generalizing g with
  | nil => exact ⟨hg, .refl g⟩
  | cons c rest ih =>
      obtain ⟨hg₁, hext⟩ := (r.take_grows hg c (hcs c List.mem_cons_self)).left
      obtain ⟨hg₂, hext'⟩ := ih hg₁ fun c hc => hcs c (List.mem_cons_of_mem _ hc)
      exact ⟨hg₂, hext.trans hext'⟩

end Recorder

/-! ## 2. Walks -/

/-- **What can be said of all results of a computation**, in a monad in which it can fail. -/
structure Results (m : Type → Type) [Monad m] [MonadExceptOf Fault m] where
  Always {α : Type} (Q : α → Prop) (x : m α) : Prop
  any {α : Type} (x : m α) : Always (fun _ => True) x
  pure {α : Type} {Q : α → Prop} {a : α} (h : Q a) : Always Q (pure a)
  value {α : Type} {Q : α → Prop} {x : Outcome α} (h : ∀ a, x = .ok a → Q a) :
    Always Q (MonadExcept.ofExcept x)
  bind {α β : Type} {P : α → Prop} {Q : β → Prop} {x : m α} {f : α → m β} (hx : Always P x)
    (hf : ∀ a, P a → Always Q (f a)) : Always Q (x >>= f)

namespace Results

/-- The results of a computation without a database. -/
def outcome : Results Outcome where
  Always Q x := ∀ a, x = .ok a → Q a
  any _ _ _ := trivial
  pure h _ ha := by
    cases ha
    exact h
  value h a ha := h a (by rwa [Walker.ofExcept_eq] at ha)
  bind hx hf b hb := by
    obtain ⟨a, ha, hb⟩ := Outcome.bind_eq_ok.mp hb
    exact hf a (hx a ha) b hb

/-- The results of a session, over every connection. -/
def session : Results Session where
  Always Q x := ∀ conn a conn', x.run.run conn = (.ok a, conn') → Q a
  any _ _ _ _ _ := trivial
  pure h _ _ _ hrun := by
    cases hrun
    exact h
  value {_ _ x} h _ a _ hrun := by
    cases x with
    | error e => cases hrun
    | ok a =>
        cases hrun
        exact h a rfl
  bind {_ _ _ _ x f} hx hf conn b conn' hrun := by
    rcases hfirst : x.run.run conn with ⟨result, conn₁⟩
    cases result with
    | error e =>
        rw [Session.bind_of_error hfirst] at hrun
        cases hrun
    | ok a =>
        rw [Session.bind_of_ok hfirst] at hrun
        exact hf a (hx conn a conn₁ hfirst) conn₁ b conn' hrun

variable {m : Type → Type} [Monad m] [MonadExceptOf Fault m]

/-- What every step keeps, a fold keeps. -/
theorem foldlM (R : Results m) {α β : Type} {Q : β → Prop} {f : β → α → m β}
    (h : ∀ b a, Q b → R.Always Q (f b a)) (l : List α) {b : β} (hb : Q b) :
    R.Always Q (l.foldlM f b) := by
  induction l generalizing b with
  | nil => exact R.pure hb
  | cons a rest ih => exact R.bind (h b a hb) fun _ hb' => ih hb'

end Results

namespace Walker

variable {m : Type → Type} [Monad m] [MonadExceptOf Fault m] (R : Results m) (w : Walker m)
  {r : Recorder}

theorem takePair_consistent {visited : List Key} {budget : HopBudget} {into out : Edge}
    {h h' : Harvest} (hh : h.lineage.Consistent False)
    (htake : takePair r visited budget into h out = .ok h') : h'.lineage.Consistent False := by
  obtain ⟨⟨skipped, lineage⟩, hpair, htake⟩ := Outcome.bind_eq_ok.mp htake
  have hlineage : lineage.Consistent False := (r.take_grows hh (.pair into out) False.elim).on hpair
  cases skipped with
  | true =>
      cases htake
      exact hlineage
  | false =>
      obtain ⟨k, _, htake⟩ := Outcome.bind_eq_ok.mp htake
      split at htake <;> cases htake <;> exact hlineage

theorem takeProcess_consistent (visited : List Key) (budget : HopBudget) (outLabel : Value)
    (h : Harvest) (into : Edge) (hh : h.lineage.Consistent False) :
    R.Always (fun h => h.lineage.Consistent False)
      (w.takeProcess r visited budget outLabel h into) :=
  R.bind (R.any _) fun _ _ => R.value fun _ hfold =>
    Outcome.foldlM_keeps (P := fun h => h.lineage.Consistent False)
      (fun _ _ _ _ hh htake => takePair_consistent hh htake) hh hfold

theorem expand_consistent (backward : Bool) (visited : List Key) (p : Pending)
    {g : LineageGraph} (hg : g.Consistent False) :
    R.Always (fun h => h.lineage.Consistent False) (w.expand r backward visited p g) :=
  R.bind (R.any _) fun ins _ => R.foldlM (w.takeProcess_consistent R visited _ _) ins hg

/-- **Expanding what waits keeps the graph consistent**, as every expansion does. -/
theorem run_consistent (backward : Bool) (remaining : Nat) {s : WalkState}
    (hs : s.lineage.Consistent False) :
    R.Always (fun s => s.lineage.Consistent False) (w.run r backward remaining s) := by
  induction remaining generalizing s with
  | zero => exact R.pure hs
  | succ n ih =>
      refine R.bind (R.any _) fun next _ => ?_
      cases next with
      | none => exact R.pure hs
      | some next =>
          obtain ⟨p, key, rest⟩ := next
          exact R.bind (R.any _) fun budget _ =>
            R.bind (w.expand_consistent R backward _ p hs) fun h hh => ih hh

theorem takeRootEdge_consistent (c : Context) (backward : Bool) (s : LineageGraph × VertexBudget)
    (e : Edge) (hs : s.1.Consistent False) :
    R.Always (fun s => s.1.Consistent False) (w.takeRootEdge c backward s e) := by
  have hedge : R.Always (fun p : Bool × LineageGraph => p.2.Consistent False)
      (MonadExcept.ofExcept (Recording.on ((w.recorder c).addEdge e) s.1)) :=
    R.value fun p hp => ((w.recorder c).addEdge_grows hs e).on hp
  exact R.bind hedge fun p hp => R.bind (w.run_consistent R backward _ hp) fun _ hs' => R.pure hs'

/-- **A walk makes a consistent graph**, over any store. -/
theorem walk_consistent (c : Context) (direction : Direction) (budget : VertexBudget) :
    R.Always (fun s => s.1.Consistent False) (w.walk c direction budget) := by
  have hempty := LineageGraph.Consistent.empty False c.guid direction c.requestedDepth
  unfold walk
  dsimp only
  split
  · exact R.bind (w.run_consistent R _ _ hempty) fun _ hs => R.pure hs
  · exact R.bind (R.any _) fun edges _ => R.foldlM (w.takeRootEdge_consistent R c _) edges hempty

end Walker

/-! ## 3. What holds after every call -/

namespace Recorder

/-- **What holds after every call.** From an empty graph on, calls for any edges leave a graph in
which the ends of all relations have headers, no two relations carry the same relationship id, and
those that are contained are those that relations carry. One more call removes nothing and replaces
no header; it leaves the graph alone if it answers that it was skipped, and otherwise represents the
edges that it is to record. So no walk reports a relationship id twice, over any store. -/
theorem calls_consistent (r : Recorder) (guid : Value) (direction : Direction) (depth : Value)
    (cs : List Entry) (hcs : ∀ c ∈ cs, c.Joined) :
    let start := LineageGraph.empty guid direction depth
    let g := r.after start cs
    (g.Closed ∧ g.missingEntities = [] ∧
      (g.relations.Pairwise fun x y =>
        x.relationshipId ≠ .null → x.relationshipId.key ≠ y.relationshipId.key) ∧
      ∀ s, ∃ b, g.containsRelationship (.scalar s) = .ok b ∧
        (b = true ↔ s ≠ .null ∧ ∃ x ∈ g.relations, x.relationshipId.key = s.key)) ∧
    (∀ c : Entry, c.Joined → ∃ result g', (r.take c).run.run g = (result, g') ∧
      g' = r.after start (cs ++ [c]) ∧ g.Extends g' ∧
      (∀ id hd, g.entities.get? id = some hd → g'.entities.get? id = some hd) ∧
      (result = .ok true → g' = g) ∧ (result = .ok false → r.Represented g g' c)) ∧
    (∀ (w : Walker Outcome) c d b s, w.walk c d b = .ok s → s.1.relations.Pairwise fun x y =>
      x.relationshipId ≠ .null → x.relationshipId.key ≠ y.relationshipId.key) ∧
    ∀ (w : Walker Session) c d b conn s conn', (w.walk c d b).run.run conn = (.ok s, conn') →
      s.1.relations.Pairwise fun x y =>
        x.relationshipId ≠ .null → x.relationshipId.key ≠ y.relationshipId.key := by
  intro start g
  have hstart : start.Consistent True := .empty True guid direction depth
  obtain ⟨hg, _⟩ := r.after_grows hstart cs fun c hc _ => hcs c hc
  have hclosed : g.Closed := hg.closed trivial
  refine ⟨⟨hclosed, LineageGraph.missingEntities_eq_nil hclosed, hg.once, hg.contains_iff⟩,
    fun c hc => ?_, fun w c d b s hs => ?_, fun w c d b conn s conn' hs => ?_⟩
  · obtain ⟨result, g', hrun, _, hext, hanswer⟩ := r.take_grows hg c fun _ => hc
    refine ⟨result, g', hrun, ?_, hext, fun _ _ => hext.header, fun hskipped => ?_, fun hnot => ?_⟩
    · unfold after
      rw [List.foldl_append, List.foldl_cons, List.foldl_nil]
      show g' = Recording.left (r.take c) g
      unfold Recording.left
      rw [hrun]
    · exact (hanswer true hskipped).1 rfl
    · exact (hanswer false hnot).2 rfl
  · exact (w.walk_consistent .outcome c d b s hs).once
  · exact (w.walk_consistent .session c d b conn s conn' hs).once

end Recorder

namespace Loop

/-- The recorder for the request, for which one visible dataset of a pair is enough. -/
def recorder : Recorder := ⟨context, taxonomy, false⟩

/-- The two edges of `p` in the way of the data, a pair through the hidden `q`, and an edge of `q`
that has the relationship id of the first one. -/
def calls : List Recorder.Entry := [
  .edges (edge "1" "reads" "p" "y") (edge "3" "writes" "p" "x"),
  .hidden (edge "4" "reads" "q" "x") (edge "5" "writes" "q" "z"),
  .edge (edge "1" "writes" "q" "z")]

theorem calls_joined : ∀ c ∈ calls, c.Joined := by
  simp only [calls, List.forall_mem_cons]
  exact ⟨rfl, rfl, trivial, nofun⟩

/-- What the calls record. -/
def recorded : List Relation := [⟨.text "y", .text "p", .text "1", .null⟩,
  ⟨.text "p", .text "x", .text "3", .null⟩, ⟨.text "x", .text "z", .null, .text "q"⟩]

theorem after_calls : (recorder.after (.empty (.text "y") .output (.int 0)) calls).relations =
    recorded := by cbv

end Loop

namespace Recorder

/-- The last call finds its relationship id in use, so that the edge of `q` is represented by that
of `p`; and a pair through a hidden process uses no ids. -/
theorem calls_consistent_loop :
    let g := Loop.recorder.after (.empty (.text "y") .output (.int 0)) Loop.calls
    g.relations = Loop.recorded ∧ g.Closed ∧ g.missingEntities = [] ∧
      g.containsRelationship (.text "1") = .ok true ∧
      g.containsRelationship (.text "4") = .ok false := by
  intro g
  obtain ⟨⟨hclosed, hmissing, _, hcontains⟩, _⟩ :=
    calls_consistent Loop.recorder (.text "y") .output (.int 0) Loop.calls Loop.calls_joined
  have hrelations : g.relations = Loop.recorded := Loop.after_calls
  refine ⟨hrelations, hclosed, hmissing, ?_, ?_⟩
  · obtain ⟨b, hb, hiff⟩ := hcontains (.text "1")
    have hcarried : b = true := hiff.mpr ⟨nofun, ⟨.text "y", .text "p", .text "1", .null⟩,
      hrelations ▸ List.mem_cons_self, rfl⟩
    exact hcarried ▸ hb
  · obtain ⟨b, hb, hiff⟩ := hcontains (.text "4")
    have hfree : b = false := by
      rw [← Bool.not_eq_true, hiff]
      rintro ⟨_, x, hx, hkey⟩
      have hx : x ∈ Loop.recorded := hrelations ▸ hx
      simp only [Loop.recorded, List.mem_cons, List.not_mem_nil, or_false] at hx
      rcases hx with rfl | rfl | rfl <;> revert hkey <;> decide
    exact hfree ▸ hb

end Recorder

end DataLineage
