import DataLineage.Proofs.Merging.Laws
import DataLineage.Proofs.Walk.Traverse

/-!
# Families of graphs

Graphs are made side by side: a graph is started, something is entered into one of them, or one is
merged into another, in any order. A graph is merged entry by entry, and may be merged into itself,
so that what is read changes with what is entered.

* `LineageGraph.Operation`, `LineageGraph.family` -- sequences of such operations;
* `LineageGraph.entering_entries` -- merging changes one graph of the family;
* `LineageGraph.entering_own` -- **the graph that is merged stays as it is all the while**;
* `LineageGraph.family_made` -- what is known of graphs however they are made holds of families;
* `LineageGraph.merging_lawful` -- the laws of merging, for all graphs of all families.
-/

namespace DataLineage

/-! ## 1. Operations on a family -/

namespace LineageGraph

variable {gs : List LineageGraph} {g h : LineageGraph} {i j : Nat}

/-- **An operation on a family of graphs**, each of which is known by its place. -/
inductive Operation where
  /-- a graph of the given relations takes the next place -/
  | start (guid : Value) (direction : Direction) (depth : Value) (rs : List Relation)
  /-- something is entered into a graph -/
  | enter (i : Nat) (e : Entry)
  /-- the second graph is merged into the first -/
  | merge (i j : Nat)

/-- The family after something is entered into one of its graphs, one after the other. -/
def entering (gs : List LineageGraph) (i : Nat) (es : List Entry) : List LineageGraph :=
  es.foldl (fun gs e => gs.modify i (enter · e)) gs

/-- The family after an operation. One on a graph that is not there changes nothing. -/
def Operation.on (gs : List LineageGraph) : Operation → List LineageGraph
  | start guid direction depth rs => gs ++ [ofRelations guid direction depth rs]
  | enter i e => entering gs i [e]
  | merge i j =>
    match gs[j]? with
    | some h => entering gs i h.entries
    | none => gs

/-- **The family after a sequence of operations.** -/
def family (ops : List Operation) : List LineageGraph := ops.foldl Operation.on []

theorem family_concat (ops : List Operation) (op : Operation) :
    family (ops ++ [op]) = op.on (family ops) := List.foldl_concat ..

/-! ## 2. What an operation changes -/

/-- Only the graph at the place changes. -/
theorem entering_eq (gs : List LineageGraph) (i : Nat) (es : List Entry) :
    entering gs i es = gs.modify i fun g => es.foldl enter g := by
  unfold entering
  induction es generalizing gs with
  | nil => exact (List.modify_id i gs).symm
  | cons e rest ih =>
      rw [List.foldl_cons, ih, List.modify_modify_eq]
      rfl

/-- **Merging enters what the second graph has** into the first one. -/
theorem Operation.on_merge (hj : gs[j]? = some h) :
    (Operation.merge i j).on gs = entering gs i h.entries := by
  show (match gs[j]? with | some h => entering gs i h.entries | none => gs) = _
  rw [hj]

/-- It changes one graph, to its union with the other. -/
theorem entering_entries (gs : List LineageGraph) (i : Nat) (h : LineageGraph) :
    entering gs i h.entries = gs.modify i fun g => g.merge h := by
  simp only [entering_eq, merge_eq_enter]

/-- **The graph that is merged stays as it is all the while**, also where it is merged into
itself. -/
theorem entering_own (hh : h.Settled) (hj : gs[j]? = some h) {es : List Entry}
    (hes : ∀ e ∈ es, e ∈ h.entries) : (entering gs i es)[j]? = some h := by
  rw [entering_eq, List.getElem?_modify, hj]
  split
  · exact congrArg some (hh.enterAll_own hes)
  · rfl

/-! ## 3. The graphs of a family -/

theorem Made.enter (hg : g.Made) (e : Entry) : (g.enter e).Made := by
  cases e with
  | header id hd => exact .entity id hd hg
  | relation x => exact .relation x hg

/-- Every graph of the family is made by the operations on single graphs. -/
def AllMade (gs : List LineageGraph) : Prop := ∀ g ∈ gs, g.Made

theorem AllMade.modify (hgs : AllMade gs) (i : Nat) {f : LineageGraph → LineageGraph}
    (hf : ∀ g, g.Made → (f g).Made) : AllMade (gs.modify i f) := by
  intro g hg
  obtain ⟨l, hl⟩ := List.mem_iff_getElem?.mp hg
  rw [List.getElem?_modify] at hl
  obtain ⟨g₀, hg₀, rfl⟩ := Option.map_eq_some_iff.mp hl
  have hmade := hgs g₀ (List.mem_of_getElem? hg₀)
  split
  · exact hf g₀ hmade
  · exact hmade

/-- **What one operation keeps.** -/
theorem AllMade.on (hgs : AllMade gs) (op : Operation) : AllMade (op.on gs) := by
  cases op with
  | start guid direction depth rs =>
      intro g hg
      rcases List.mem_append.mp hg with hg | hg
      · exact hgs g hg
      · rw [List.mem_singleton.mp hg]
        exact .start guid direction depth rs
  | enter i e =>
      show AllMade (entering gs i [e])
      rw [entering_eq]
      exact hgs.modify i fun g hg => hg.enter e
  | merge i j =>
      cases hj : gs[j]? with
      | none =>
          show AllMade (match gs[j]? with | some h => entering gs i h.entries | none => gs)
          rw [hj]
          exact hgs
      | some h =>
          rw [Operation.on_merge hj, entering_entries]
          exact hgs.modify i fun g hg => hg.merge (hgs h (List.mem_of_getElem? hj))

/-- **What any operations keep**, by induction on the operations. -/
theorem family_made (ops : List Operation) : AllMade (family ops) := by
  have fold (gs : List LineageGraph) (hgs : AllMade gs) : AllMade (ops.foldl Operation.on gs) := by
    induction ops generalizing gs with
    | nil => exact hgs
    | cons op rest ih => exact ih _ (hgs.on op)
  exact fold [] nofun

theorem family_settled {ops : List Operation} (hg : g ∈ family ops) : g.Settled :=
  (family_made ops g hg).settled

end LineageGraph

/-- **The union of results that miss nothing misses nothing.** -/
theorem Context.missingEntities_aggregate (c : Context) {results : List LineageGraph}
    (h : ∀ l ∈ results, l.missingEntities = []) : (c.aggregate results).missingEntities = [] := by
  have hmerged : (aggregate.merged c results).missingEntities = [] :=
    merged_keeps (P := fun l => l.missingEntities = [])
      (fun _ _ hg hl => LineageGraph.missingEntities_merge hg hl) rfl h
  unfold aggregate
  split
  · exact hmerged
  · exact h _ (List.mem_singleton_self _)
  · exact hmerged

/-! ## 4. Graphs merged in any order -/

namespace LineageGraph

/-- **Graphs stay consistent however they are merged.** In every family of graphs, those
relationships are contained that relations carry. It does not matter which two of three graphs are
merged first, and merging a graph into itself, or a second time, changes nothing. A union has the
relations of both graphs, so that merged either way two graphs have the same relations and contain
the same relationships. An entity has the header of the graph that is merged, if that has one, and
otherwise the one that it had. A union misses what one of the graphs misses and neither has, so that
the union of graphs that miss nothing misses nothing. And merging changes the graph that is merged
into and no other one: the graph that is merged is the same after every part of it was entered, even
where it is merged into itself. -/
theorem merging_lawful (ops : List Operation) :
    (∀ g ∈ family ops, ∀ s : Scalar, ∃ b, g.containsRelationship (.scalar s) = .ok b ∧
      (b = true ↔ s ≠ .null ∧ ∃ x ∈ g.relations, x.relationshipId.key = s.key)) ∧
    (∀ g ∈ family ops, ∀ h ∈ family ops,
      ((∀ k ∈ family ops, (g.merge h).merge k = g.merge (h.merge k)) ∧
        g.merge g = g ∧ (g.merge h).merge h = g.merge h) ∧
      ((∀ x, (g.merge h).hasRelation x = true ↔ g.hasRelation x = true ∨ h.hasRelation x = true) ∧
        (∀ x, (g.merge h).hasRelation x = (h.merge g).hasRelation x) ∧
        ∀ id, (g.merge h).containsRelationship id = (h.merge g).containsRelationship id) ∧
      (∀ id, (g.merge h).entities.get? id = (h.entities.get? id).or (g.entities.get? id)) ∧
      (∀ s, (g.merge h).Misses s ↔
        (g.Misses s ∨ h.Misses s) ∧ g.hasEntity s = false ∧ h.hasEntity s = false) ∧
      (g.missingEntities = [] → h.missingEntities = [] → (g.merge h).missingEntities = [])) ∧
    (∀ (c : Context) (results : List LineageGraph), (∀ l ∈ results, l.missingEntities = []) →
      (c.aggregate results).missingEntities = []) ∧
    ∀ i j g h, (family ops)[i]? = some g → (family ops)[j]? = some h →
      (∀ n, (entering (family ops) i (h.entries.take n))[j]? = some h) ∧
      (family (ops ++ [.merge i j]))[j]? = some h ∧
      (family (ops ++ [.merge i j]))[i]? = some (g.merge h) ∧
      ∀ l, l ≠ i → (family (ops ++ [.merge i j]))[l]? = (family ops)[l]? := by
  refine ⟨fun g hg => (family_settled hg).indexed.contains_iff, fun g hg h hh => ?_,
    fun c _ => c.missingEntities_aggregate, fun i j g h hi hj => ?_⟩
  · have hg := family_settled hg
    have hh := family_settled hh
    have hsame := merge_sameRelations g h
    exact ⟨⟨fun k _ => hg.merge_assoc hh k, hg.merge_self, hg.merge_twice hh⟩,
      ⟨fun _ => hasRelation_merge, hsame, hsame.containsRelationship (hg.merge h) (hh.merge g)⟩,
      get?_merge hh.once, fun _ => misses_merge, missingEntities_merge⟩
  · have hh := family_settled (List.mem_of_getElem? hj)
    rw [family_concat, Operation.on_merge hj]
    refine ⟨fun n => entering_own hh hj fun _ he => List.mem_of_mem_take he,
      entering_own hh hj fun _ he => he, ?_, fun l hl => ?_⟩
    · rw [entering_entries, List.getElem?_modify_eq, hi]
      rfl
    · rw [entering_entries, List.getElem?_modify_ne _ _ hl.symm]

/-! ## 5. Two graphs that share an entity -/

namespace Shared

/-- The header of a table with a name. -/
def header (id name : String) : EntityHeader where
  guid := .text id
  typeName := .text "Table"
  status := EntityHeader.activeStatus
  displayText := .text name
  attributes := .record []
  classificationNames := .list []

/-- A relation that is read from a relationship. -/
def flow (relationshipId source target : String) : Relation :=
  ⟨.text source, .text target, .text relationshipId, .null⟩

/-- What leads to `p`. -/
def upstream : LineageGraph :=
  ((ofRelations (.text "p") .input (.int 1) [flow "1" "x" "p"]).putEntity (.text "x")
    (header "x" "old")).putEntity (.text "p") (header "p" "p")

/-- What `p` leads to, and the relation to `p` again. -/
def downstream : LineageGraph :=
  ((((ofRelations (.text "p") .output (.int 1) [flow "2" "p" "y"]).putEntity (.text "p")
    (header "p" "p")).putEntity (.text "y") (header "y" "y")).addRelation
      (flow "1" "x" "p")).putEntity (.text "x") (header "x" "new")

/-- Operations that make both, in turns. -/
def ops : List Operation := [
  .start (.text "p") .input (.int 1) [flow "1" "x" "p"],
  .start (.text "p") .output (.int 1) [flow "2" "p" "y"],
  .enter 1 (.header (.text "p") (header "p" "p")),
  .enter 0 (.header (.text "x") (header "x" "old")),
  .enter 1 (.header (.text "y") (header "y" "y")),
  .enter 1 (.relation (flow "1" "x" "p")),
  .enter 0 (.header (.text "p") (header "p" "p")),
  .enter 1 (.header (.text "x") (header "x" "new"))]

theorem family_ops : family ops = [upstream, downstream] := rfl

end Shared

open Shared in
/-- The header that both graphs have is that of the one that is merged. Merged into itself, a graph
stays as it is. -/
theorem merging_lawful_shared :
    (family ops)[0]? = some upstream ∧ (family ops)[1]? = some downstream ∧
      (upstream.missingEntities = [] ∧ downstream.missingEntities = [] ∧
        (upstream.merge downstream).missingEntities = []) ∧
      (upstream.merge downstream).entities.get? (.text "x") = some (header "x" "new") ∧
      (downstream.merge upstream).entities.get? (.text "x") = some (header "x" "old") ∧
      upstream.containsRelationship (.text "1") = .ok true ∧
      (family (ops ++ [.merge 0 1]))[0]? = some (upstream.merge downstream) ∧
      (family (ops ++ [.merge 0 1]))[1]? = some downstream ∧
      (family (ops ++ [.merge 1 1]))[1]? = some downstream := by
  have h0 : (family ops)[0]? = some upstream := by rw [family_ops]; rfl
  have h1 : (family ops)[1]? = some downstream := by rw [family_ops]; rfl
  have hup := List.mem_of_getElem? h0
  have hdown := List.mem_of_getElem? h1
  have hclosed : upstream.missingEntities = [] ∧ downstream.missingEntities = [] := ⟨rfl, rfl⟩
  obtain ⟨hcontains, hlaws, -, hmerge⟩ := merging_lawful ops
  obtain ⟨-, -, hheaders, -, hmissing⟩ := hlaws upstream hup downstream hdown
  obtain ⟨-, -, hheaders', -⟩ := hlaws downstream hdown upstream hup
  obtain ⟨-, h01, h00, -⟩ := hmerge 0 1 _ _ h0 h1
  obtain ⟨-, h11, -⟩ := hmerge 1 1 _ _ h1 h1
  obtain ⟨b, hb, hiff⟩ := hcontains upstream hup (.text "1")
  have hcarried : b = true := hiff.mpr ⟨nofun, flow "1" "x" "p", List.mem_cons_self, rfl⟩
  exact ⟨h0, h1, ⟨hclosed.1, hclosed.2, hmissing hclosed.1 hclosed.2⟩, hheaders _, hheaders' _,
    hcarried ▸ hb, h00, h01, h11⟩

end LineageGraph

end DataLineage
