import DataLineage.Proofs.Graph.Exchanged
import DataLineage.Proofs.Lineage.Limited
import DataLineage.Proofs.Request.Alike

/-!
# Both directions are one

What flows into a root is what flows out of it in the graph turned, where every process reads what
it wrote. The lineage backward and the lineage forward over the graph turned are the same, with
every relation in the other direction:

* `Relation.turned`, `LineageGraph.turned` -- the other direction;
* `Recorder.addPair_turned`, `Recorder.addEdge_turned` -- **one call** for edges that say the
  opposite records the relations turned, and the same entities in the same order;
* `Walker.Turns`, `Walker.expand_turned`, `Walker.run_turned`, `Walker.walk_turned` -- so for an
  expansion, for a run, and **for a walk**;
* `Service.resolve_turned` -- and for the answer to a request.
-/

namespace DataLineage

/-! ## 1. The other direction -/

/-- The relation in the other direction. -/
def Relation.turned (x : Relation) : Relation := { x with source := x.target, target := x.source }

/-- The other of the two directions. -/
def Direction.turned : Direction → Direction
  | .input => .output
  | .output => .input
  | .both => .both

/-- **The lineage in the other direction**: the same entities, and each relation turned. -/
def LineageGraph.turned (g : LineageGraph) : LineageGraph :=
  { g with direction := g.direction.turned, relations := g.relations.map Relation.turned }

namespace Relation

theorem same_turned (x y : Relation) : x.turned.same y.turned = x.same y := by
  simp only [same, turned, Bool.and_comm (x.source.same y.source)]

/-- Values make the turned relation in the other order. -/
theorem ofValues_turned (source target relationshipId processId : Value) :
    Outcome.Alike (fun x x' => x' = x.turned)
      (ofValues source target relationshipId processId)
      (ofValues target source relationshipId processId) := by
  have hidentifier (v : Value) :
      (∃ s, v.identifier = .ok s) ∨ v.identifier = .error .wrongKind := by
    cases v <;> simp [Value.identifier]
  unfold ofValues
  rcases hidentifier source with ⟨s, hs⟩ | hs <;> rcases hidentifier target with ⟨t, ht⟩ | ht <;>
    rw [hs, ht]
  · exact .bind_self relationshipId.identifier fun id =>
      .bind_self processId.identifier fun process => .ok rfl
  all_goals exact .error .wrongKind

end Relation

namespace LineageGraph

theorem hasRelation_turned (g : LineageGraph) (x : Relation) :
    g.turned.hasRelation x.turned = g.hasRelation x := by
  show (g.relations.map Relation.turned).any x.turned.same = g.relations.any x.same
  rw [List.any_map]
  exact congrArg g.relations.any (funext fun y => x.same_turned y)

/-- One more relation, and all of them turned. -/
theorem addRelation_turned (g : LineageGraph) (x : Relation) :
    g.turned.addRelation x.turned = (g.addRelation x).turned := by
  unfold addRelation
  rw [hasRelation_turned]
  cases g.hasRelation x with
  | true => rfl
  | false =>
      unfold turned
      simp only [Bool.false_eq_true, if_false, List.map_append]
      rfl

end LineageGraph

/-! ## 2. One call -/

/-- Both outcomes are lineages, one of them turned, or the same fault. -/
abbrev Outcome.Turn (x y : Outcome LineageGraph) : Prop := Alike (fun g g' => g' = g.turned) x y

namespace Recorder

/-- The recorder of the request in another direction, which it does not ask for. -/
def facing (r : Recorder) (direction : Direction) : Recorder :=
  { r with context := r.context.facing direction }

variable {r : Recorder} {d : Direction} {e e' into into' out out' : Edge}

theorem entered_turned (r : Recorder) (d : Direction) (v : Vertex) (g : LineageGraph) :
    Outcome.Turn (r.entered v g) ((r.facing d).entered v g.turned) := by
  refine .bind_self v.id.identifier fun id => ?_
  show Outcome.Alike _ (if g.hasEntity id then _ else _) (if g.hasEntity id then _ else _)
  split
  · exact .ok rfl
  · exact .bind_self (r.context.header v) fun header => .ok rfl

theorem relationOf_turned (h : e.Turned r.taxonomy.labels e') :
    Outcome.Alike (fun x x' => x' = x.turned) (r.relationOf e) ((r.facing d).relationOf e') := by
  have hlabel : (r.facing d).isInput e' = !r.isInput e := h.label
  unfold relationOf
  rw [hlabel, h.source, h.target, h.relationshipId]
  cases r.isInput e with
  | true => exact Relation.ofValues_turned ..
  | false => exact Relation.ofValues_turned ..

theorem edgeEntered_turned (h : e.Turned r.taxonomy.labels e') (g : LineageGraph) :
    Outcome.Turn (r.edgeEntered e g) ((r.facing d).edgeEntered e' g.turned) := by
  unfold edgeEntered
  rw [h.relationshipId]
  refine .bind_self (g.containsRelationship e.relationshipId) fun known => ?_
  cases known with
  | true => exact .ok rfl
  | false =>
      refine (relationOf_turned h).bind fun x x' hx => .ok ?_
      rw [hx, LineageGraph.addRelation_turned]

theorem relationThrough_turned (hi : into.Turned r.taxonomy.labels into')
    (ho : out.Turned r.taxonomy.labels out') :
    Outcome.Alike (fun x x' => x' = x.turned) (r.relationThrough into out)
      ((r.facing d).relationThrough into' out') := by
  have hlabel : (r.facing d).isInput into' = !r.isInput into := hi.label
  unfold relationThrough
  rw [hlabel, hi.target, ho.target, ho.source]
  cases r.isInput into with
  | true => exact Relation.ofValues_turned ..
  | false => exact Relation.ofValues_turned ..

/-- What is decided about a pair depends on its datasets alone. -/
theorem opensPair_turned (hi : into.Turned r.taxonomy.labels into')
    (ho : out.Turned r.taxonomy.labels out') :
    (r.facing d).opensPair into' out' = r.opensPair into out := by
  unfold opensPair opensHidden
  rw [hi.target, ho.target]
  rfl

theorem pairEntered_turned (hi : into.Turned r.taxonomy.labels into')
    (ho : out.Turned r.taxonomy.labels out') (g : LineageGraph) :
    Outcome.Turn (r.pairEntered into out g) ((r.facing d).pairEntered into' out' g.turned) := by
  unfold pairEntered
  rw [hi.target, hi.source, ho.target]
  show Outcome.Turn (if r.context.hidesProcesses then _ else _)
    (if r.context.hidesProcesses then _ else _)
  split
  · refine (entered_turned r d into.target g).bind fun g₁ g₁' h₁ => ?_
    subst h₁
    refine (entered_turned r d out.target g₁).bind fun g₂ g₂' h₂ => ?_
    subst h₂
    refine (relationThrough_turned hi ho).bind fun x x' hx => .ok ?_
    rw [hx, LineageGraph.addRelation_turned]
  · refine (entered_turned r d into.target g).bind fun g₁ g₁' h₁ => ?_
    subst h₁
    refine (entered_turned r d into.source g₁).bind fun g₂ g₂' h₂ => ?_
    subst h₂
    refine (entered_turned r d out.target g₂).bind fun g₃ g₃' h₃ => ?_
    subst h₃
    refine (edgeEntered_turned hi g₃).bind fun g₄ g₄' h₄ => ?_
    subst h₄
    exact edgeEntered_turned ho g₄

/-- **A pair that says the opposite is recorded turned**, or skipped as well. -/
theorem addPair_turned (hi : into.Turned r.taxonomy.labels into')
    (ho : out.Turned r.taxonomy.labels out') (g : LineageGraph) :
    Outcome.Alike (fun a a' => a' = (a.1, a.2.turned)) (Recording.on (r.addPair into out) g)
      (Recording.on ((r.facing d).addPair into' out') g.turned) := by
  rw [on_addPair, on_addPair, opensPair_turned hi ho]
  refine .bind_self (r.opensPair into out) fun opens => ?_
  cases opens with
  | true => exact (pairEntered_turned hi ho g).bind fun g₁ g₁' h₁ => .ok (by rw [h₁])
  | false => exact .ok rfl

/-- **A single edge that says the opposite is recorded turned**, or skipped as well. -/
theorem addEdge_turned (h : e.Turned r.taxonomy.labels e') (g : LineageGraph) :
    Outcome.Alike (fun a a' => a' = (a.1, a.2.turned)) (Recording.on (r.addEdge e) g)
      (Recording.on ((r.facing d).addEdge e') g.turned) := by
  have hopens : (r.facing d).opensEdge e' = r.opensEdge e := by
    unfold opensEdge
    rw [h.source, h.target]
    rfl
  have hsingle : Outcome.Turn (r.singleEntered e g) ((r.facing d).singleEntered e' g.turned) := by
    unfold singleEntered
    rw [h.source, h.target]
    refine (entered_turned r d e.source g).bind fun g₁ g₁' h₁ => ?_
    subst h₁
    refine (entered_turned r d e.target g₁).bind fun g₂ g₂' h₂ => ?_
    subst h₂
    exact edgeEntered_turned h g₂
  rw [on_addEdge, on_addEdge, hopens, h.relationshipId]
  refine .bind_self (g.containsRelationship e.relationshipId) fun known => ?_
  cases known with
  | true => exact .ok rfl
  | false =>
      refine .bind_self (r.opensEdge e) fun opens => ?_
      cases opens with
      | true => exact hsingle.bind fun g₁ g₁' h₁ => .ok (by rw [h₁])
      | false => exact .ok rfl

end Recorder

/-! ## 3. Walks -/

/-- The same was found, and recorded turned. -/
def Harvest.turned (h : Harvest) : Harvest := { h with lineage := h.lineage.turned }

/-- The same waits and was visited, and what was recorded is turned. -/
def WalkState.turned (s : WalkState) : WalkState := { s with lineage := s.lineage.turned }

namespace Walker

/-- **The second walker walks over the graph turned**, under the same settings. -/
structure Turns (w w' : Walker Outcome) : Prop where
  graph : GraphAccess.Turns w.taxonomy.labels w.graph w'.graph
  taxonomy : w'.taxonomy = w.taxonomy
  requireBoth : w'.requireBoth = w.requireBoth
  maxVertices : w'.maxVertices = w.maxVertices

variable {w w' : Walker Outcome} {r : Recorder} {d : Direction}

/-- The labels for one direction are those for the other one, exchanged. -/
theorem Turns.edges (h : w.Turns w') (v : Vertex) (side : Side) (backward : Bool) :
    Outcome.Alike (List.Forall₂ (Edge.Turned w.taxonomy.labels))
        (w.graph.edges v side (w.taxonomy.labels.forDirection backward).1)
        (w'.graph.edges v side (w'.taxonomy.labels.forDirection !backward).1) ∧
      Outcome.Alike (List.Forall₂ (Edge.Turned w.taxonomy.labels))
        (w.graph.edges v side (w.taxonomy.labels.forDirection backward).2)
        (w'.graph.edges v side (w'.taxonomy.labels.forDirection !backward).2) := by
  rw [h.taxonomy]
  cases backward with
  | true => exact ⟨h.graph.outputs v side, h.graph.inputs v side⟩
  | false => exact ⟨h.graph.inputs v side, h.graph.outputs v side⟩

/-- **A pair is taken alike.** -/
theorem takePair_turned {visited : List Key} {budget : HopBudget} {into into' out out' : Edge}
    (hi : into.Turned r.taxonomy.labels into') (ho : out.Turned r.taxonomy.labels out')
    (h : Harvest) :
    Outcome.Alike (fun h h' => h' = h.turned) (takePair r visited budget into h out)
      (takePair (r.facing d) visited budget into' h.turned out') := by
  refine (Recorder.addPair_turned hi ho h.lineage).bind fun a a' ha => ?_
  obtain ⟨skipped, lineage⟩ := a
  subst ha
  cases skipped with
  | true => exact .ok rfl
  | false =>
      show Outcome.Alike _ (out.target.id.key >>= _) (out'.target.id.key >>= _)
      rw [ho.target]
      refine .bind_self out.target.id.key fun k => ?_
      show Outcome.Alike _ (if visited.contains k then _ else _)
        (if visited.contains k then _ else _)
      split
      · exact .ok rfl
      · exact .ok rfl

/-- **A dataset is expanded alike.** -/
theorem expand_turned (hw : w.Turns w') (hr : r.taxonomy = w.taxonomy) (backward : Bool)
    (visited : List Key) (p : Pending) (lineage : LineageGraph) :
    Outcome.Alike (fun h h' => h' = h.turned) (w.expand r backward visited p lineage)
      (w'.expand (r.facing d) (!backward) visited p lineage.turned) := by
  have hprocess (into into' : Edge) (hi : into.Turned w.taxonomy.labels into') (h : Harvest) :
      Outcome.Alike (fun h h' => h' = h.turned)
        (w.takeProcess r visited p.budget.next (w.taxonomy.labels.forDirection backward).2 h into)
        (w'.takeProcess (r.facing d) visited p.budget.next
          (w'.taxonomy.labels.forDirection !backward).2 h.turned into') := by
    unfold takeProcess
    rw [hi.source]
    refine (hw.edges into.source .outgoing backward).2.bind fun outs outs' houts => ?_
    rw [ofExcept_eq, ofExcept_eq]
    refine .foldlM houts (fun h h' out out' hh ho => ?_) rfl
    subst hh
    rw [← hr] at hi ho
    exact takePair_turned hi ho h
  refine (hw.edges p.vertex .incoming backward).1.bind fun ins ins' hins => ?_
  refine .foldlM hins (fun h h' into into' hh hi => ?_) rfl
  subst hh
  exact hprocess into into' hi h

/-- **A run goes on alike**: the same vertices wait and are expanded, in the same order. -/
theorem run_turned (hw : w.Turns w') (hr : r.taxonomy = w.taxonomy) (backward : Bool) (n : Nat)
    (s : WalkState) :
    Outcome.Alike (fun s s' => s' = s.turned) (w.run r backward n s)
      (w'.run (r.facing d) (!backward) n s.turned) := by
  induction n generalizing s with
  | zero => exact .ok rfl
  | succ n ih =>
      rw [run_succ, run_succ]
      refine .bind_self (nextPending s.visited s.queue) fun next => ?_
      match next with
      | none => exact .ok rfl
      | some (p, key, rest) =>
          refine .bind_self (s.budget.charge r.context.guid) fun budget => ?_
          refine (expand_turned hw hr backward (key :: s.visited) p s.lineage).bind
            fun h h' hh => ?_
          subst hh
          exact ih _

/-- **What a walk finds backward, a walk over the graph turned finds forward**, in the other
direction. -/
theorem walk_turned (hw : w.Turns w') (c : Context) (x : VertexBudget) :
    Outcome.Alike (fun a a' => a' = (a.1.turned, a.2)) (w.walk c .input x)
      (w'.walk (c.facing .output) .output x) := by
  have hrecorder : w'.recorder (c.facing .output) = (w.recorder c).facing .output := by
    unfold recorder
    rw [hw.taxonomy, hw.requireBoth]
    rfl
  have hfrom (start : Pending) (x : VertexBudget) (g : LineageGraph) :
      Outcome.Alike (fun s s' => s' = s.turned) (w.runFrom (w.recorder c) true start x g)
        (w'.runFrom (w'.recorder (c.facing .output)) false start x g.turned) := by
    unfold runFrom
    rw [hrecorder, hw.graph.order]
    exact run_turned hw rfl true _ ⟨[start], [], x, g⟩
  cases hd : c.isDataset with
  | true =>
      rw [walk_dataset hd, walk_dataset (show (c.facing .output).isDataset = true from hd)]
      exact (hfrom ⟨c.root, c.budget⟩ x _).bind fun s s' hs => .ok (by rw [hs]; rfl)
  | false =>
      rw [walk_listed hd, walk_listed (show (c.facing .output).isDataset = false from hd),
        hw.taxonomy]
      refine (hw.graph.inputs c.root .outgoing).bind fun es es' hes => ?_
      refine .foldlM hes (fun s s' e e' hs he => ?_) rfl
      subst hs
      rw [takeRootEdge_eq, takeRootEdge_eq, hrecorder]
      refine (Recorder.addEdge_turned he s.1).bind fun a a' ha => ?_
      subst ha
      rw [he.target, ← hrecorder]
      exact (hfrom ⟨e.target, c.budget.next⟩ s.2 a.2).bind fun s s' hs => .ok (by rw [hs]; rfl)

/-- The lineage of a request in one direction is that of its only walk. -/
theorem aggregate_single {c : Context} {d : Direction} (hd : c.direction = d) (hne : d ≠ .both)
    (step : Direction → VertexBudget → Outcome (LineageGraph × VertexBudget)) (x : VertexBudget) :
    (walkAll step c.direction.walks x >>= fun results => .ok (c.aggregate results)) =
      step d x >>= fun a => .ok a.1 := by
  rw [hd, (Direction.walks_single d).mpr hne]
  unfold walkAll
  cases step d x with
  | error e => rfl
  | ok a =>
      have haggregate : c.aggregate [a.1] = a.1 := by
        unfold Context.aggregate
        rw [hd]
        cases d with
        | both => exact absurd rfl hne
        | _ => rfl
      exact congrArg Except.ok haggregate

/-- The lineage by walks, backward and forward. -/
theorem traverse_turned (hw : w.Turns w') {c : Context} (hd : c.direction = .input) :
    Outcome.Turn (w.traverse c) (w'.traverse (c.facing .output)) := by
  have hback : w.traverse c = w.walk c .input (.start w.maxVertices) >>= fun a => .ok a.1 :=
    aggregate_single hd (by decide) _ _
  have hforth : w'.traverse (c.facing .output) =
      w'.walk (c.facing .output) .output (.start w'.maxVertices) >>= fun a => .ok a.1 :=
    aggregate_single (d := .output) rfl (by decide) _ _
  rw [hback, hforth, hw.maxVertices]
  exact (walk_turned hw c _).bind fun a a' ha => .ok (by rw [ha])

/-- No script can be run, so the lineage by patterns fails both ways. -/
theorem traverseAnswers_turned (hw : w.Turns w') {c : Context} (hd : c.direction = .input) :
    Outcome.Turn (w.traverseAnswers c) (w'.traverseAnswers (c.facing .output)) := by
  obtain ⟨e, hscripts⟩ := hw.graph.scripts
  have hanswer (x : VertexBudget) : Outcome.Alike (fun a a' => a' = (a.1.turned, a.2))
      (w.walkAnswer c .input x) (w'.walkAnswer (c.facing .output) .output x) := by
    have hpattern : Outcome.Alike (fun _ _ => True)
        (LineagePattern.make w.taxonomy c.guid .input c.depth c.isDataset)
        (LineagePattern.make w'.taxonomy c.guid .output c.depth c.isDataset) := by
      refine .bind_self (nextDepth c.depth) fun processDepth => ?_
      dsimp only
      split
      all_goals
        refine .bind_self _ fun hops => ?_
        split
        · exact .error _
        · exact .ok trivial
    unfold walkAnswer
    rw [ofExcept_eq, ofExcept_eq]
    refine hpattern.bind fun pattern pattern' _ => ?_
    rw [(hscripts pattern.script).1, (hscripts pattern'.script).2]
    exact .error e
  show Outcome.Turn (if c.hidesProcesses then _ else _) (if c.hidesProcesses then _ else _)
  split
  · exact .error _
  · have hback := aggregate_single hd (by decide) (w.walkAnswer c) (.start w.maxVertices)
    have hforth := aggregate_single (c := c.facing .output) (d := .output) rfl (by decide)
      (w'.walkAnswer (c.facing .output)) (.start w'.maxVertices)
    show Outcome.Turn (walkAll (w.walkAnswer c) c.direction.walks (.start w.maxVertices) >>= _)
      (walkAll (w'.walkAnswer (c.facing .output)) (c.facing .output).direction.walks
        (.start w'.maxVertices) >>= _)
    refine Eq.mpr (congrArg₂ _ hback hforth) ?_
    rw [hw.maxVertices]
    exact (hanswer _).bind fun a a' ha => .ok (by rw [ha])

end Walker

/-! ## 4. Resolved requests -/

/-- The request with another direction, as a value that may or may not name one. -/
def LineageRequest.towards (r : LineageRequest) (direction : Value) : LineageRequest :=
  { r with direction := direction }

/-- The answer in the other direction. -/
def Resolution.turned (r : Resolution) : Resolution :=
  ⟨r.context.facing r.context.direction.turned, r.lineage.turned⟩

namespace Service

/-- The same service over a graph in memory. -/
def inMemory (s : Service Outcome) (g : MemoryGraph) : Service Outcome :=
  { s with graph := g.access }

variable {s s' : Service Outcome} {r : LineageRequest} {back forth : Value}

/-- The second service walks over the graph turned, under the same settings. -/
structure Turns (s s' : Service Outcome) : Prop where
  walker : s.walker.Turns s'.walker
  policy : s'.policy = s.policy
  usePatterns : s'.usePatterns = s.usePatterns

/-- Requests in the two directions have the same parts. -/
theorem terms_towards (hback : Direction.parse back = .ok .input)
    (hforth : Direction.parse forth = .ok .output) (r : LineageRequest) :
    Outcome.Alike (fun t t' => t.direction = .input ∧ t' = { t with direction := .output })
      (r.towards back).terms (r.towards forth).terms := by
  have hb : (r.towards back).checkDirection = .ok .input :=
    LineageRequest.checkDirection_iff.mpr hback
  have hf : (r.towards forth).checkDirection = .ok .output :=
    LineageRequest.checkDirection_iff.mpr hforth
  unfold LineageRequest.terms
  rw [hb, hf]
  refine .bind_self r.checkDepth fun budget =>
    .bind_self (r.filters.criteria.mapError (Fault.about r.guid)) fun cs =>
      .bind_self r.attributes.elementsOrNone fun items =>
        .bind_self (Value.distinctScalars items) fun names => ?_
  exact .ok ⟨rfl, rfl⟩

/-- A request is answered turned, where its collections are read already. -/
theorem Turns.info (h : s.Turns s') (hback : Direction.parse back = .ok .input)
    (hforth : Direction.parse forth = .ok .output) (r : LineageRequest) :
    Outcome.Alike (fun a a' => a' = a.turned) (s.info (r.towards back))
      (s'.info (r.towards forth)) := by
  have hcontext : Outcome.Alike (fun c c' => c.direction = .input ∧ c' = c.facing .output)
      (s.context (r.towards back)) (s'.context (r.towards forth)) := by
    have hroot : s.graph.find (r.towards back).guid = s'.graph.find (r.towards forth).guid :=
      (h.walker.graph.find r.guid).symm
    unfold context
    rw [h.policy]
    refine (LineageRequest.context_alike (terms_towards hback hforth r) (fun t t' ht => ?_)
      hroot).imp fun c c' hc => ?_
    · obtain ⟨_, rfl⟩ := ht
      exact ⟨rfl, rfl, rfl, rfl, rfl⟩
    · obtain ⟨t, t', root, isDataset, ⟨hd, rfl⟩, rfl, rfl⟩ := hc
      exact ⟨hd, rfl⟩
  refine (info_alike (S := fun g g' => g' = g.turned) hcontext fun c c' hc => ?_).imp
    fun a a' ha => ?_
  · obtain ⟨hd, rfl⟩ := hc
    unfold lineageOf usesPattern
    rw [h.usePatterns]
    show Outcome.Turn (if s.usePatterns && !c.hidesProcesses then _ else _)
      (if s.usePatterns && !c.hidesProcesses then _ else _)
    split
    · exact Walker.traverseAnswers_turned h.walker hd
    · exact Walker.traverse_turned h.walker hd
  · obtain ⟨⟨hd, hc⟩, hl⟩ := ha
    show (⟨a'.context, a'.lineage⟩ : Resolution) = ⟨_, _⟩
    rw [hc, hl, hd]
    rfl

/-- **A request is answered turned** by a service over the graph turned. -/
theorem Turns.resolve (h : s.Turns s') (hback : Direction.parse back = .ok .input)
    (hforth : Direction.parse forth = .ok .output) (r : LineageRequest) :
    Outcome.Alike (fun a a' => a' = a.turned) (s.resolve (r.towards back))
      (s'.resolve (r.towards forth)) := by
  have hcollected : Outcome.Alike
      (fun q q' => ∃ r' : LineageRequest, q = r'.towards back ∧ q' = r'.towards forth)
      (r.towards back).collected (r.towards forth).collected := by
    refine .bind_self r.names fun names => .bind_self r.filters.toList fun given => .ok ?_
    exact ⟨{ r with attributes := .list (names.map .scalar), filters := .items given }, rfl, rfl⟩
  refine resolve_alike hcollected fun q q' hq => ?_
  obtain ⟨r', rfl, rfl⟩ := hq
  exact h.info hback hforth r'

/-- **The two directions are dual.** Whatever additions make a graph in memory, and whatever service
and request there are: the answer forward, over the graph that the same additions make with the two
labels of lineage exchanged on every edge, is the answer backward over the first graph, turned: the
same fault, or the same entities in the same order and every relation with its ends exchanged. -/
theorem directions_dual (s : Service Outcome) {inKey outKey : Key}
    (hl : s.policy.taxonomy.labels.Distinct inKey outKey)
    (additions : List MemoryGraph.Addition) (hback : Direction.parse back = .ok .input)
    (hforth : Direction.parse forth = .ok .output) (r : LineageRequest) :
    let exchanged := additions.map (·.exchanged s.policy.taxonomy.labels)
    (s.inMemory (.made exchanged)).resolve (r.towards forth) =
        ((s.inMemory (.made additions)).resolve (r.towards back)).map Resolution.turned ∧
      (s.inMemory (.made exchanged)).info (r.towards forth) =
        ((s.inMemory (.made additions)).info (r.towards back)).map Resolution.turned := by
  have h : (s.inMemory (.made additions)).Turns
      (s.inMemory (.made (additions.map (·.exchanged s.policy.taxonomy.labels)))) :=
    ⟨⟨MemoryGraph.made_turns hl additions, rfl, rfl, rfl⟩, rfl, rfl⟩
  exact ⟨(h.resolve hback hforth r).eq_map, (h.info hback hforth r).eq_map⟩

end Service

/-! ## 5. Around the loop -/

namespace Loop

/-- What makes the graph of the catalogue, addition by addition. -/
def additions : List MemoryGraph.Addition :=
  [.vertex (.text "x") (.text "Table") [], .vertex (.text "y") (.text "Table") [],
    .vertex (.text "z") (.text "Table") [], .vertex (.text "p") (.text "Job") [],
    .vertex (.text "q") (.text "Job") []] ++
  edges.map fun e => .edge e.label e.source.id e.target.id e.relationshipId []

theorem made_eq : MemoryGraph.made additions = graph := by cbv

theorem labels_distinct : policy.taxonomy.labels.Distinct (.text "reads") (.text "writes") :=
  ⟨rfl, rfl, by decide, by decide⟩

/-- What flows into `z`, in the order in which a walk finds it. -/
def sources : List Relation := [
  ⟨.text "q", .text "z", .text "5", .null⟩, ⟨.text "x", .text "q", .text "4", .null⟩,
  ⟨.text "p", .text "x", .text "3", .null⟩, ⟨.text "y", .text "p", .text "1", .null⟩,
  ⟨.text "z", .text "p", .text "2", .null⟩]

/-- The request about all around `z`, in whatever direction. -/
def aboutZ : LineageRequest := { LineageRequest.about (.text "z") with depth := .int 0 }

theorem sources_found :
    ((walking.inMemory (.made additions)).resolve (aboutZ.towards (.text "INPUT"))).map
      (fun res => res.lineage.relations) = .ok sources := by
  rw [made_eq]
  unfold walking Service.inMemory MemoryGraph.access
  rw [accessWith_eq]
  cbv

end Loop

/-- What flows into `z` flows out of it over the graph with the labels exchanged. -/
theorem Service.directions_dual_loop :
    ∃ back forth, (Loop.walking.inMemory (.made Loop.additions)).resolve
        (Loop.aboutZ.towards (.text "INPUT")) = .ok back ∧
      back.lineage.relations = Loop.sources ∧
      (Loop.walking.inMemory (.made (Loop.additions.map
          (·.exchanged Loop.walking.policy.taxonomy.labels)))).resolve
        (Loop.aboutZ.towards (.text "OUTPUT")) = .ok forth ∧
      forth.lineage.relations = Loop.sources.map Relation.turned ∧
      forth.lineage.entities = back.lineage.entities := by
  obtain ⟨back, hback, hsources⟩ := Outcome.map_eq_ok Loop.sources_found
  have hdual := (Service.directions_dual Loop.walking Loop.labels_distinct Loop.additions
    (Direction.parse_name .input) (Direction.parse_name .output) Loop.aboutZ).1
  refine ⟨back, back.turned, hback, hsources, ?_, congrArg (List.map Relation.turned) hsources, rfl⟩
  exact hdual.trans (congrArg (Except.map Resolution.turned) hback)

end DataLineage
