import DataLineage.Proofs.Pattern.Meaning
import DataLineage.Proofs.Pattern.Strategies
import DataLineage.Proofs.Request.Resolved

/-!
# Both strategies over what a pattern means

A database that answers a pattern by the edges on the paths that match it leads to all datasets to
which the graph leads, for the shortest paths match. But a walk over the graph also records a pair
that goes back over an edge used before, and the edge into the dataset of such a pair need not lie
on any path that matches. So the two strategies find the same entities, and what one of them may
miss is known exactly:

* `GraphRequest.replays_matched` -- the edges on matching paths lead to all datasets;
* `GraphRequest.twins_matched` -- the walks are twins, and the one over the answer records the edges
  that the walk over the graph records and the pattern finds;
* `Service.strategies_agree_iff` -- **both strategies exceed the vertex budget, or both end with the
  same entities; their relations are the same if and only if every edge that a walk records is found
  in a direction in which it is recorded**;
* `Service.strategies_differ` -- around a loop they are not the same.
-/

namespace DataLineage

/-- The pattern of the request in the direction finds the edge. -/
def Context.Finds (c : Context) (t : Taxonomy) (es : List Edge) (direction : Direction) (e : Edge) :
    Prop :=
  ∃ pattern, LineagePattern.make t c.guid direction c.depth c.isDataset = .ok pattern ∧
    pattern.Finds es e

namespace GraphRequest

variable {t : Taxonomy} {g : MemoryGraph} {p : Policy} {req : LineageRequest} {c : Context}
  {answer : Script → Outcome (List Edge)} {requireBoth : Bool} {m : Nat} {direction : Direction}
  {inKey outKey : Key} {pattern : LineagePattern} {S T : Terrain} {r : Recorder}

/-! ## 1. What a pattern finds leads to all datasets -/

/-- The parts of the pattern of a request, as a walk has them. -/
theorem pattern_parts (h : GraphRequest t g p req c) (hg : g.Seeded)
    (hT : T.For g.added.toList t.labels (direction == .input))
    (hp : LineagePattern.make t c.guid direction c.depth c.isDataset = .ok pattern) {k : Key}
    (hk : c.root.id.key = .ok k) :
    pattern.fromProcess = !c.isDataset ∧ pattern.incoming.key = .ok T.into ∧
      pattern.outgoing.key = .ok T.out ∧ pattern.guid.key = .ok k ∧
      (∀ j, pattern.Allows (j + 1) ↔
        if c.isDataset then c.budget.Allows j else c.budget.next.Allows j) ∧
      (c.isDataset = false → pattern.Allows 0) := by
  obtain ⟨_, hguid, hdepth, _, _, n, hn, hb⟩ := LineageRequest.context_ok h.admitted
  obtain ⟨k', hk', hroot, _⟩ := h.root_key hg
  rw [hk] at hroot
  cases hroot
  rw [← hdepth] at hn
  obtain ⟨hguid', hfrom, hin, hout, _⟩ := LineagePattern.make_ok hp
  refine ⟨hfrom, ?_, ?_, ?_, LineagePattern.allows_succ hp hb hn,
    LineagePattern.allows_zero hp hb hn⟩
  · rw [hin]
    exact hT.into
  · rw [hout]
    exact hT.out
  · rw [hguid', hguid]
    exact hk'

/-- **The edges on matching paths lead to all datasets** to which the graph leads. -/
theorem replays_matched (h : GraphRequest t g p req c) (hg : g.Seeded)
    (hT : T.For g.added.toList t.labels (direction == .input)) (hlabels : T.into ≠ T.out)
    (hp : LineagePattern.make t c.guid direction c.depth c.isDataset = .ok pattern)
    (hr : r.context = c) (hpart : S.Part T)
    (hS : ∀ e, e ∈ S.edges ↔ pattern.Finds g.added.toList e) : S.Replays T r := by
  subst hr
  have hes : (⟨g.added.toList, T.into, T.out⟩ : Terrain) = T := by
    rw [← hT.edges]
  have hkeyed (e : Edge) (he : e ∈ T.edges) : ∃ k, e.target.id.key = .ok k := by
    obtain ⟨k, hk, _⟩ := hg.ends e (hT.edges ▸ he) .incoming
    exact ⟨k, hk⟩
  refine hpart.replays_of_catches (fun hdata k hk => ?_) (fun hdata first hfirst => ?_)
  · obtain ⟨hfrom, hin, hout, hguid, hallows, _⟩ := h.pattern_parts hg hT hp hk
    refine ⟨hpart, hlabels, List.nodup_nil, fun e he => absurd he List.not_mem_nil, hkeyed,
      fun n path d ha hs once e he => (hS e).mpr ⟨path, ?_, he⟩⟩
    rw [hdata] at hfrom
    refine .dataset hfrom hin hout hguid (hes ▸ hs) ((hallows n).mpr ?_) once
    rw [if_pos hdata]
    exact ha
  · obtain ⟨hm, hlabel, k, hk, hsource⟩ := Terrain.mem_rootEdges.mp hfirst
    obtain ⟨hfrom, hin, hout, hguid, hallows, hzero⟩ := h.pattern_parts hg hT hp hk
    rw [hdata] at hfrom
    have hm' : first ∈ g.added.toList := hT.edges ▸ hm
    refine ⟨?_, fun start hstart => ?_⟩
    · obtain ⟨start, hstart⟩ := hkeyed first hm
      refine (hS first).mpr ⟨[first], ?_, List.mem_cons_self⟩
      exact .process hfrom hin hout hguid hm' hlabel hsource hstart (.none start) (hzero hdata)
        (List.nodup_singleton first)
    · refine ⟨hpart, hlabels, List.nodup_singleton first, fun e he => ?_, hkeyed,
        fun n path d ha hs once e he => (hS e).mpr ⟨first :: path, ?_, List.mem_cons_of_mem _ he⟩⟩
      · rw [List.mem_singleton.mp he]
        exact ⟨hlabel, hstart⟩
      · refine .process hfrom hin hout hguid hm' hlabel hsource hstart (hes ▸ hs)
          ((hallows n).mpr ?_) once
        rw [hdata]
        exact ha

/-- **The walks are twins**, and the one over the answer records what the pattern finds of the edges
that the walk over the graph records. -/
theorem twins_matched (h : GraphRequest t g p req c) (hg : g.Seeded)
    (hname : ∀ e ∈ g.added.toList, e.HasName) (hm : c.hidesProcesses = false)
    (hi : t.labels.inputs.key = .ok inKey) (ho : t.labels.outputs.key = .ok outKey)
    (hlabels : inKey ≠ outKey)
    (hp : LineagePattern.make t c.guid direction c.depth c.isDataset = .ok pattern)
    {edges : List Edge} (hanswer : answer pattern.script = .ok edges)
    (hedges : ∀ e, e ∈ edges ↔ pattern.Finds g.added.toList e) :
    ∃ l l' cost, (g.walkerWith answer t requireBoth m).Twins c m (g.HeaderAt c) direction
      ((g.walkerWith answer t requireBoth m).RecordsIn g c direction)
      (fun e => (g.walkerWith answer t requireBoth m).RecordsIn g c direction e ∧
        c.Finds t g.added.toList direction e) l l' cost := by
  have hfinds (e : Edge) : e ∈ edges ↔ c.Finds t g.added.toList direction e := by
    rw [hedges]
    constructor
    · exact fun hf => ⟨pattern, hp, hf⟩
    · intro hf
      obtain ⟨pattern', hp', hf⟩ := hf
      rw [hp] at hp'
      cases hp'
      exact hf
  have hsub (e : Edge) (he : e ∈ edges) : e ∈ g.added.toList := ((hedges e).mp he).mem
  have htwins : ∃ l l' cost,
      (g.walkerWith answer t requireBoth m).Twins c m (g.HeaderAt c) direction
        ((g.walkerWith answer t requireBoth m).RecordsIn g c direction)
        (fun e => (g.walkerWith answer t requireBoth m).RecordsIn g c direction e ∧ e ∈ edges)
        l l' cost :=
    h.twins hg hname hm hi ho hp hanswer hsub fun S T hT hpart hmem =>
      h.replays_matched hg hT (hT.into_ne hi ho hlabels) hp rfl hpart
        fun e => (hmem e).trans (hedges e)
  obtain ⟨l, l', cost, htwins⟩ := htwins
  exact ⟨l, l', cost, { htwins with
    flows' := htwins.flows'.congr fun e => and_congr_right fun _ => hfinds e }⟩

end GraphRequest

/-! ## 2. Where both strategies agree -/

/-- The service over a graph whose database answers scripts, under a vertex budget. -/
def MemoryGraph.serviceWith (g : MemoryGraph) (answer : Script → Outcome (List Edge)) (p : Policy)
    (usePatterns requireBoth : Bool) (m : Nat) : Service Outcome :=
  ⟨g.accessWith answer, p, usePatterns, requireBoth, .int m⟩

namespace Service

variable {g : MemoryGraph} {p : Policy} {req : LineageRequest} {c : Context}
  {answer : Script → Outcome (List Edge)} {requireBoth : Bool} {m : Nat} {inKey outKey : Key}

/-- Without patterns, a request is resolved by the walks over the graph. -/
theorem info_traverse (answer : Script → Outcome (List Edge)) (requireBoth : Bool) (m : Nat)
    (h : req.context p g.access = .ok c) :
    (g.serviceWith answer p false requireBoth m).info req =
      (g.walkerWith answer p.taxonomy requireBoth m).traverse c >>= fun l => .ok ⟨c, l⟩ :=
  info_eq h

/-- With patterns, a request that shows processes is resolved by the walks over what is answered. -/
theorem info_traverseAnswers (answer : Script → Outcome (List Edge)) (requireBoth : Bool) (m : Nat)
    (h : req.context p g.access = .ok c) (hm : c.hidesProcesses = false) :
    (g.serviceWith answer p true requireBoth m).info req =
      (g.walkerWith answer p.taxonomy requireBoth m).traverseAnswers c >>=
        fun l => .ok ⟨c, l⟩ := by
  have huses : (g.serviceWith answer p true requireBoth m).usesPattern c = true := by
    unfold usesPattern
    rw [hm]
    rfl
  have hinfo := info_eq (s := g.serviceWith answer p true requireBoth m) h
  unfold lineageOf at hinfo
  rw [huses] at hinfo
  exact hinfo

/-- **Both strategies exceed the vertex budget, or both end** with the same headers of the same
entities, and the same guid, direction and depth, if the database answers each pattern by the edges
on the paths that match it. What patterns answer is never more than what walks answer; and **their
relations are the same if and only if** every edge that is recorded by the walk in some direction is
recorded in a direction in which the pattern finds it. -/
theorem strategies_agree_iff (hg : g.Seeded) (h : GraphRequest p.taxonomy g p req c)
    (hname : ∀ e ∈ g.added.toList, e.HasName) (hm : c.hidesProcesses = false)
    (hi : p.taxonomy.labels.inputs.key = .ok inKey)
    (ho : p.taxonomy.labels.outputs.key = .ok outKey) (hlabels : inKey ≠ outKey)
    (hanswer : ∀ d ∈ c.direction.walks, ∃ pattern edges,
      LineagePattern.make p.taxonomy c.guid d c.depth c.isDataset = .ok pattern ∧
        answer pattern.script = .ok edges ∧ ∀ e, e ∈ edges ↔ pattern.Finds g.added.toList e) :
    ((g.serviceWith answer p false requireBoth m).info req = .error (Walker.tooMany m c.guid) ∧
      (g.serviceWith answer p true requireBoth m).info req =
        .error (Walker.tooMany m c.guid)) ∨
      ∃ l l', (g.serviceWith answer p false requireBoth m).info req = .ok ⟨c, l⟩ ∧
        (g.serviceWith answer p true requireBoth m).info req = .ok ⟨c, l'⟩ ∧ l.Alike l' ∧
        (∀ x, l'.hasRelation x = true → l.hasRelation x = true) ∧
        ((∀ x, l.hasRelation x = l'.hasRelation x) ↔
          ∀ d ∈ c.direction.walks, ∀ e ∈ g.added.toList,
            (g.walkerWith answer p.taxonomy requireBoth m).Records c d e →
              ∃ d' ∈ c.direction.walks,
                (g.walkerWith answer p.taxonomy requireBoth m).Records c d' e ∧
                  c.Finds p.taxonomy g.added.toList d' e) := by
  have htwins : ∀ d ∈ c.direction.walks, ∃ l l' cost,
      (g.walkerWith answer p.taxonomy requireBoth m).Twins c m (g.HeaderAt c) d
        ((g.walkerWith answer p.taxonomy requireBoth m).RecordsIn g c d)
        (fun e => (g.walkerWith answer p.taxonomy requireBoth m).RecordsIn g c d e ∧
          c.Finds p.taxonomy g.added.toList d e) l l' cost := by
    intro d hd
    obtain ⟨pattern, edges, hp, hanswer, hedges⟩ := hanswer d hd
    exact h.twins_matched hg hname hm hi ho hlabels hp hanswer hedges
  have hnative := info_traverse answer requireBoth m h.admitted
  have hpattern := info_traverseAnswers answer requireBoth m h.admitted hm
  rcases Walker.traverse_twins hm rfl MemoryGraph.headerAt_once htwins with
    ⟨hl, hl'⟩ | ⟨l, l', hl, hl', halike, hflows, hflows'⟩
  · rw [hl] at hnative
    rw [hl'] at hpattern
    exact .inl ⟨hnative, hpattern⟩
  rw [hl] at hnative
  rw [hl'] at hpattern
  have hsub (e : Edge) (he : ∃ d ∈ c.direction.walks,
      (g.walkerWith answer p.taxonomy requireBoth m).RecordsIn g c d e ∧
        c.Finds p.taxonomy g.added.toList d e) :
      ∃ d ∈ c.direction.walks,
        (g.walkerWith answer p.taxonomy requireBoth m).RecordsIn g c d e := by
    obtain ⟨d, hd, he, _⟩ := he
    exact ⟨d, hd, he⟩
  have hsame := hflows.same_iff hflows' hg hname (fun e he => he.elim fun _ h => h.2.1) hsub
    fun e he => h.flow_isOk (w := g.walkerWith answer p.taxonomy requireBoth m) hg he
  refine .inr ⟨l, l', hnative, hpattern, halike, hflows.mono hflows' hsub, hsame.trans ?_⟩
  constructor
  · intro hall d hd e he hrecords
    obtain ⟨d', hd', ⟨_, hrecords'⟩, hfinds⟩ := hall e ⟨d, hd, he, hrecords⟩
    exact ⟨d', hd', hrecords', hfinds⟩
  · intro hall e he
    obtain ⟨d, hd, he, hrecords⟩ := he
    obtain ⟨d', hd', hrecords', hfinds⟩ := hall d hd e he hrecords
    exact ⟨d', hd', ⟨he, hrecords'⟩, hfinds⟩

end Service

/-! ## 3. Where they do not -/

namespace Loop

/-- The edges on the path from `y` over `p`, `x` and `q` to `z`. -/
def onPath : List Edge := [
  edge "1" "reads" "p" "y", edge "3" "writes" "p" "x", edge "4" "reads" "q" "x",
  edge "5" "writes" "q" "z"]

/-- There is one pair at each table. -/
theorem pairAt_cases {d : Key} {into out : Edge} (h : terrain.PairAt d into out) :
    (d = .text "y" ∧ into = edge "1" "reads" "p" "y" ∧ out = edge "3" "writes" "p" "x") ∨
      (d = .text "z" ∧ into = edge "2" "reads" "p" "z" ∧ out = edge "3" "writes" "p" "x") ∨
        (d = .text "x" ∧ into = edge "4" "reads" "q" "x" ∧ out = edge "5" "writes" "q" "z") := by
  have hi : into ∈ edges := h.into_mem
  have ho : out ∈ edges := h.out_mem
  have hreads := h.into_label
  have hwrites := h.out_label
  obtain ⟨p, hpi, hpo⟩ := h.process
  have hprocess := hpi.trans hpo.symm
  have hnear := h.near
  simp only [edges, List.mem_cons, List.not_mem_nil, or_false] at hi ho
  rcases hi with rfl | rfl | rfl | rfl | rfl <;> rcases ho with rfl | rfl | rfl | rfl | rfl <;>
    simp [edge, job, table, terrain, Value.key, Scalar.key] at hreads hwrites hprocess hnear ⊢ <;>
    exact hnear.symm

/-- **A path from `y` that uses no edge twice** ends where it would go back over `p`. -/
theorem steps_cases {n : Nat} {start d : Key} {path : List Edge}
    (h : terrain.Steps n start path d) (hstart : start = .text "y") (once : path.Nodup) :
    (path = [] ∧ d = .text "y") ∨ (path = onPath.take 2 ∧ d = .text "x") ∨
      (path = onPath ∧ d = .text "z") := by
  induction h with
  | none => exact .inl ⟨rfl, hstart⟩
  | more _ hp hd ih =>
      rcases ih hstart (List.nodup_append.mp once).1 with ⟨rfl, rfl⟩ | ⟨rfl, rfl⟩ | ⟨rfl, rfl⟩
      · rcases pairAt_cases hp with ⟨_, rfl, rfl⟩ | ⟨hk, _⟩ | ⟨hk, _⟩
        · exact .inr (.inl ⟨rfl, (Except.ok.inj hd).symm⟩)
        · exact absurd hk (by decide)
        · exact absurd hk (by decide)
      · rcases pairAt_cases hp with ⟨hk, _⟩ | ⟨hk, _⟩ | ⟨_, rfl, rfl⟩
        · exact absurd hk (by decide)
        · exact absurd hk (by decide)
        · exact .inr (.inr ⟨rfl, (Except.ok.inj hd).symm⟩)
      · rcases pairAt_cases hp with ⟨hk, _⟩ | ⟨_, rfl, rfl⟩ | ⟨hk, _⟩
        · exact absurd hk (by decide)
        · -- the edge out of `p` has been used
          exact absurd once (by simp [onPath])
        · exact absurd hk (by decide)

/-- **The pattern finds the edges on this path**, and not the edge from `p` to `z`. -/
theorem finds_iff (e : Edge) : e ∈ onPath ↔ pattern.Finds graph.added.toList e := by
  constructor
  · intro he
    have hp : terrain.PairAt (.text "y") (edge "1" "reads" "p" "y") (edge "3" "writes" "p" "x") :=
      ⟨by simp [terrain, edges], by simp [terrain, edges], rfl, rfl, rfl, .text "p", rfl, rfl⟩
    have hq : terrain.PairAt (.text "x") (edge "4" "reads" "q" "x") (edge "5" "writes" "q" "z") :=
      ⟨by simp [terrain, edges], by simp [terrain, edges], rfl, rfl, rfl, .text "q", rfl, rfl⟩
    have hsteps : terrain.Steps 2 (.text "y") onPath (.text "z") :=
      .more (.more (.none _) hp rfl) hq rfl
    have once : onPath.Nodup := by simp [onPath, edge]
    have hallows : pattern.Allows 2 := by
      refine ⟨fun _ => by decide, fun m hm => ?_⟩
      cases hm
    exact ⟨onPath, .dataset rfl rfl rfl rfl hsteps hallows once, he⟩
  · intro hf
    obtain ⟨path, hpath, he⟩ := hf
    cases hpath with
    | dataset _ hi ho hr hs _ once =>
        cases hi
        cases ho
        rcases steps_cases hs (Except.ok.inj hr).symm once with ⟨rfl, _⟩ | ⟨rfl, _⟩ | ⟨rfl, _⟩
        · exact absurd he List.not_mem_nil
        · exact List.mem_of_mem_take he
        · exact he
    | process hf _ _ _ _ _ _ _ _ _ _ => cases hf

/-- The database answers the edges on the path. -/
def answerPath : Script → Outcome (List Edge) := fun _ => .ok onPath

def matched (usePatterns : Bool) : Service Outcome :=
  graph.serviceWith answerPath policy usePatterns false 0

theorem walked_flows :
    ((matched false).info request).map (fun res => res.lineage.relations) = .ok flows := by
  unfold matched MemoryGraph.serviceWith
  rw [accessWith_eq]
  cbv

theorem matched_flows :
    ((matched true).info request).map (fun res => res.lineage.relations) = .ok (flows.take 4) := by
  cbv

end Loop

namespace Service

/-- **Around the loop the strategies differ**: the walk goes back over `p` and records what it reads
from `z`, but no path that uses no edge twice leads there. -/
theorem strategies_differ :
    LineagePattern.make Loop.taxonomy Loop.context.guid .output Loop.context.depth
        Loop.context.isDataset = .ok Loop.pattern ∧
      (∀ e, e ∈ Loop.onPath ↔ Loop.pattern.Finds Loop.graph.added.toList e) ∧
      ∃ res res', (Loop.matched false).info Loop.request = .ok res ∧
        (Loop.matched true).info Loop.request = .ok res' ∧
        res.lineage.hasRelation ⟨.text "z", .text "p", .text "2", .null⟩ = true ∧
        res'.lineage.hasRelation ⟨.text "z", .text "p", .text "2", .null⟩ = false := by
  obtain ⟨res, hres, hflows⟩ := Outcome.map_eq_ok Loop.walked_flows
  obtain ⟨res', hres', hflows'⟩ := Outcome.map_eq_ok Loop.matched_flows
  refine ⟨Loop.make_eq, Loop.finds_iff, res, res', hres, hres', ?_, ?_⟩
  · unfold LineageGraph.hasRelation
    rw [hflows]
    cbv
  · unfold LineageGraph.hasRelation
    rw [hflows']
    cbv

/-- Around the loop both strategies end, with the same entities. -/
theorem strategies_agree_iff_loop :
    GraphRequest Loop.taxonomy Loop.graph Loop.policy Loop.request Loop.context ∧
    ∃ l l', (Loop.matched false).info Loop.request = .ok ⟨Loop.context, l⟩ ∧
      (Loop.matched true).info Loop.request = .ok ⟨Loop.context, l'⟩ ∧ l.Alike l' ∧
      (∀ x, l'.hasRelation x = true → l.hasRelation x = true) ∧
      ((∀ x, l.hasRelation x = l'.hasRelation x) ↔
        ∀ d ∈ Loop.context.direction.walks, ∀ e ∈ Loop.graph.added.toList,
          (Loop.graph.walkerWith Loop.answerPath Loop.taxonomy false 0).Records
              Loop.context d e →
            ∃ d' ∈ Loop.context.direction.walks,
              (Loop.graph.walkerWith Loop.answerPath Loop.taxonomy false 0).Records
                  Loop.context d' e ∧
                Loop.context.Finds Loop.taxonomy Loop.graph.added.toList d' e) := by
  refine ⟨Loop.graphRequest, ?_⟩
  have hi : Loop.policy.taxonomy.labels.inputs.key = .ok (.text "reads") := rfl
  have ho : Loop.policy.taxonomy.labels.outputs.key = .ok (.text "writes") := rfl
  have hanswer : ∀ d ∈ Loop.context.direction.walks, ∃ pattern edges,
      LineagePattern.make Loop.policy.taxonomy Loop.context.guid d Loop.context.depth
          Loop.context.isDataset = .ok pattern ∧
        Loop.answerPath pattern.script = .ok edges ∧
          ∀ e, e ∈ edges ↔ pattern.Finds Loop.graph.added.toList e := by
    intro d hd
    rw [Loop.mem_walks hd]
    exact ⟨Loop.pattern, Loop.onPath, Loop.make_eq, rfl, Loop.finds_iff⟩
  rcases strategies_agree_iff Loop.seeded Loop.graphRequest (fun _ he => Loop.hasName he) rfl hi ho
    (by decide) hanswer with ⟨herror, _⟩ | hends
  · have hflows := Loop.walked_flows
    have herror : (Loop.matched false).info Loop.request = _ := herror
    rw [herror] at hflows
    cases hflows
  · exact hends

end Service

end DataLineage
