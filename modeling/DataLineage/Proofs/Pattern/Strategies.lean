import DataLineage.Proofs.Lineage.Exact
import DataLineage.Proofs.Pattern.Replay
import DataLineage.Proofs.Walk.Part

/-!
# Both strategies side by side

A request that shows processes can be walked over the graph, or over what a database answers. Where
the answers lead to all datasets to which the graph leads, the two go hand in hand:

* `LineageGraph.Alike` -- two lineages about the same, with the same headers for the same entities;
* `LineageGraph.FlowsOver` -- the relations of a lineage are those of some edges;
* `Walker.Twins` -- the two walks of one direction expand as many vertices and find the same
  entities;
* `Walker.traverse_twins` -- **both strategies exceed the vertex budget, or both end** in lineages
  that are alike;
* `GraphRequest.records_iff` -- the edges whose relations a walk over the graph records;
* `GraphRequest.twins` -- **the walks are twins where the answer leads far enough**, and the one
  over the answer records those of the recorded edges that are answered.
-/

namespace DataLineage

/-! ## 1. Lineages that are alike -/

/-- **The two lineages say the same of their request**, and have the same headers for the same
entities. -/
structure LineageGraph.Alike (a b : LineageGraph) : Prop where
  guid : a.guid = b.guid
  direction : a.direction = b.direction
  depth : a.depth = b.depth
  entities : ∀ id, EntityMap.get? a.entities id = EntityMap.get? b.entities id

/-- **Answers to the same request with the same entities are alike**, where the headers are those of
the vertices. -/
theorem Context.Answers.alike {c : Context} {Q : Key → EntityHeader → Prop} {direction : Direction}
    {a b : LineageGraph} (ha : c.Answers Q direction a) (hb : c.Answers Q direction b)
    (once : ∀ k x y, Q k x → Q k y → x = y)
    (h : ∀ id, a.hasEntity id = true ↔ b.hasEntity id = true) : a.Alike b where
  guid := ha.guid.trans hb.guid.symm
  direction := ha.direction.trans hb.direction.symm
  depth := ha.depth.trans hb.depth.symm
  entities id := by
    refine Option.ext fun hd => ?_
    rw [LineageGraph.get?_eq_some_iff ha.pictures once,
      LineageGraph.get?_eq_some_iff hb.pictures once, h]

/-! ## 2. Relations of edges -/

/-- The relationship id of the edge is a text, and not the empty one. -/
def Edge.HasName (e : Edge) : Prop := ∃ s, e.relationshipId = .text s ∧ s ≠ ""

/-- Edges of the graph that have names are told by them. -/
theorem MemoryGraph.Seeded.eq_of_name {g : MemoryGraph} (hg : g.Seeded) {a b : Edge}
    (ha : a ∈ g.added.toList) (hb : b ∈ g.added.toList) (hname : a.HasName) {s u : Scalar}
    (hs : a.relationshipId = .scalar s) (hu : b.relationshipId = .scalar u)
    (hk : s.key = u.key) : a = b := by
  obtain ⟨name, hn, _⟩ := hname
  refine hg.distinct.eq_of_key ha hb hs hu (fun hnull => ?_) hk
  rw [hs, hnull] at hn
  cases hn

/-- Edges with names are listed once. -/
theorem MemoryGraph.Seeded.nodup {g : MemoryGraph} (hg : g.Seeded)
    (hname : ∀ e ∈ g.added.toList, e.HasName) : g.added.toList.Nodup := by
  refine hg.distinct.imp_of_mem fun {a b} ha _ hab heq => ?_
  obtain ⟨name, hn, _⟩ := hname a ha
  exact hab (.text name) (.text name) hn (heq ▸ hn) (fun h => nomatch h) rfl

/-- **The relations of the lineage are those of the edges.** -/
def LineageGraph.FlowsOver (l : LineageGraph) (labels : EdgeLabels) (P : Edge → Prop) : Prop :=
  ∀ x, l.hasRelation x = true ↔ ∃ e, P e ∧ ∃ y, e.Flow labels y ∧ x.same y = true

namespace LineageGraph.FlowsOver

variable {l l' : LineageGraph} {labels : EdgeLabels} {P P' : Edge → Prop} {g : MemoryGraph}

theorem congr (h : l.FlowsOver labels P) (hP : ∀ e, P e ↔ P' e) : l.FlowsOver labels P' := by
  intro x
  rw [h x]
  exact exists_congr fun e => and_congr_left fun _ => hP e

/-- More edges have more relations. -/
theorem mono (h : l.FlowsOver labels P) (h' : l'.FlowsOver labels P') (hP : ∀ e, P' e → P e)
    (x : Relation) (hx : l'.hasRelation x = true) : l.hasRelation x = true := by
  obtain ⟨e, he, hy⟩ := (h' x).mp hx
  exact (h x).mpr ⟨e, hP e he, hy⟩

/-- The union of results has the relations of all their edges. -/
theorem aggregate {c : Context} {L : Direction → LineageGraph} {P : Direction → Edge → Prop}
    (h : ∀ d ∈ c.direction.walks, (L d).FlowsOver labels (P d)) :
    (c.aggregate (c.direction.walks.map L)).FlowsOver labels
      fun e => ∃ d ∈ c.direction.walks, P d e := by
  intro x
  rw [Context.hasRelation_walks]
  constructor
  · intro hx
    obtain ⟨d, hd, hx⟩ := hx
    obtain ⟨e, he, hy⟩ := (h d hd x).mp hx
    exact ⟨e, ⟨d, hd, he⟩, hy⟩
  · intro hx
    obtain ⟨e, ⟨d, hd, he⟩, hy⟩ := hx
    exact ⟨d, hd, (h d hd x).mpr ⟨e, he, hy⟩⟩

/-- **The relation of an edge tells whether the edge is one of them**, since edges are told by their
names. -/
theorem hasRelation_iff (h : l.FlowsOver labels P) (hg : g.Seeded)
    (hname : ∀ e ∈ g.added.toList, e.HasName) (hP : ∀ e, P e → e ∈ g.added.toList) {e : Edge}
    (he : e ∈ g.added.toList) {x : Relation} (hx : e.Flow labels x) :
    l.hasRelation x = true ↔ P e := by
  rw [h x]
  constructor
  · intro h'
    obtain ⟨e', he', y, hy, hxy⟩ := h'
    have hids : x.relationshipId.key = y.relationshipId.key :=
      ((Relation.same_iff x y).mp hxy).2.2.1
    rw [hg.eq_of_name he (hP e' he') (hname e he) hx.1 hy.1 hids]
    exact he'
  · intro h'
    exact ⟨e, h', x, hx, Relation.same_refl x⟩

/-- **The relations of some of the edges are all relations if and only if they are all edges.** -/
theorem same_iff (h : l.FlowsOver labels P) (h' : l'.FlowsOver labels P') (hg : g.Seeded)
    (hname : ∀ e ∈ g.added.toList, e.HasName) (hP : ∀ e, P e → e ∈ g.added.toList)
    (hsub : ∀ e, P' e → P e) (hflow : ∀ e ∈ g.added.toList, ∃ x, e.Flow labels x) :
    (∀ x, l.hasRelation x = l'.hasRelation x) ↔ ∀ e, P e → P' e := by
  constructor
  · intro hsame e he
    obtain ⟨x, hx⟩ := hflow e (hP e he)
    have hl : l.hasRelation x = true := (h.hasRelation_iff hg hname hP (hP e he) hx).mpr he
    rw [hsame x] at hl
    exact (h'.hasRelation_iff hg hname (fun e he => hP e (hsub e he)) (hP e he) hx).mp hl
  · intro hall x
    exact Bool.eq_iff_iff.mpr ⟨h'.mono h hall x, h.mono h' hsub x⟩

end LineageGraph.FlowsOver

namespace Walker

/-! ## 3. Twins -/

variable {w : Walker Outcome} {c : Context} {m : Nat} {Q : Key → EntityHeader → Prop}

/-- **The two walks of one direction go hand in hand**: under every vertex budget both end, in the
two lineages, or both exceed it; the lineages have the same entities, with headers as in `Q`, and
the relations of the edges in `P` and in `P'`. -/
structure Twins (w : Walker Outcome) (c : Context) (m : Nat) (Q : Key → EntityHeader → Prop)
    (direction : Direction) (P P' : Edge → Prop) (l l' : LineageGraph) (cost : Nat) : Prop where
  walk : ∀ n, (m = 0 ∨ n ≤ m) → w.walk c direction ⟨.int m, n⟩ =
    if m = 0 ∨ n + cost ≤ m then .ok (l, ⟨.int m, n + cost⟩) else .error (tooMany m c.guid)
  answer : ∀ n, (m = 0 ∨ n ≤ m) → w.walkAnswer c direction ⟨.int m, n⟩ =
    if m = 0 ∨ n + cost ≤ m then .ok (l', ⟨.int m, n + cost⟩) else .error (tooMany m c.guid)
  answers : c.Answers Q direction l
  answers' : c.Answers Q direction l'
  entities : ∀ id, l.hasEntity id = true ↔ l'.hasEntity id = true
  flows : l.FlowsOver w.taxonomy.labels P
  flows' : l'.FlowsOver w.taxonomy.labels P'

/-- **Both strategies exceed the vertex budget, or both end** in lineages that are alike and have
the relations of the edges of their walks. -/
theorem traverse_twins (hm : c.hidesProcesses = false) (hmax : w.maxVertices = .int m)
    (once : ∀ k x y, Q k x → Q k y → x = y) {P P' : Direction → Edge → Prop}
    (h : ∀ d ∈ c.direction.walks, ∃ l l' cost, w.Twins c m Q d (P d) (P' d) l l' cost) :
    (w.traverse c = .error (tooMany m c.guid) ∧
        w.traverseAnswers c = .error (tooMany m c.guid)) ∨
      ∃ l l', w.traverse c = .ok l ∧ w.traverseAnswers c = .ok l' ∧ l.Alike l' ∧
        l.FlowsOver w.taxonomy.labels (fun e => ∃ d ∈ c.direction.walks, P d e) ∧
        l'.FlowsOver w.taxonomy.labels fun e => ∃ d ∈ c.direction.walks, P' d e := by
  choose! L L' cost h using h
  have hstart : VertexBudget.start w.maxVertices = ⟨.int m, 0⟩ := by
    rw [hmax]
    rfl
  have hn : m = 0 ∨ 0 ≤ m := .inr (Nat.zero_le m)
  have hwalks := walkAll_limited L cost (fun d hd => (h d hd).walk) hn
  have hanswers := walkAll_limited L' cost (fun d hd => (h d hd).answer) hn
  have htraverse : w.traverse c =
      walkAll (w.walk c) c.direction.walks ⟨.int m, 0⟩ >>= fun ls => .ok (c.aggregate ls) := by
    rw [← hstart]
    rfl
  have htraverse' : w.traverseAnswers c = walkAll (w.walkAnswer c) c.direction.walks ⟨.int m, 0⟩ >>=
      fun ls => .ok (c.aggregate ls) := by
    unfold traverseAnswers
    rw [hm, hstart]
    rfl
  by_cases hfits : m = 0 ∨ 0 + (c.direction.walks.map cost).sum ≤ m
  · rw [if_pos hfits] at hwalks hanswers
    rw [hwalks, Outcome.ok_bind] at htraverse
    rw [hanswers, Outcome.ok_bind] at htraverse'
    have halike : (c.aggregate (c.direction.walks.map L)).Alike
        (c.aggregate (c.direction.walks.map L')) := by
      refine Context.Answers.alike (.aggregate fun d hd => (h d hd).answers)
        (.aggregate fun d hd => (h d hd).answers') once fun id => ?_
      rw [Context.hasEntity_walks, Context.hasEntity_walks]
      exact exists_congr fun d => and_congr_right fun hd => (h d hd).entities id
    exact .inr ⟨_, _, htraverse, htraverse', halike, .aggregate fun d hd => (h d hd).flows,
      .aggregate fun d hd => (h d hd).flows'⟩
  · rw [if_neg hfits] at hwalks hanswers
    rw [hwalks] at htraverse
    rw [hanswers] at htraverse'
    exact .inl ⟨htraverse, htraverse'⟩

/-- **The walk in the direction records the edge**, if no vertex budget is set: the relation of the
edge is one of the lineage. -/
def Records (w : Walker Outcome) (c : Context) (direction : Direction) (e : Edge) : Prop :=
  ∃ l x y, w.walk c direction (.start (.int 0)) = .ok (l, x) ∧ e.Flow w.taxonomy.labels y ∧
    l.hasRelation y = true

/-- The edges of the graph that the walk in the direction records. -/
def RecordsIn (w : Walker Outcome) (g : MemoryGraph) (c : Context) (direction : Direction)
    (e : Edge) : Prop :=
  e ∈ g.added.toList ∧ w.Records c direction e

end Walker

/-! ## 4. Walks over the graph and over an answer -/

/-- The walker over a graph whose database answers scripts, under a vertex budget. -/
def MemoryGraph.walkerWith (g : MemoryGraph) (answer : Script → Outcome (List Edge)) (t : Taxonomy)
    (requireBoth : Bool) (m : Nat) : Walker Outcome :=
  ⟨g.accessWith answer, t, requireBoth, .int m⟩

/-- **What is kept of an answer with edges of the graph** is each edge of the answer, once. -/
theorem MemoryGraph.Seeded.answer_keeps {g : MemoryGraph} (hg : g.Seeded)
    (hname : ∀ e ∈ g.added.toList, e.HasName) {edges : List Edge}
    (hsub : ∀ e ∈ edges, e ∈ g.added.toList) :
    ∃ a es, AnswerGraph.ofEdges edges = .ok a ∧ a.Keeps es ∧ (∀ e, e ∈ es ↔ e ∈ edges) ∧
      es.Nodup := by
  obtain ⟨a, ha⟩ := AnswerGraph.ofEdges_isOk
    (fun e he => (hg.built.shows fun _ => .ok []).keyed e (hsub e he))
    (fun e he => hg.ids e (hsub e he))
  obtain ⟨es, hkeeps, hes, hrep⟩ := AnswerGraph.ofEdges_keeps ha
  refine ⟨a, es, ha, hkeeps, fun e => ⟨hes e, fun he => ?_⟩, ?_⟩
  · obtain ⟨e', he', key, hkey, hkey'⟩ := hrep e he
    obtain ⟨s, hs, hne⟩ := hname e (hsub e he)
    obtain ⟨s', hs', hne'⟩ := hname e' (hsub e' (hes e' he'))
    have htext (e : Edge) (s : String) (hs : e.relationshipId = .text s) (hne : s ≠ "") :
        e.answerKey = .ok (.relationship (.text s)) := by
      have htrue : (Value.text s).truth = true := by
        show (!s.isEmpty) = true
        simp [hne]
      unfold Edge.answerKey
      rw [hs, if_pos htrue]
      rfl
    rw [htext e s hs hne] at hkey
    rw [htext e' s' hs' hne'] at hkey'
    have hss : AnswerKey.relationship (.text s) = .relationship (.text s') :=
      Except.ok.inj (hkey.trans hkey'.symm)
    have hkeys : (Scalar.text s).key = (Scalar.text s').key := AnswerKey.relationship.inj hss
    rw [hg.eq_of_name (hsub e he) (hsub e' (hes e' he')) (hname e (hsub e he)) hs hs' hkeys]
    exact he'
  · exact hkeeps.distinct.imp fun hab heq => hab (congrArg Edge.answerKey heq)

namespace GraphRequest

variable {t : Taxonomy} {g : MemoryGraph} {p : Policy} {req : LineageRequest} {c : Context}
  {w : Walker Outcome} {direction : Direction} {T : Terrain} {l : LineageGraph}

/-- Every edge of the graph has a relation. -/
theorem flow_isOk (h : GraphRequest t g p req c) (hg : g.Seeded) {e : Edge}
    (he : e ∈ g.added.toList) : ∃ x, e.Flow w.taxonomy.labels x := by
  obtain ⟨x, hx⟩ := Recorder.relationOf_total (h.readsEdge (r := w.recorder c) hg rfl he)
  exact ⟨x, Recorder.relationOf_iff.mp hx⟩

/-- **The relations of a walk are those of the edges that it records.** -/
theorem flowsOver (h : GraphRequest t g p req c) (hg : g.Seeded) (hm : c.hidesProcesses = false)
    (hholds : l.Holds (T.Yields (w.recorder c))) :
    l.FlowsOver w.taxonomy.labels (T.Recorded (w.recorder c)) := by
  have hyields := Terrain.yields_iff_recorded (t := T) (r := w.recorder c) hm
    fun e he => h.isRoot_source hg he
  intro x
  rw [hholds.records.relations x]
  constructor
  · intro hx
    obtain ⟨y, hy, hxy⟩ := hx
    obtain ⟨e, he, hflow⟩ := (hyields y).mp hy
    exact ⟨e, he, y, Recorder.relationOf_iff.mp hflow, hxy⟩
  · intro hx
    obtain ⟨e, he, y, hflow, hxy⟩ := hx
    exact ⟨y, (hyields y).mpr ⟨e, he, Recorder.relationOf_iff.mpr hflow⟩, hxy⟩

/-- **A walk over the graph records the edges whose relations its lineage has.** -/
theorem records_iff (h : GraphRequest t g p req c) (hg : g.Seeded) (hm : c.hidesProcesses = false)
    (hname : ∀ e ∈ g.added.toList, e.HasName) (ho : w.Over (direction == .input) T)
    (hT : T.edges = g.added.toList) (e : Edge) :
    w.RecordsIn g c direction e ↔ T.Recorded (w.recorder c) e := by
  have hsub (e : Edge) (he : T.Recorded (w.recorder c) e) : e ∈ g.added.toList := hT ▸ he.mem
  have hx : (VertexBudget.start (.int 0)).limit.truth = false := rfl
  obtain ⟨l, x, hl, _, hholds⟩ := h.walk_ends hg ho (fun e he => hT ▸ he) hx
  have hflows := h.flowsOver hg hm hholds
  constructor
  · intro h'
    obtain ⟨he, l', x', y, hl', hflow, hy⟩ := h'
    rw [hl] at hl'
    cases hl'
    exact (hflows.hasRelation_iff hg hname hsub he hflow).mp hy
  · intro hrecorded
    have he := hsub e hrecorded
    obtain ⟨y, hflow⟩ := h.flow_isOk (w := w) hg he
    exact ⟨he, l, x, y, hl, hflow, (hflows.hasRelation_iff hg hname hsub he hflow).mpr hrecorded⟩

variable {answer : Script → Outcome (List Edge)} {requireBoth : Bool} {m : Nat}
  {inKey outKey : Key}

/-- **The walks over the graph and over what is answered are twins**, where the answered edges are
edges of the graph and lead to all datasets to which the graph leads. The one over the answer
records what is answered of the edges that the other one records. -/
theorem twins (h : GraphRequest t g p req c) (hg : g.Seeded)
    (hname : ∀ e ∈ g.added.toList, e.HasName) (hm : c.hidesProcesses = false)
    (hi : t.labels.inputs.key = .ok inKey) (ho : t.labels.outputs.key = .ok outKey)
    {pattern : LineagePattern} {edges : List Edge}
    (hpattern : LineagePattern.make t c.guid direction c.depth c.isDataset = .ok pattern)
    (hanswer : answer pattern.script = .ok edges) (hsub : ∀ e ∈ edges, e ∈ g.added.toList)
    (hrep : ∀ S T : Terrain, T.For g.added.toList t.labels (direction == .input) → S.Part T →
      (∀ e, e ∈ S.edges ↔ e ∈ edges) →
        S.Replays T ((g.walkerWith answer t requireBoth m).recorder c)) :
    ∃ l l' cost, (g.walkerWith answer t requireBoth m).Twins c m (g.HeaderAt c) direction
      ((g.walkerWith answer t requireBoth m).RecordsIn g c direction)
      (fun e => (g.walkerWith answer t requireBoth m).RecordsIn g c direction e ∧ e ∈ edges)
      l l' cost := by
  obtain ⟨k, _, hk, _⟩ := h.root_key hg
  obtain ⟨into, out, hinto, hout⟩ := EdgeLabels.forDirection_keys hi ho (direction == .input)
  obtain ⟨a, es, ha, hkeeps, hmem, hnodup⟩ := hg.answer_keeps hname hsub
  let w : Walker Outcome := g.walkerWith answer t requireBoth m
  let T : Terrain := ⟨g.added.toList, into, out⟩
  let S : Terrain := ⟨es, into, out⟩
  have hpart : ∀ e ∈ S.edges, e ∈ g.added.toList := fun e he => hsub e ((hmem e).mp he)
  have hrep : S.Replays T (w.recorder c) := hrep S T ⟨rfl, hinto, hout⟩ ⟨rfl, rfl, hpart⟩ hmem
  have hover : w.Over (direction == .input) T := ⟨hg.built.shows answer, hinto, hout⟩
  have hover' : (w.replaying a).Over (direction == .input) S := ⟨hkeeps.shows, hinto, hout⟩
  have hx : (VertexBudget.start (.int 0)).limit.truth = false := rfl
  obtain ⟨l, x, hl, hanswers, hholds⟩ := h.walk_ends hg hover (fun _ he => he) hx
  obtain ⟨l', x', hl', hanswers', hholds'⟩ := h.walk_ends hg hover' hpart hx
  have hrecorded := h.records_iff hg hm hname hover rfl
  have hrecorded' (e : Edge) :
      S.Recorded (w.recorder c) e ↔ w.RecordsIn g c direction e ∧ e ∈ edges := by
    rw [hrep.recorded_iff, ← hrecorded e]
    exact and_congr_right fun _ => hmem e
  refine ⟨l, l', T.total (w.recorder c), ?_, ?_, hanswers, hanswers', fun id => ?_,
    (h.flowsOver hg hm hholds).congr fun e => (hrecorded e).symm,
    LineageGraph.FlowsOver.congr (h.flowsOver (w := w.replaying a) hg hm hholds') hrecorded'⟩
  · exact fun n hn => Walker.walk_limited hover hk hl hn
  · intro n hn
    rw [Walker.walkAnswer_eq hpattern hanswer ha, Walker.walk_limited hover' hk hl' hn,
      ← hrep.total_eq hnodup (hg.nodup hname)]
    rfl
  · have hends := hrep.ends_iff hm (fun e he => h.isRoot_source hg he)
      (fun e he => Recorder.relationOf_total (h.readsEdge hg rfl he))
    rw [hholds.names id, hholds'.names id]
    exact (hends id.key).symm

end GraphRequest

/-! ## 5. Around the loop -/

namespace Loop

theorem hasName {e : Edge} (he : e ∈ graph.added.toList) : e.HasName := by
  have he : e ∈ edges := he
  simp only [edges, List.mem_cons, List.not_mem_nil, or_false] at he
  rcases he with rfl | rfl | rfl | rfl | rfl
  · exact ⟨"1", rfl, by decide⟩
  · exact ⟨"2", rfl, by decide⟩
  · exact ⟨"3", rfl, by decide⟩
  · exact ⟨"4", rfl, by decide⟩
  · exact ⟨"5", rfl, by decide⟩

/-- The pattern of all that flows out of `y`. -/
def pattern : LineagePattern where
  guid := .text "y"
  fromProcess := false
  incoming := .text "reads"
  outgoing := .text "writes"
  depth := .int (-1)
  processDepth := .int (-1)
  hops := none

theorem make_eq :
    LineagePattern.make taxonomy context.guid .output context.depth context.isDataset =
      .ok pattern := by cbv

theorem mem_walks {d : Direction} (hd : d ∈ context.direction.walks) : d = .output :=
  List.mem_singleton.mp hd

end Loop

end DataLineage
