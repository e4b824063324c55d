import DataLineage.Proofs.Graph.Answered

/-!
# The two indexes of a graph mirror each other

A graph keeps its edges in two tables, by source and by target. Whatever calls are made on a graph
in memory, and whatever edges are answered for a script, both tables list one and the same list of
edges: what is found from its source is found from its target, as often.

* `Addition`, `MemoryGraph.afterAll` -- a sequence of calls that add to a graph, the edges that it
  added, and what a failing call does;
* `GraphAccess.Indexes g es` -- both tables of `g` list `es`;
* `MemoryGraph.afterAll_indexes` -- after any calls, the tables list the edges that were added;
* `Edge.alike` -- what makes two answered edges the same one;
* `AnswerGraph.ofEdges_indexes` -- the tables of answered edges list the first edge of each
  identity, and the vertices are their ends;
* `indexes_mirror` -- the two together.
-/

namespace DataLineage

/-! ## 1. One list for both tables -/

open scoped Classical in
/-- How often an edge is in a list. -/
noncomputable def Edge.timesIn (e : Edge) (es : List Edge) : Nat := es.count e

open scoped Classical in
theorem Edge.timesIn_filter {e : Edge} {p : Edge → Bool} (h : p e = true) (es : List Edge) :
    e.timesIn (es.filter p) = e.timesIn es :=
  List.count_filter h

/-- **Both tables of the graph list the edges `es`**: at a side of a vertex those that end there and
have the label, in order; and every edge as often at its source as at its target. -/
structure GraphAccess.Indexes (g : GraphAccess Outcome) (es : List Edge) : Prop where
  listed : ∀ (v : Vertex) (side : Side) (label : Value) (id l : Scalar),
    v.id = .scalar id → label = .scalar l →
    g.edges v side label =
      .ok (es.filter fun e => (e.endAt side).id.same v.id && e.label.same label)
  equally : ∀ (e : Edge) (k : EdgeKeys), e.keys = .ok k → ∃ outs ins,
    g.edges e.source .outgoing e.label = .ok outs ∧
      g.edges e.target .incoming e.label = .ok ins ∧
      e.timesIn outs = e.timesIn es ∧ e.timesIn ins = e.timesIn es

/-- An edge lies at a side of its own end. -/
theorem Edge.liesAt_own {e : Edge} {k : EdgeKeys} (h : e.keys = .ok k) (side : Side) :
    e.liesAt side (k.endAt side) k.label = true :=
  (e.liesAt_iff side _ _).mpr
    ⟨EdgeKeys.endAt_key h side, ((Edge.keys_eq_ok_iff e k).mp h).1⟩

/-- **A graph that shows a list of edges indexes it.** -/
theorem GraphAccess.Shows.indexes {g : GraphAccess Outcome} {es : List Edge} (h : g.Shows es) :
    g.Indexes es where
  listed v side label id l hid hl := by
    have hv : v.id.key = .ok id.key := by rw [hid]; rfl
    have hlabel : label.key = .ok l.key := by rw [hl]; rfl
    rw [h.edges_eq hv hlabel side]
    refine congrArg Except.ok (List.filter_congr fun e _ => ?_)
    rw [hid, hl, Edge.liesAt, Value.same_eq_hasKey (k := id.key) rfl,
      Value.same_eq_hasKey (k := l.key) rfl]
  equally e k hk := by
    obtain ⟨hl, hs, ht⟩ := (Edge.keys_eq_ok_iff e k).mp hk
    exact ⟨_, _, h.edges_eq hs hl .outgoing, h.edges_eq ht hl .incoming,
      Edge.timesIn_filter (Edge.liesAt_own hk .outgoing) es,
      Edge.timesIn_filter (Edge.liesAt_own hk .incoming) es⟩

/-! ## 2. Calls that add to a graph -/

/-- A call that adds a vertex or an edge. -/
inductive Addition where
  | vertex (id typeName : Value) (properties : Record)
  | edge (label source target relationshipId : Value) (properties : Record)

namespace MemoryGraph

/-- What a call gives: the edge that it adds, if it adds one, and the graph after it. -/
def call (g : MemoryGraph) : Addition → Outcome (Option Edge × MemoryGraph)
  | .vertex id typeName properties => do
    let (_, g') ← g.addVertex id typeName properties
    return (none, g')
  | .edge label source target relationshipId properties => do
    let (e, g') ← g.addEdge label source target relationshipId properties
    return (some e, g')

/-- A graph and the edges added to it, after one more call. A call that fails adds nothing. -/
def after (state : MemoryGraph × List Edge) (a : Addition) : MemoryGraph × List Edge :=
  match state.1.call a with
  | .ok (added, g) => (g, state.2 ++ added.toList)
  | .error _ => state

/-- **The graph after a sequence of calls**, and the edges that they added, in order. -/
def afterAll (calls : List Addition) : MemoryGraph × List Edge := calls.foldl after (.empty, [])

theorem afterAll_concat (calls : List Addition) (a : Addition) :
    afterAll (calls ++ [a]) = after (afterAll calls) a := by
  rw [afterAll, List.foldl_append]
  rfl

/-- A call that fails leaves everything as it was. -/
theorem afterAll_failed {calls : List Addition} {a : Addition} {fault : Fault}
    (h : (afterAll calls).1.call a = .error fault) : afterAll (calls ++ [a]) = afterAll calls := by
  rw [afterAll_concat, after, h]

/-- The graph was built, and the edges are those that it holds. -/
structure Tracks (state : MemoryGraph × List Edge) : Prop where
  built : state.1.Built
  added : state.1.added.toList = state.2

/-- **What one call keeps.** -/
theorem Tracks.after {state : MemoryGraph × List Edge} (h : Tracks state) (a : Addition) :
    Tracks (after state a) := by
  unfold MemoryGraph.after
  split
  · rename_i added g hcall
    cases a with
    | vertex id typeName properties =>
        obtain ⟨⟨v, g'⟩, hadd, hcall⟩ := Outcome.bind_eq_ok.mp hcall
        cases hcall
        obtain ⟨_, _, _, rfl⟩ := addVertex_vertices hadd
        exact ⟨h.built.vertex hadd, h.added.trans (List.append_nil _).symm⟩
    | edge label source target relationshipId properties =>
        obtain ⟨⟨e, g'⟩, hadd, hcall⟩ := Outcome.bind_eq_ok.mp hcall
        cases hcall
        refine ⟨h.built.edge hadd, ?_⟩
        obtain ⟨_, _, _, _, _, _, _, _, rfl⟩ := addEdge_ok hadd
        exact Array.toList_push.trans (congrArg (· ++ [e]) h.added)
  · exact h

/-- **What any calls keep**, by induction on the calls. -/
theorem afterAll_tracks (calls : List Addition) : Tracks (afterAll calls) := by
  have fold (state : MemoryGraph × List Edge) (h : Tracks state) :
      Tracks (calls.foldl MemoryGraph.after state) := by
    induction calls generalizing state with
    | nil => exact h
    | cons a rest ih => exact ih _ (h.after a)
  exact fold _ ⟨.empty, rfl⟩

/-- **After any calls, the tables list the edges that were added.** -/
theorem afterAll_indexes (calls : List Addition) :
    (afterAll calls).1.access.Indexes (afterAll calls).2 := by
  have h := afterAll_tracks calls
  have hshows := h.built.shows fun _ => .error (.lineage .noQueryLanguage .null)
  rw [h.added] at hshows
  exact hshows.indexes

/-- The end of an edge that cannot be found is refused. -/
theorem endpoint_missing {g : MemoryGraph} {id : Value} (h : g.find id = .ok none) :
    g.endpoint id = .error (.seed (.unknownVertex id)) := by
  obtain ⟨key, hkey, hfind⟩ := Outcome.bind_eq_ok.mp h
  exact addEdge_unknown hkey (Except.ok.inj hfind)

/-- The end of an edge that is found is accepted. -/
theorem endpoint_found {g : MemoryGraph} {id : Value} {v : Vertex} (h : g.find id = .ok (some v)) :
    ∃ key, g.endpoint id = .ok (key, v) := by
  obtain ⟨key, hkey, hfind⟩ := Outcome.bind_eq_ok.mp h
  have hfind : g.vertices[key]? = some v := Except.ok.inj hfind
  refine ⟨key, ?_⟩
  rw [endpoint, hkey, Outcome.ok_bind, hfind]
  rfl

/-- **An edge with an unknown end is refused**, and the first end that is unknown is named: its
source, or its target where the source is known. -/
theorem call_unknown {g : MemoryGraph} {label source target relationshipId : Value}
    {properties : Record} (hnames : checkNames reservedOfEdge properties = .ok ()) :
    (g.find source = .ok none →
      g.call (.edge label source target relationshipId properties) =
        .error (.seed (.unknownVertex source))) ∧
    ((∃ v, g.find source = .ok (some v)) → g.find target = .ok none →
      g.call (.edge label source target relationshipId properties) =
        .error (.seed (.unknownVertex target))) := by
  constructor
  · intro hsource
    rw [call, addEdge, hnames, Outcome.ok_bind, endpoint_missing hsource]
    rfl
  · rintro ⟨v, hsource⟩ htarget
    obtain ⟨key, hsource⟩ := endpoint_found hsource
    rw [call, addEdge, hnames, Outcome.ok_bind, hsource, Outcome.ok_bind, endpoint_missing htarget]
    rfl

end MemoryGraph

/-! ## 3. What answered edges are known by -/

/-- **Are two answered edges known by the same?** By their relationship ids where these count, else
by their labels and ends. -/
def Edge.alike (counts : Value → Bool) (a b : Edge) : Bool :=
  if counts a.relationshipId then
    counts b.relationshipId && a.relationshipId.same b.relationshipId
  else
    !counts b.relationshipId && a.label.same b.label && a.source.id.same b.source.id &&
      a.target.id.same b.target.id

/-- An edge is known by its relationship id if that counts as true, else by its label and ends. -/
theorem Edge.answerKey_eq_ok_iff (e : Edge) (key : AnswerKey) :
    e.answerKey = .ok key ↔
      (e.relationshipId.truth = true ∧
        ∃ k, e.relationshipId.key = .ok k ∧ key = .relationship k) ∨
      (e.relationshipId.truth = false ∧
        ∃ k, e.keys = .ok k ∧ key = .ends k.label k.source k.target) := by
  unfold Edge.answerKey
  cases e.relationshipId.truth with
  | true =>
      simp only [if_true, Outcome.bind_eq_ok, pure, Except.pure, Except.ok.injEq, true_and,
        Bool.true_eq_false, false_and, or_false, eq_comm (a := key)]
  | false =>
      simp only [Bool.false_eq_true, if_false, Outcome.bind_eq_ok, pure, Except.pure,
        Except.ok.injEq, true_and, false_and, false_or, eq_comm (a := key)]

/-- What is the same as a value that can be identified has its key. -/
theorem Value.same_iff_key_eq {v w : Value} {k : Key} (hv : v.key = .ok k) :
    v.same w = true ↔ w.key = .ok k := by
  obtain ⟨s, rfl, rfl⟩ := (key_eq_ok_iff v k).mp hv
  cases w with
  | scalar t => rw [same_scalar_iff, key, Except.ok.injEq, eq_comm]
  | list items => simp [same, key]
  | set members => simp [same, key]
  | record fields => simp [same, key]

/-- **An edge is alike to another when it is known by the same.** -/
theorem Edge.alike_iff {a b : Edge} {key : AnswerKey} (ha : a.answerKey = .ok key) :
    a.alike Value.truth b = true ↔ b.answerKey = .ok key := by
  rw [b.answerKey_eq_ok_iff]
  unfold Edge.alike
  rcases (a.answerKey_eq_ok_iff key).mp ha with ⟨ht, k, hk, rfl⟩ | ⟨ht, k, hk, rfl⟩
  · simp [ht, Value.same_iff_key_eq hk]
  · obtain ⟨hl, hs, he⟩ := (Edge.keys_eq_ok_iff a k).mp hk
    simp only [ht, Bool.false_eq_true, if_false, Bool.and_eq_true, Bool.not_eq_true',
      Value.same_iff_key_eq hl, Value.same_iff_key_eq hs, Value.same_iff_key_eq he, and_assoc,
      reduceCtorEq, and_false, exists_false, false_or, AnswerKey.ends.injEq]
    refine and_congr_right fun _ =>
      ⟨fun h => ⟨k, (Edge.keys_eq_ok_iff b k).mpr h, rfl, rfl, rfl⟩, ?_⟩
    rintro ⟨k', hk', h₁, h₂, h₃⟩
    rw [h₁, h₂, h₃]
    exact (Edge.keys_eq_ok_iff b k').mp hk'

/-! ## 4. The graph of answered edges -/

namespace AnswerGraph

/-- The ends of a list of edges, source before target. -/
def ends (es : List Edge) : List Vertex := es.flatMap fun e => [e.source, e.target]

/-- The graph finds the first end with an id among the edges. -/
def Finds (g : AnswerGraph) (es : List Edge) : Prop :=
  ∀ k, g.vertices.lookup k = (ends es).find? fun v => v.id.hasKey k

/-- What is found after a vertex is entered: what was found before, else the vertex itself. -/
theorem lookup_putVertex (vertices : List (Key × Vertex)) {key : Key} {v : Vertex}
    (hv : v.id.key = .ok key) (k : Key) :
    (putVertex vertices key v).lookup k =
      (vertices.lookup k).or (if v.id.hasKey k then some v else none) := by
  have hk : (v.id.hasKey k = true) ↔ key = k := by rw [Value.hasKey_iff, hv, Except.ok.injEq]
  unfold putVertex
  by_cases hkey : key = k
  · rw [if_pos (hk.mpr hkey)]
    subst hkey
    split
    · rename_i hsome
      obtain ⟨w, hw⟩ := Option.isSome_iff_exists.mp hsome
      rw [hw, Option.some_or]
    · rename_i hsome
      rw [Option.not_isSome_iff_eq_none] at hsome
      rw [List.lookup_append, hsome, List.lookup_cons_self]
  · rw [if_neg fun h => hkey (hk.mp h), Option.or_none]
    split
    · rfl
    · rw [List.lookup_append, List.lookup_cons, beq_eq_false_iff_ne.mpr (Ne.symm hkey),
        List.lookup_nil, Option.or_none]

/-- The ends of a new edge are found unless others with their ids are. -/
theorem Finds.concat {g g' : AnswerGraph} {es : List Edge} {e : Edge} {k : EdgeKeys}
    (h : g.Finds es) (hk : e.keys = .ok k)
    (hg : g'.vertices = putVertex (putVertex g.vertices k.source e.source) k.target e.target) :
    g'.Finds (es ++ [e]) := by
  intro key
  obtain ⟨_, hs, ht⟩ := (Edge.keys_eq_ok_iff e k).mp hk
  rw [hg, lookup_putVertex _ ht, lookup_putVertex _ hs, h key, Option.or_assoc, ends, ends,
    List.flatMap_append, List.find?_append]
  congr 1
  simp only [List.flatMap_cons, List.flatMap_nil, List.append_nil, List.find?_cons, List.find?_nil]
  cases e.source.id.hasKey key <;> cases e.target.id.hasKey key <;> rfl

/-- **One more answered edge** is kept unless one of those kept is alike. -/
theorem Keeps.step {g g' : AnswerGraph} {es : List Edge} {e : Edge} (h : g.Keeps es)
    (hf : g.Finds es) (ha : g.add e = .ok g') :
    (es.any (e.alike Value.truth) = true ∧ g'.Keeps es ∧ g'.Finds es) ∨
      (es.any (e.alike Value.truth) = false ∧ g'.Keeps (es ++ [e]) ∧ g'.Finds (es ++ [e])) := by
  obtain ⟨key, hkey, hadd⟩ := add_ok ha
  have hany : es.any (e.alike Value.truth) = g.seen.contains key := by
    rw [Bool.eq_iff_iff, List.any_eq_true, h.seen]
    exact exists_congr fun e' => and_congr_right fun _ => Edge.alike_iff hkey
  rw [hany]
  rcases hadd with ⟨hs, rfl⟩ | ⟨hs, k, hk, _, _, hvertices⟩
  · exact .inl ⟨hs, h, hf⟩
  · obtain ⟨key', hkey', ⟨_, e', he', hknown⟩ | hkeeps⟩ := h.add ha
    · -- what is kept already would have been seen
      rw [hkey] at hkey'
      cases hkey'
      exact absurd ((h.seen key).mpr ⟨e', he', hknown⟩) (Bool.eq_false_iff.mp hs)
    · exact .inr ⟨hs, hkeeps, hf.concat hk hvertices⟩

/-- **The graph of a list of edges keeps the first edge of each identity**, by induction on the
list. -/
theorem ofEdges_first {edges : List Edge} {g : AnswerGraph} (h : ofEdges edges = .ok g) :
    g.Keeps (edges.eraseDupsBy (Edge.alike Value.truth)) ∧
      g.Finds (edges.eraseDupsBy (Edge.alike Value.truth)) := by
  have fold (edges : List Edge) (g₀ : AnswerGraph) (es₀ : List Edge) (hk : g₀.Keeps es₀)
      (hf : g₀.Finds es₀) (h : edges.foldlM add g₀ = .ok g) :
      g.Keeps (List.eraseDupsBy.loop (Edge.alike Value.truth) edges es₀.reverse) ∧
        g.Finds (List.eraseDupsBy.loop (Edge.alike Value.truth) edges es₀.reverse) := by
    induction edges generalizing g₀ es₀ with
    | nil =>
        cases h
        rw [List.eraseDupsBy.loop, List.reverse_reverse]
        exact ⟨hk, hf⟩
    | cons e rest ih =>
        obtain ⟨g₁, h₁, h⟩ := Outcome.bind_eq_ok.mp h
        rw [List.eraseDupsBy.loop, List.any_reverse]
        rcases hk.step hf h₁ with ⟨hany, hk₁, hf₁⟩ | ⟨hany, hk₁, hf₁⟩
        · rw [hany]
          exact ih g₁ es₀ hk₁ hf₁ h
        · rw [hany]
          simpa only [List.reverse_concat] using ih g₁ (es₀ ++ [e]) hk₁ hf₁ h
  exact fold edges .empty [] .empty (fun _ => rfl) h

/-- **The tables of answered edges list the first edge of each identity**, and under an id the
first of their ends is found that has it. -/
theorem ofEdges_indexes {edges : List Edge} {g : AnswerGraph} (h : ofEdges edges = .ok g) :
    g.access.Indexes (edges.eraseDupsBy (Edge.alike Value.truth)) ∧
      ∀ s : Scalar, g.find (.scalar s) =
        .ok ((ends (edges.eraseDupsBy (Edge.alike Value.truth))).find? fun v =>
          v.id.same (.scalar s)) := by
  obtain ⟨hkeeps, hfinds⟩ := ofEdges_first h
  refine ⟨hkeeps.shows.indexes, fun s => congrArg Except.ok ((hfinds s.key).trans ?_)⟩
  exact congrArg (List.find? · _) (funext fun v => (Value.same_eq_hasKey rfl).symm)

end AnswerGraph

/-! ## 5. Both kinds of graph -/

/-- The label and the ends of the edge can be identified, and so can its relationship id. -/
def Edge.Identified (e : Edge) : Prop :=
  (∃ k, e.keys = .ok k) ∧ ∃ s, e.relationshipId = .scalar s

/-- **The tables of a graph mirror each other.** In memory: after any calls that add vertices and
edges, both tables list the edges that were added, an edge with an unknown end is refused by the
name of that end, and a call that fails changes nothing. For answered edges: both tables list the
first edge of each identity, and what is found under an id is the first end that has it. -/
theorem indexes_mirror (calls : List Addition) (edges : List Edge) :
    ((MemoryGraph.afterAll calls).1.access.Indexes (MemoryGraph.afterAll calls).2 ∧
      (∀ label source target relationshipId properties,
        MemoryGraph.checkNames MemoryGraph.reservedOfEdge properties = .ok () →
        let call := (MemoryGraph.afterAll calls).1.call
          (.edge label source target relationshipId properties)
        let find := (MemoryGraph.afterAll calls).1.find
        (find source = .ok none → call = .error (.seed (.unknownVertex source))) ∧
          ((∃ v, find source = .ok (some v)) → find target = .ok none →
            call = .error (.seed (.unknownVertex target)))) ∧
      ∀ a fault, (MemoryGraph.afterAll calls).1.call a = .error fault →
        MemoryGraph.afterAll (calls ++ [a]) = MemoryGraph.afterAll calls) ∧
    ((∀ e ∈ edges, e.Identified) → ∃ answer, AnswerGraph.ofEdges edges = .ok answer) ∧
    ∀ answer, AnswerGraph.ofEdges edges = .ok answer →
      answer.access.Indexes (edges.eraseDupsBy (Edge.alike Value.truth)) ∧
        ∀ s : Scalar, answer.find (.scalar s) =
          .ok ((AnswerGraph.ends (edges.eraseDupsBy (Edge.alike Value.truth))).find? fun v =>
            v.id.same (.scalar s)) := by
  refine ⟨⟨MemoryGraph.afterAll_indexes calls, ?_, ?_⟩, ?_, ?_⟩
  · exact fun _ _ _ _ _ => MemoryGraph.call_unknown
  · exact fun _ _ => MemoryGraph.afterAll_failed
  · exact fun h => AnswerGraph.ofEdges_isOk (fun e he => (h e he).1) fun e he => (h e he).2
  · exact fun _ => AnswerGraph.ofEdges_indexes

/-! ## 6. Two edges between three vertices -/

namespace Pair

/-- A vertex with an id. -/
def vertex (id : String) : Vertex := ⟨.text id, .text "Table", []⟩

/-- The edge from `p` to another vertex, with a relationship id. -/
def edge (relationshipId target : String) : Edge :=
  ⟨.text "reads", vertex "p", vertex target, .text relationshipId, []⟩

theorem edge_identified (relationshipId target : String) :
    (edge relationshipId target).Identified :=
  ⟨⟨_, rfl⟩, _, rfl⟩

/-- Calls that add two vertices and the edge between them. -/
def calls : List Addition := [
  .vertex (.text "p") (.text "Table") [],
  .vertex (.text "x") (.text "Table") [],
  .edge (.text "reads") (.text "p") (.text "x") (.text "1") []]

/-- The call for an edge to a vertex that is not there. -/
def astray : Addition := .edge (.text "reads") (.text "p") (.text "gone") (.text "2") []

/-- The graph after the calls. -/
theorem calls_after : MemoryGraph.afterAll calls =
    (⟨((∅ : Std.HashMap Key Vertex).insert (.text "p") (vertex "p")).insert (.text "x")
        (vertex "x"),
      EdgeIndex.empty.add ⟨.text "reads", .text "p", .text "x"⟩ (edge "1" "x"), #[edge "1" "x"]⟩,
      [edge "1" "x"]) := by
  have hp (t : Std.HashMap Key Vertex) (v w : Vertex) :
      ((t.insert (.text "p") v).insert (.text "x") w)[Key.text "p"]? = some v := by
    rw [Std.HashMap.getElem?_insert, if_neg (by decide), Std.HashMap.getElem?_insert_self]
  have hx (t : Std.HashMap Key Vertex) (v w : Vertex) :
      ((t.insert (.text "p") v).insert (.text "x") w)[Key.text "x"]? = some w :=
    Std.HashMap.getElem?_insert_self
  simp only [MemoryGraph.afterAll, calls, List.foldl_cons, List.foldl_nil, MemoryGraph.after,
    MemoryGraph.call, MemoryGraph.addVertex, MemoryGraph.addEdge, MemoryGraph.endpoint,
    MemoryGraph.checkNames, MemoryGraph.empty, Value.key, Scalar.key, hp, hx, List.all_nil, if_true,
    Outcome.ok_bind, pure, Except.pure]
  rfl

/-- After the calls `p` is found, and `gone` is not. -/
theorem calls_find : (MemoryGraph.afterAll calls).1.find (.text "p") = .ok (some (vertex "p")) ∧
    (MemoryGraph.afterAll calls).1.find (.text "gone") = .ok none := by
  simp only [calls_after, MemoryGraph.find, Value.key, Scalar.key, Outcome.ok_bind]
  constructor <;> refine congrArg Except.ok ?_
  · rw [Std.HashMap.getElem?_insert, if_neg (by decide), Std.HashMap.getElem?_insert_self]
  · rw [Std.HashMap.getElem?_insert, if_neg (by decide), Std.HashMap.getElem?_insert,
      if_neg (by decide), Std.HashMap.getElem?_empty]

end Pair

/-- The added edge is listed at both of its ends, and an edge to a vertex that is not there is
refused without a trace. The same edge answered twice is listed once. -/
theorem indexes_mirror_pair :
    ((MemoryGraph.afterAll Pair.calls).1.access.Indexes [Pair.edge "1" "x"] ∧
      (MemoryGraph.afterAll Pair.calls).1.call Pair.astray =
        .error (.seed (.unknownVertex (.text "gone"))) ∧
      MemoryGraph.afterAll (Pair.calls ++ [Pair.astray]) = MemoryGraph.afterAll Pair.calls) ∧
    ∃ answer, AnswerGraph.ofEdges [Pair.edge "1" "x", Pair.edge "1" "x"] = .ok answer ∧
      answer.access.Indexes [Pair.edge "1" "x"] ∧
      answer.find (.text "x") = .ok (some (Pair.vertex "x")) := by
  obtain ⟨⟨hindexes, hunknown, hfailed⟩, htotal, hanswer⟩ :=
    indexes_mirror Pair.calls [Pair.edge "1" "x", Pair.edge "1" "x"]
  have hastray := (hunknown (.text "reads") (.text "p") (.text "gone") (.text "2") [] rfl).2
    ⟨_, Pair.calls_find.1⟩ Pair.calls_find.2
  obtain ⟨answer, h⟩ := htotal (by simp [Pair.edge_identified])
  obtain ⟨hlisted, hfind⟩ := hanswer answer h
  refine ⟨⟨?_, hastray, hfailed Pair.astray _ hastray⟩, answer, h, hlisted, hfind (.text "x")⟩
  rw [Pair.calls_after] at hindexes ⊢
  exact hindexes

/-- **An empty relationship id makes no edge the same as another**: two edges of one label from one
vertex, both with an empty id, are both listed. By the ids as they are, the second would be a
repetition of the first. -/
theorem blank_ids_apart :
    (∃ answer, AnswerGraph.ofEdges [Pair.edge "" "x", Pair.edge "" "y"] = .ok answer ∧
      answer.edges (Pair.vertex "p") .outgoing (.text "reads") =
        .ok [Pair.edge "" "x", Pair.edge "" "y"]) ∧
    ¬ ∀ edges answer, AnswerGraph.ofEdges edges = .ok answer →
      answer.access.Indexes (edges.eraseDupsBy (Edge.alike fun id => !id.isNull)) := by
  have hids : ∀ e ∈ [Pair.edge "" "x", Pair.edge "" "y"], e.Identified := by
    simp [Pair.edge_identified]
  obtain ⟨answer, hanswer⟩ :=
    AnswerGraph.ofEdges_isOk (fun e he => (hids e he).1) fun e he => (hids e he).2
  have hboth : answer.edges (Pair.vertex "p") .outgoing (.text "reads") =
      .ok [Pair.edge "" "x", Pair.edge "" "y"] :=
    (AnswerGraph.ofEdges_indexes hanswer).1.listed (Pair.vertex "p") .outgoing (.text "reads") _ _
      rfl rfl
  refine ⟨⟨answer, hanswer, hboth⟩, fun hall => ?_⟩
  have hone : answer.edges (Pair.vertex "p") .outgoing (.text "reads") =
      .ok [Pair.edge "" "x"] :=
    (hall _ answer hanswer).listed (Pair.vertex "p") .outgoing (.text "reads") _ _ rfl rfl
  rw [hboth] at hone
  cases hone

end DataLineage
