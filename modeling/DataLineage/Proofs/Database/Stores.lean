import DataLineage.Proofs.Database.Agreed
import DataLineage.Proofs.Graph.Faithful

/-!
# One seed, one lineage

Seed data can be loaded into a database or be built into a graph in memory, and a lineage can be
resolved over either store:

* `Service.stores_agree` -- **requests agree over both stores**: lineages differ in the attribute
  `id` alone, and faults are possible over either store, unless something looks at the property
  `id`;
* `Service.stores_differ` -- what tells the stores apart: an attribute, a filter, a projector or an
  authorizer that looks at this property, ids, guids and names that one of them cannot keep or
  find, and the order in which edges are listed.
-/

namespace DataLineage

/-! ## 1. Loaded and built -/

/-- A connection for which nothing is laid down is not disturbed. -/
theorem Connection.start_undisturbed : (start ⟨#[], #[]⟩ [] .null).Undisturbed :=
  fun _ s => answer_local ⟨#[], #[]⟩ s

namespace Loop

theorem keepable : accepted.Keepable where
  types a ha := by
    simp only [accepted, List.mem_cons, List.not_mem_nil, or_false] at ha
    rcases ha with rfl | rfl <;>
      exact ⟨_, (Loader.safeIdentifier_text _).trans (if_pos (by decide +kernel))⟩
  labels r hr := by
    simp only [accepted, List.mem_cons, List.not_mem_nil, or_false] at hr
    rcases hr with rfl | rfl | rfl | rfl | rfl <;> exact ⟨_, by cbv⟩
  properties r hr field hfield := by
    obtain ⟨id, hid⟩ := rows_eq hr
    rw [hid] at hfield
    obtain rfl := List.mem_singleton.mp hfield
    exact ⟨by simp [MemoryGraph.reservedOfVertex], trivial⟩
  ids r hr := by
    simp only [accepted, List.mem_cons, List.not_mem_nil, or_false] at hr
    rcases hr with rfl | rfl | rfl | rfl | rfl <;> exact ⟨_, rfl, by decide⟩

theorem storable : accepted.Storable where
  toKeepable := keepable
  names r hr field hfield := by
    obtain ⟨id, hid⟩ := rows_eq hr
    rw [hid] at hfield
    obtain rfl := List.mem_singleton.mp hfield
    exact ⟨_, rfl⟩
  numbers r hr := by
    obtain ⟨id, hid⟩ := rows_eq hr
    rw [hid]
    nofun

def node (label id : String) : Node := ⟨[label], row id⟩

def tableNodes : List Node := [node "Table" "x", node "Table" "y", node "Table" "z"]

def jobNodes : List Node := [node "Job" "p", node "Job" "q"]

def relationship (number : Nat) (id label : String) (start finish : Int) : Relationship :=
  ⟨number, .text label, start, finish, [("relationship_id", .text id)]⟩

def reads : List Relationship := [relationship 0 "1" "reads" 3 1, relationship 1 "2" "reads" 3 2,
  relationship 2 "4" "reads" 4 0]

def writes : List Relationship :=
  [relationship 3 "3" "writes" 3 0, relationship 4 "5" "writes" 4 2]

/-- The catalogue in a database. -/
def stored : Content :=
  ⟨#[] ++ tableNodes.toArray ++ jobNodes.toArray, #[] ++ reads.toArray ++ writes.toArray⟩

/-- A row of a relationship. -/
def linkRow (id job table : String) : Record :=
  [("from_id", .text job), ("to_id", .text table), ("relationship_id", .text id)]

/-- What is sent to a database when the catalogue is loaded. -/
def queries : List Statement := [.clear, .uniqueId "Table", .uniqueId "Job",
  .mergeNodes "Table" (.list [.record (row "x"), .record (row "y"), .record (row "z")]),
  .mergeNodes "Job" (.list [.record (row "p"), .record (row "q")]),
  .mergeRelationships "\x60reads\x60" [linkRow "1" "p" "y", linkRow "2" "p" "z",
    linkRow "4" "q" "x"],
  .mergeRelationships "\x60writes\x60" [linkRow "3" "p" "x", linkRow "5" "q" "z"]]

theorem queries_eq (fresh : Nat → String) : Loader.queries accepted fresh 0 true true = queries := by
  cbv

/-- A node of a row that has only its id. -/
theorem node_of (label id : String) : Node.Of label (row id) (node label id) := ⟨rfl, fun _ => rfl⟩

/-- A relationship of a row, between the nodes of these numbers. -/
theorem made {c : Content} (hc : stored.nodes = c.nodes) (number : Nat)
    {id label job table : String} {start finish : Int}
    (hstart : start ∈ stored.matching .plain (.text job))
    (hfinish : finish ∈ stored.matching .plain (.text table)) :
    c.Writes .plain label (linkRow id job table) (relationship number id label start finish) :=
  Content.Writes.congr ⟨rfl, hstart, hfinish, fun _ => rfl⟩ hc

/-- **The load may leave this content.** -/
theorem leads : Content.Leads .plain ⟨#[], #[]⟩ queries stored := by
  have htables : List.Forall₂ (Node.Of "Table") [row "x", row "y", row "z"] tableNodes :=
    .cons (node_of ..) (.cons (node_of ..) (.cons (node_of ..) .nil))
  have hjobs : List.Forall₂ (Node.Of "Job") [row "p", row "q"] jobNodes :=
    .cons (node_of ..) (.cons (node_of ..) .nil)
  have hp : 3 ∈ stored.matching .plain (.text "p") := by decide +kernel
  have hq : 4 ∈ stored.matching .plain (.text "q") := by decide +kernel
  have hx : 0 ∈ stored.matching .plain (.text "x") := by decide +kernel
  have hy : 1 ∈ stored.matching .plain (.text "y") := by decide +kernel
  have hz : 2 ∈ stored.matching .plain (.text "z") := by decide +kernel
  have hreads {c : Content} (hc : stored.nodes = c.nodes) : List.Forall₂ (c.Writes .plain "reads")
      [linkRow "1" "p" "y", linkRow "2" "p" "z", linkRow "4" "q" "x"] reads :=
    .cons (made hc _ hp hy) (.cons (made hc _ hp hz) (.cons (made hc _ hq hx) .nil))
  have hwrites {c : Content} (hc : stored.nodes = c.nodes) : List.Forall₂ (c.Writes .plain "writes")
      [linkRow "3" "p" "x", linkRow "5" "q" "z"] writes :=
    .cons (made hc _ hp hx) (.cons (made hc _ hq hz) .nil)
  refine .cons (.clear _) (.cons (.uniqueId _ _) (.cons (.uniqueId _ _) ?_))
  refine .cons (.nodes _ (.refl _) htables) (.cons (.nodes _ (.refl _) hjobs) ?_)
  exact .cons (.relationships ⟨stored.nodes, #[]⟩ (.refl _) (hreads rfl))
    (.cons (.relationships ⟨stored.nodes, #[] ++ reads.toArray⟩ (.refl _) (hwrites rfl)) (.nil _))

end Loop

/-- The relation is in the lineage, and these are the attributes of the entity. -/
def LineageGraph.observed (x : Relation) (id : Scalar) (l : LineageGraph) : Bool × Option Value :=
  (l.hasRelation x, (EntityMap.get? l.entities id).map (·.attributes))

/-- The same is observed of twins for which the attribute `id` was not asked. -/
theorem LineageGraph.Twin.observed {l l' : LineageGraph} (h : l.Twin [] l') (x : Relation)
    (id : Scalar) : l'.observed x id = l.observed x id := by
  unfold LineageGraph.observed
  rw [h.relations, h.headers List.not_mem_nil]

/-- **A request has different outcomes over both stores** once the seed data is in them: neither the
same fault nor lineages with the same relations and headers. -/
def Service.Differ (t : Taxonomy) (data : Value) (p : Policy) (maxVertices : Value)
    (req : LineageRequest) : Prop :=
  ∃ seed conn' after reading, Seed.validate t data = .ok seed ∧ seed.Keepable ∧
    (Loader.loadAll t data true true).run.run (.start ⟨#[], #[]⟩ [] .null) = (.ok (), conn') ∧
    Content.Leads .plain ⟨#[], #[]⟩ (conn'.sent.toList.map (·.statement)) after ∧
    reading.Serves .plain after ∧
    ¬Outcome.Alike (LineageGraph.Twin [])
      (((after.service p false maxVertices).over reading req).map Resolution.lineage)
      (MemoryGraph.ofSeed t data >>= fun g =>
        ((g.service p false maxVertices).resolve req).map Resolution.lineage)

/-- Outcomes of which something else is observed are different. -/
theorem Service.Differ.of_observed {t : Taxonomy} (ht : t.Scalars) {data : Value} {seed : Seed}
    (hseed : Seed.validate t data = .ok seed) (hkeepable : seed.Keepable) {after : Content}
    (hleads : Content.Leads .plain ⟨#[], #[]⟩ (Loader.queries seed
      (Connection.start ⟨#[], #[]⟩ [] .null).freshIds 0 true true) after)
    {p : Policy} {maxVertices : Value} {req : LineageRequest} (x : Relation) (id : Scalar)
    {inDatabase inMemory : Outcome (Bool × Option Value)}
    (hdatabase : (((after.service p false maxVertices).over (.serving .plain after) req).map
      Resolution.lineage).map (LineageGraph.observed x id) = inDatabase)
    (hmemory : (MemoryGraph.ofSeed t data >>= fun g =>
      ((g.service p false maxVertices).resolve req).map Resolution.lineage).map
        (LineageGraph.observed x id) = inMemory) (hne : inDatabase ≠ inMemory) :
    Service.Differ t data p maxVertices req := by
  obtain ⟨conn', hload, hsent, _⟩ := Loader.loadAll_holds ht hseed hkeepable true
    Connection.start_undisturbed
  refine ⟨seed, conn', after, .serving .plain after, hseed, hkeepable, hload, ?_,
    Connection.serving_serves _ _, fun halike => hne ?_⟩
  · rw [hsent]
    simpa [Connection.start, Function.comp_def] using hleads
  · rw [← hdatabase, ← hmemory]
    exact (halike.imp fun l l' h => (h.observed x id).symm).map_eq

namespace Loop

/-- The relation from `x` to `q`. -/
def later : Relation := ⟨.text "x", .text "q", .text "4", .null⟩

/-- What is observed of a request to the catalogue in a database. -/
def fromDatabase (p : Policy) (maxVertices : Value) (req : LineageRequest) :
    Outcome (Bool × Option Value) :=
  (((stored.service p false maxVertices).over (.serving .plain stored) req).map
    Resolution.lineage).map (LineageGraph.observed later "y")

/-- What is observed of a request to the catalogue in memory. -/
def fromMemory (p : Policy) (maxVertices : Value) (req : LineageRequest) :
    Outcome (Bool × Option Value) :=
  (((graph.service p false maxVertices).resolve req).map Resolution.lineage).map
    (LineageGraph.observed later "y")

theorem differ {p : Policy} {maxVertices : Value} {req : LineageRequest}
    {inDatabase inMemory : Outcome (Bool × Option Value)}
    (hdatabase : fromDatabase p maxVertices req = inDatabase)
    (hmemory : fromMemory p maxVertices req = inMemory) (hne : inDatabase ≠ inMemory) :
    Service.Differ taxonomy seed p maxVertices req := by
  refine .of_observed scalars validated keepable (queries_eq _ ▸ leads) later "y" hdatabase ?_ hne
  rw [ofSeed_eq]
  exact hmemory

end Loop

namespace Lone

/-- Seed data with one table. -/
def data (row : Record) : Value :=
  .record [("assets", .record [("Table", .list [.record row])])]

/-- This seed data, once it is accepted. -/
def seed (row : Record) : Seed := ⟨[("Table", [row])], []⟩

/-- It in a database. -/
def stored (row : Record) : Content := ⟨#[] ++ [Node.mk ["Table"] row].toArray, #[]⟩

/-- The request for what flows out of the table. -/
def request (guid : Scalar) : LineageRequest := { Loop.request with guid := .scalar guid }

variable {row : Record}

theorem keepable (h : ∀ field ∈ row,
    (∀ name ∈ MemoryGraph.reservedOfVertex, field.1 ≠ .text name) ∧ field.2.Storable) :
    (seed row).Keepable where
  types a ha := by
    obtain rfl := List.mem_singleton.mp ha
    exact ⟨_, (Loader.safeIdentifier_text _).trans (if_pos (by decide +kernel))⟩
  labels _ hr := absurd hr List.not_mem_nil
  properties r hr := by
    obtain rfl := List.mem_singleton.mp hr
    exact h
  ids _ hr := absurd hr List.not_mem_nil

theorem leads (h : existing row = row) (fresh : Nat → String) : Content.Leads .plain ⟨#[], #[]⟩
    (Loader.queries (seed row) fresh 0 true true) (stored row) := by
  have hmade : List.Forall₂ (Node.Of "Table") [row] [⟨["Table"], row⟩] :=
    .cons ⟨rfl, fun _ => by rw [h]⟩ .nil
  exact .cons (.clear _) (.cons (.uniqueId _ _) (.cons (.nodes _ (.refl _) hmade) (.nil _)))

/-- What is observed of the request once the seed data is in a database. -/
def fromDatabase (row : Record) (guid : Scalar) : Outcome (Bool × Option Value) :=
  ((((stored row).service Loop.policy false (.int 0)).over (.serving .plain (stored row))
    (request guid)).map Resolution.lineage).map (LineageGraph.observed Loop.later "x")

/-- What is observed of the request once the graph of the seed data is built. -/
def fromMemory (row : Record) (guid : Scalar) : Outcome (Bool × Option Value) :=
  (MemoryGraph.ofSeed Loop.taxonomy (data row) >>= fun g =>
    ((g.service Loop.policy false (.int 0)).resolve (request guid)).map Resolution.lineage).map
      (LineageGraph.observed Loop.later "x")

theorem differ (hseed : Seed.validate Loop.taxonomy (data row) = .ok (seed row))
    (h : ∀ field ∈ row, (∀ name ∈ MemoryGraph.reservedOfVertex, field.1 ≠ .text name) ∧
      field.2.Storable) {guid : Scalar} {inDatabase inMemory : Outcome (Bool × Option Value)}
    (hdatabase : fromDatabase row guid = inDatabase) (hmemory : fromMemory row guid = inMemory)
    (hne : inDatabase ≠ inMemory) :
    Service.Differ Loop.taxonomy (data row) Loop.policy (.int 0) (request guid) :=
  .of_observed Loop.scalars hseed (keepable h)
    (leads (existing_eq fun field hfield => (h field hfield).2) _) Loop.later "x" hdatabase hmemory
    hne

/-- The id of the table is a number. -/
def numbered : Record := [("id", .int 1)]

/-- The table has a property with a number for its name. -/
def named : Record := [("id", .text "x"), (.int 1, .text "v")]

end Lone

end DataLineage
