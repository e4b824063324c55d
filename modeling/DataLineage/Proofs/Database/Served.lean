import DataLineage.Proofs.Database.Loaded
import DataLineage.Proofs.Database.Readings
import DataLineage.Proofs.Walk.Twin

/-!
# One seed as two graphs

The same seed data can be loaded into a database and be built into a graph in memory. The database
keeps the id of an asset among the properties of its node, the graph in memory only beside them, and
the database lists things in any order; apart from that they show the same vertices and edges.

* `Connection.Serves` -- a database whose answers are what the reading statements say;
* `Outlook.session` -- sessions over connections that stay as they are;
* `Store.find_ends`, `Store.edges_ends` -- what is found and listed over such a connection;
* `Seed.InBoth` -- a database and a graph in memory that hold the same seed data;
* `Seed.InBoth.twins`, `Seed.InBoth.find_twin` -- **they show twins**, and `Seed.InBoth.surveys` --
  a walk over the database goes over the edges of its relationships.
-/

namespace DataLineage

/-! ## 1. Databases that answer -/

/-- The relationships of a type at a side of the nodes with an id. -/
def Content.listedAt (E : Equality) (c : Content) (side : Side) (id label : Value) :
    List Relationship :=
  c.relationships.toList.filter fun r =>
    E.equal r.label label && E.equal (c.idOf (Connection.endAt r side)) id

/-- **The database answers as the reading statements say**, each time in some order: one of the nodes
with the id, if there is any, and the relationships of the type at the side. -/
structure Connection.Serves (E : Equality) (c : Content) (conn : Connection) : Prop where
  content : conn.content = c
  node : ∀ n id, ∃ found : List Int, found.Perm (c.matching E id) ∧
    conn.answers n (.findNode id) = .ok ((found.take 1).map fun i => [("n", .node i)])
  relationships : ∀ n side id label, ∃ found : List Relationship,
    found.Perm (c.listedAt E side id label) ∧
      conn.answers n (.edgesAt side id label) = .ok (found.map Connection.relationshipRow)

/-- **A connection with a database that answers so**: nodes in the order of their numbers, and of the
relationships the latest first. -/
def Connection.serving (E : Equality) (c : Content) : Connection where
  content := c
  answers _ s := match s with
    | .findNode id => .ok (((c.matching E id).take 1).map fun i => [("n", .node i)])
    | .edgesAt side id label => .ok ((c.listedAt E side id label).reverse.map relationshipRow)
    | _ => .ok []
  reports _ s _ h := by cases s <;> cases h
  freshIds := toString
  database := .null
  sent := #[]
  journal := #[]
  issuedIds := 0

theorem Connection.serving_serves (E : Equality) (c : Content) : (serving E c).Serves E c :=
  ⟨rfl, fun _ _ => ⟨_, .refl _, rfl⟩, fun _ _ _ _ => ⟨_, List.reverse_perm _, rfl⟩⟩

/-- **What becomes of sessions** over connections that keep a property. -/
def Outlook.session (I : Connection → Prop) : Outlook Session where
  ends x Q := ∀ conn, I conn → I (x.run.run conn).2 ∧ Q (x.run.run conn).1
  imp h hPQ conn hconn := (h conn hconn).imp id (hPQ _)
  ofExcept {_ o _} h conn hconn := by
    rw [Session.ofExcept_run]
    exact ⟨hconn, h⟩
  bind {_ _ x f _ _} h hok herror conn hconn := by
    obtain ⟨hconn₁, hP⟩ := h conn hconn
    rcases hrun : x.run.run conn with ⟨result, conn₁⟩
    rw [hrun] at hconn₁ hP
    cases result with
    | error e =>
        rw [Session.bind_of_error hrun]
        exact ⟨hconn₁, herror e hP⟩
    | ok a =>
        rw [Session.bind_of_ok hrun]
        exact hok a hP conn₁ hconn₁

namespace Store

variable {E : Equality} {t : Taxonomy} {c : Content}

/-- A reading statement is answered, and the connection goes on as before. -/
theorem query_ends {s : Statement} {R : List AnswerRow → Prop}
    (h : ∀ conn : Connection, conn.Serves E c → ∀ n, ∃ rows, R rows ∧ conn.answers n s = .ok rows) :
    (Outlook.session (·.Serves E c)).ends (query s) fun o => ∃ rows, R rows ∧ o = .ok rows := by
  intro conn hconn
  obtain ⟨rows, hrows, hanswer⟩ := h conn hconn conn.sent.size
  have hrun : (Session.perform s).run.run conn = (.ok rows, conn.told s) := by
    rw [Session.perform_run, hanswer]
  rw [query_run hrun]
  exact ⟨⟨hconn.content, hconn.node, hconn.relationships⟩, rows, hrows, rfl⟩

theorem content_ends : (Outlook.session (·.Serves E c)).ends content (· = .ok c) :=
  fun conn hconn => by
    rw [content_run]
    exact ⟨hconn, congrArg Except.ok hconn.content⟩

/-- **What is listed at a side of a vertex**: the edges of the relationships there. -/
theorem edges_ends (v : Vertex) (side : Side) (label : Value) :
    (Outlook.session (·.Serves E c)).ends (edges t v side label) fun o =>
      ∃ found : List Relationship, found.Perm (c.listedAt E side v.id label) ∧
        o = found.mapM (edge t c) := by
  have hquery := query_ends (E := E) (c := c) (s := .edgesAt side v.id label)
    (R := fun rows => ∃ found : List Relationship,
      found.Perm (c.listedAt E side v.id label) ∧ rows = found.map Connection.relationshipRow)
    fun conn hconn n => by
      obtain ⟨found, hperm, hanswer⟩ := hconn.relationships n side v.id label
      exact ⟨_, ⟨found, hperm, rfl⟩, hanswer⟩
  refine (Outlook.session _).bind hquery ?_ fun e ⟨_, _, he⟩ => nomatch he
  rintro rows ⟨_, ⟨found, hperm, rfl⟩, hrows⟩
  obtain rfl := Except.ok.inj hrows
  refine (Outlook.session _).bind content_ends (fun c' hc => ?_) fun e he => nomatch he
  obtain rfl := Except.ok.inj hc
  refine (Outlook.session _).ofExcept ⟨found, hperm, ?_⟩
  rw [List.mapM_map]
  rfl

/-- The vertex of a node that has an id. -/
def vertexAt (t : Taxonomy) (c : Content) (n : Int) : Vertex :=
  ⟨c.idOf n, .text (typeName t (c.node n).labels), (c.node n).properties⟩

/-- The vertex is that of a node. -/
def Shown (t : Taxonomy) (c : Content) (v : Vertex) : Prop :=
  ∃ i : Nat, i < c.nodes.size ∧ v = vertexAt t c i

/-- The edge of a relationship between nodes that have ids. -/
def edgeAt (t : Taxonomy) (c : Content) (r : Relationship) : Edge :=
  edgeBetween r (vertexAt t c r.start) (vertexAt t c r.finish)

theorem edge_eq {r : Relationship} (h : c.hasEnds r = true) : edge t c r = .ok (edgeAt t c r) := by
  obtain ⟨hs, hf⟩ := Content.hasEnds_iff.mp h
  unfold edge
  rw [vertex_of_id hs, vertex_of_id hf]
  rfl

theorem edgeAt_end (r : Relationship) (side : Side) :
    (edgeAt t c r).endAt side = vertexAt t c (Connection.endAt r side) := by
  cases side <;> rfl

/-- A label that the node has alone is its type. -/
theorem typeName_single (t : Taxonomy) (s : String) : typeName t [s] = s := by
  unfold typeName sortTexts
  rw [List.mergeSort_singleton]
  cases hknown : t.knows (.text s) with
  | true => simp [hknown]
  | false => simp [hknown]

end Store

/-! ## 2. The same seed data in both stores -/

/-- A field that is found is in the record. -/
theorem Record.mem_of_get? {r : Record} {name : String} {v : Value} (h : get? r name = some v) :
    ∃ f ∈ r, f.2 = v := by
  obtain ⟨f, hf, hv⟩ := Option.map_eq_some_iff.mp h
  exact ⟨f, List.mem_of_find?_eq_some hf, hv⟩

/-- No storable value is null. -/
theorem Value.Storable.isNull {v : Value} (h : v.Storable) : v.isNull = false := by
  cases v with
  | scalar s =>
      cases s with
      | null => exact h.elim
      | _ => rfl
  | _ => rfl

/-- Storable properties exist, all of them. -/
theorem existing_eq {r : Record} (h : ∀ field ∈ r, field.2.Storable) : existing r = r :=
  List.filter_eq_self.mpr fun field hfield => by
    rw [(h field hfield).isNull]
    rfl

theorem Content.mem_matching {E : Equality} {c : Content} {id : Value} {n : Int} :
    n ∈ c.matching E id ↔ ∃ i : Nat, i < c.nodes.size ∧ n = i ∧ E.equal (c.idOf i) id = true := by
  unfold matching
  rw [List.mem_filter, List.mem_map]
  constructor
  · rintro ⟨⟨i, hi, rfl⟩, hid⟩
    exact ⟨i, List.mem_range.mp hi, rfl, hid⟩
  · rintro ⟨i, hi, rfl, hid⟩
    exact ⟨⟨i, List.mem_range.mpr hi, rfl⟩, hid⟩

namespace Seed

/-- **A database and a graph in memory hold the same seed data**, with ids that a database can find
again. -/
structure InBoth (E : Equality) (seed : Seed) (c : Content) (g : MemoryGraph) : Prop where
  storable : seed.Storable
  named : ∀ row ∈ seed.rows, isBlankId (Record.get row.2 "id") = false
  keyed : ∀ row ∈ seed.rows, ∃ k, rowKey row = .ok k
  distinct : seed.rows.Pairwise fun a b => rowKey a ≠ rowKey b
  database : c.HoldsSeed E seed
  memory : g.Stores seed
  seeded : g.Seeded

/-- The node of the number is that of the row. -/
structure NodeAt (c : Content) (row : Scalar × Record) (i : Nat) : Prop where
  labels : (c.node i).labels = [(Value.scalar row.1).display]
  properties : ∀ k, Record.valueOf? (c.node i).properties k = Record.valueOf? row.2 k

theorem NodeAt.id {c : Content} {i : Nat} {row : Scalar × Record} (h : NodeAt c row i) :
    c.idOf i = Record.get row.2 "id" := by
  have hid := h.properties (.text "id")
  rw [Record.valueOf?_text, Record.valueOf?_text] at hid
  exact congrArg (fun x => x.getD .null) hid

namespace InBoth

variable {E : Equality} {seed : Seed} {c : Content} {g : MemoryGraph} {t : Taxonomy}
  {row : Scalar × Record} {rel : Relationship}

/-- The id of a row is a text, a truth value or a number. -/
theorem row_id (h : seed.InBoth E c g) (hrow : row ∈ seed.rows) :
    ∃ s : Scalar, Record.get row.2 "id" = .scalar s ∧ s.Storable ∧ s ≠ .float .nan := by
  obtain ⟨k, hk⟩ := h.keyed row hrow
  obtain ⟨s, hs, rfl⟩ := (Value.key_eq_ok_iff _ _).mp hk
  refine ⟨s, hs, ?_, fun hn => h.storable.numbers row hrow (hs.trans (congrArg Value.scalar hn))⟩
  have hnamed := h.named row hrow
  cases hget : Record.get? row.2 "id" with
  | none =>
      rw [Record.get, hget] at hnamed
      cases hnamed
  | some v =>
      obtain ⟨field, hfield, rfl⟩ := Record.mem_of_get? hget
      have hvalue := (h.storable.properties row hrow field hfield).2
      rw [Record.get, hget] at hs
      rw [show field.2 = .scalar s from hs] at hvalue
      exact hvalue

/-- **The nodes of the database are the rows**, in some order. -/
theorem nodes (h : seed.InBoth E c g) : ∃ rows : List (Scalar × Record), rows.Perm seed.rows ∧
    rows.length = c.nodes.size ∧ (rows.map rowKey).Nodup ∧
      ∀ (i : Nat) (hi : i < rows.length), NodeAt c rows[i] i := by
  obtain ⟨rows, hperm, hall⟩ := h.database.nodes
  refine ⟨rows, hperm, hall.length_eq, ?_, fun i hi => ?_⟩
  · exact ((hperm.map rowKey).nodup_iff).mpr (List.pairwise_map.mpr h.distinct)
  · have hi' : i < c.nodes.toList.length := hall.length_eq ▸ hi
    have hnode : c.node i = c.nodes.toList[i] := Content.node_of_get? (by
      rw [← Array.getElem?_toList, List.getElem?_eq_getElem hi'])
    obtain ⟨hlabels, hproperties⟩ := hall.get hi hi'
    have hmem : rows[i] ∈ seed.rows := hperm.mem_iff.mp (List.getElem_mem hi)
    have hexist := existing_eq fun field hfield => (h.storable.properties _ hmem field hfield).2
    refine ⟨hnode ▸ hlabels, fun k => ?_⟩
    rw [hnode, ← hexist]
    exact hproperties k

theorem row_at (h : seed.InBoth E c g) {i : Nat} (hi : i < c.nodes.size) :
    ∃ row ∈ seed.rows, NodeAt c row i := by
  obtain ⟨rows, hperm, hlen, _, hall⟩ := h.nodes
  have hi' : i < rows.length := hlen.symm ▸ hi
  exact ⟨rows[i], hperm.mem_iff.mp (List.getElem_mem hi'), hall i hi'⟩

theorem node_of (h : seed.InBoth E c g) (hrow : row ∈ seed.rows) :
    ∃ i < c.nodes.size, NodeAt c row i := by
  obtain ⟨rows, hperm, hlen, _, hall⟩ := h.nodes
  obtain ⟨i, hi, rfl⟩ := List.getElem_of_mem (hperm.mem_iff.mpr hrow)
  exact ⟨i, hlen ▸ hi, hall i hi⟩

/-- The id of a node is a text, a truth value or a number. -/
theorem node_id (h : seed.InBoth E c g) {i : Nat} (hi : i < c.nodes.size) :
    ∃ s : Scalar, c.idOf i = .scalar s ∧ s.Storable ∧ s ≠ .float .nan := by
  obtain ⟨row, hrow, hnode⟩ := h.row_at hi
  rw [hnode.id]
  exact h.row_id hrow

/-- **No two nodes have ids of one key.** -/
theorem node_eq (h : seed.InBoth E c g) {i j : Nat} (hi : i < c.nodes.size) (hj : j < c.nodes.size)
    (hkey : (c.idOf i).key = (c.idOf j).key) : i = j := by
  obtain ⟨rows, _, hlen, hnodup, hall⟩ := h.nodes
  have hi' : i < (rows.map rowKey).length := by rwa [List.length_map, hlen]
  have hj' : j < (rows.map rowKey).length := by rwa [List.length_map, hlen]
  refine (@List.Nodup.getElem_inj_iff _ _ hnodup _ hi' _ hj').mp ?_
  rw [List.getElem_map, List.getElem_map]
  show (Record.get _ _).key = (Record.get _ _).key
  rw [← (hall i _).id, ← (hall j _).id, hkey]

/-- **The node of a row is read as a twin of its vertex.** -/
theorem vertex_twin (h : seed.InBoth E c g) (hrow : row ∈ seed.rows) {i : Nat}
    (hi : NodeAt c row i) : (Store.vertexAt t c i).Twin (rowVertex row) := by
  obtain ⟨s, hs, _, _⟩ := h.row_id hrow
  obtain ⟨a, ha, hmem⟩ := List.mem_flatMap.mp hrow
  obtain ⟨fields, _, rfl⟩ := List.mem_map.mp hmem
  obtain ⟨label, hlabel⟩ := h.storable.types a ha
  obtain ⟨type, htype⟩ := Loader.safe_text hlabel
  refine ⟨⟨s, hi.id.trans hs⟩, hi.id.symm, ?_, fun k hk => ?_, Record.valueOf?_erase_self _ _⟩
  · show Value.scalar a.1 = .text (Store.typeName t (c.node i).labels)
    rw [hi.labels, Store.typeName_single, htype, Value.display_text]
  · exact (Record.valueOf?_erase _ hk).trans (hi.properties k).symm

/-- A node that an id matches is read as a twin of the vertex under the id. -/
theorem end_twin (h : seed.InBoth E c g) {n : Int} {id : Value} {v : Vertex}
    (hn : n ∈ c.matching E id) (hv : ∃ k, id.key = .ok k ∧ g.vertices[k]? = some v) :
    (Store.vertexAt t c n).Twin v := by
  obtain ⟨i, hi, rfl, hid⟩ := Content.mem_matching.mp hn
  obtain ⟨row, hrow, hnode⟩ := h.row_at hi
  obtain ⟨a, ha, hstorable, _⟩ := h.node_id hi
  rw [ha] at hid
  obtain ⟨s, rfl, hkey⟩ := Equality.key_eq hstorable hid
  obtain ⟨k, hk, hv⟩ := hv
  obtain rfl := Except.ok.inj hk
  have hrowkey : rowKey row = .ok s.key := by
    rw [hkey]
    show (Record.get row.2 "id").key = _
    rw [← hnode.id, ha]
    rfl
  have hstored := (h.memory.vertices _ _).mpr ⟨row, hrow, hrowkey, rfl⟩
  obtain rfl := Option.some.inj (hstored.symm.trans hv)
  exact h.vertex_twin hrow hnode

/-! ## 3. Edges -/

/-- **A relationship of the seed data** is written and added as twins of one edge. -/
theorem edge_twin (h : seed.InBoth E c g) {r : SeedRelationship} {e : Edge}
    (hr : r ∈ seed.relationships) (hw : c.WritesSeed E r rel) (hst : g.Stands r e) :
    (Store.edgeAt t c rel).Twin e := by
  obtain ⟨label, hlabel, hw⟩ := hw
  refine ⟨h.end_twin hw.start hst.source, h.end_twin hw.finish hst.target, ?_, ?_⟩
  · rw [hst.label, hlabel]
    exact hw.label.symm
  · obtain ⟨s, hs, _⟩ := h.storable.ids r hr
    have hid := hw.properties (.text "relationship_id")
    rw [Record.valueOf?_text, Record.valueOf?_text] at hid
    rw [hst.id]
    show r.id = (Record.get? rel.properties "relationship_id").getD .null
    rw [hid, show Record.get (Loader.rowOf r) "relationship_id" = .text s from hs, hs]
    rfl

/-- **The edges of the relationships have the edges in memory for twins**, in some order. -/
theorem twins (h : seed.InBoth E c g) :
    Edge.Twins (c.relationships.toList.map (Store.edgeAt t c)) g.added.toList := by
  obtain ⟨rs, hperm, hwrites⟩ := h.database.relationships
  obtain ⟨es, hstands, hes⟩ := List.perm_comp_forall₂ hperm h.memory.edges
  refine ⟨es, List.forall₂_map_left_iff.mpr ?_, hes⟩
  refine List.forall₂_iff_get.mpr ⟨?_, fun i hi hi' => ?_⟩
  · rw [← hwrites.length_eq, hstands.length_eq]
  · have hrs : i < rs.length := hwrites.length_eq ▸ hi
    exact h.edge_twin (hperm.mem_iff.mp (List.getElem_mem hrs)) (hwrites.get hrs hi)
      (hstands.get hrs hi')

/-- A relationship has a text for its label and leads between nodes. -/
theorem relationship_ends (h : seed.InBoth E c g) (hrel : rel ∈ c.relationships.toList) :
    (∃ s, rel.label = .text s) ∧ ∀ side, ∃ i < c.nodes.size, Connection.endAt rel side = i := by
  obtain ⟨rs, _, hwrites⟩ := h.database.relationships
  obtain ⟨i, hi, rfl⟩ := List.getElem_of_mem hrel
  obtain ⟨label, _, hw⟩ := hwrites.get (hwrites.length_eq.symm ▸ hi) hi
  refine ⟨⟨label, hw.label⟩, fun side => ?_⟩
  cases side with
  | incoming =>
      obtain ⟨j, hj, hfinish, _⟩ := Content.mem_matching.mp hw.finish
      exact ⟨j, hj, hfinish⟩
  | outgoing =>
      obtain ⟨j, hj, hstart, _⟩ := Content.mem_matching.mp hw.start
      exact ⟨j, hj, hstart⟩

/-- A relationship is listed at a side of a node exactly where its edge is. -/
theorem listed_iff (h : seed.InBoth E c g) (hrel : rel ∈ c.relationships.toList) {i : Nat}
    (hi : i < c.nodes.size) {k l : Key} {label : Value} (hk : (c.idOf i).key = .ok k)
    (hl : label.key = .ok l) (side : Side) :
    (E.equal rel.label label && E.equal (c.idOf (Connection.endAt rel side)) (c.idOf i)) = true ↔
      (Store.edgeAt t c rel).liesAt side k l = true := by
  obtain ⟨⟨s, hs⟩, hends⟩ := h.relationship_ends hrel
  obtain ⟨j, hj, hend⟩ := hends side
  rw [Bool.and_eq_true, Edge.liesAt_iff, Store.edgeAt_end, hend]
  show _ ↔ (c.idOf j).key = .ok k ∧ rel.label.key = .ok l
  rw [and_comm, hs, E.text]
  refine and_congr ⟨fun hid => ?_, fun hid => ?_⟩ ⟨fun hlabel => ?_, fun hlabel => ?_⟩
  · obtain ⟨a, ha, hstorable, _⟩ := h.node_id hj
    rw [ha] at hid ⊢
    obtain ⟨b, hb, hkey⟩ := Equality.key_eq hstorable hid
    rw [← hk, hb]
    exact congrArg Except.ok hkey.symm
  · obtain rfl := h.node_eq hi hj (hk.trans hid.symm)
    obtain ⟨a, ha, hstorable, hn⟩ := h.node_id hi
    rw [ha]
    exact Equality.refl hstorable hn
  · rw [← hl, hlabel]
  · obtain ⟨a, rfl, ha⟩ := (Value.key_eq_ok_iff _ _).mp hl
    obtain rfl : Key.text s = l := Except.ok.inj hlabel
    rw [(Scalar.key_eq_text_iff a s).mp ha]

/-- **A walk over the database surveys the edges of its relationships.** -/
theorem surveys (h : seed.InBoth E c g) {w : Walker Session} (hw : w.graph = c.access t)
    {backward : Bool} {T : Terrain}
    (hT : T.For (c.relationships.toList.map (Store.edgeAt t c)) w.taxonomy.labels backward) :
    w.Surveys (.session (·.Serves E c)) (Store.Shown t c) backward T where
  edges {v k} side {label l} hv hk hl := by
    obtain ⟨i, hi, rfl⟩ := hv
    rw [hw, hT.edges]
    refine (Outlook.session _).imp (Store.edges_ends _ side label) ?_
    rintro o ⟨found, hperm, rfl⟩
    have hmem : ∀ rel ∈ found, rel ∈ c.relationships.toList := fun rel hrel =>
      (List.mem_filter.mp (hperm.mem_iff.mp hrel)).1
    refine ⟨found.map (Store.edgeAt t c), ?_, ?_⟩
    · clear hperm
      induction found with
      | nil => rfl
      | cons rel rest ih =>
          have hends : c.hasEnds rel = true := by
            obtain ⟨_, hside⟩ := h.relationship_ends (hmem rel List.mem_cons_self)
            have hid (side : Side) : (c.idOf (Connection.endAt rel side)).isNull = false := by
              obtain ⟨j, hj, hend⟩ := hside side
              obtain ⟨a, ha, hstorable, _⟩ := h.node_id hj
              rw [hend, ha]
              exact Value.Storable.isNull (v := .scalar a) hstorable
            exact Content.hasEnds_iff.mpr ⟨hid .outgoing, hid .incoming⟩
          rw [List.mapM_cons, Store.edge_eq hends,
            ih fun rel hrel => hmem rel (List.mem_cons_of_mem _ hrel)]
          rfl
    · refine (hperm.map _).trans (.of_eq ?_)
      unfold Content.listedAt listed
      rw [List.filter_map]
      refine congrArg _ (List.filter_congr fun rel hrel => Bool.eq_iff_iff.mpr ?_)
      exact h.listed_iff hrel hi hk hl side
  ends e he side := by
    rw [hT.edges] at he
    obtain ⟨rel, hrel, rfl⟩ := List.mem_map.mp he
    obtain ⟨i, hi, hend⟩ := (h.relationship_ends hrel).2 side
    exact ⟨i, hi, by rw [Store.edgeAt_end, hend]⟩
  keyed e he := by
    rw [hT.edges] at he
    obtain ⟨e', he', htwin⟩ := h.twins.forth he
    obtain ⟨k, hk, _⟩ := h.seeded.built.indexed.keyed e' he'
    exact ⟨k, htwin.keys.symm.trans hk⟩
  bounded := by
    refine ⟨(List.range c.nodes.size).map fun i : Nat => (c.idOf i).key.toOption.getD .null,
      ?_, ?_⟩
    · rw [List.length_map, List.length_range, hw]
      exact Nat.le_refl _
    · intro e he k hk
      rw [hT.edges] at he
      obtain ⟨rel, hrel, rfl⟩ := List.mem_map.mp he
      obtain ⟨i, hi, hend⟩ := (h.relationship_ends hrel).2 .incoming
      have hk : (Store.vertexAt t c (Connection.endAt rel .incoming)).id.key = .ok k := hk
      rw [hend] at hk
      refine List.mem_map.mpr ⟨i, List.mem_range.mpr hi, ?_⟩
      rw [show (c.idOf i).key = .ok k from hk]
      rfl
  into := hT.into
  out := hT.out

end InBoth

end Seed

end DataLineage
