import DataLineage.Database.Store
import DataLineage.Proofs.Database.Sent
import DataLineage.Proofs.Lineage.Exact
import Mathlib.Data.List.Nodup
import Mathlib.Data.List.TakeWhile

/-!
# One relationship, read in three ways

A relationship is met among the edges out of its first node, among the edges into its last one, and
in the answer of a script. The two queries for edges name their nodes in opposite roles, a script
leaves it to the relationship to know its ends; what is read is the same edge:

* `EdgeMatch`, `EdgeMatch.row` -- how the pattern of an edge query fits, and the row that is
  returned for it;
* `Connection.Lists` -- a database that answers an edge query with each fitting relationship once;
* `EdgeMatch.edgeOf_row` -- **a row of either query gives the edge of its relationship**;
* `Store.edges_run`, `Store.runScript_run` -- what the edges at a side and a script come to;
* `Store.reads_one_edge` -- **all three ways lead to one edge**, and a script gives the edges of
  all relationships that it answers, in order, and reports every part that it cannot use.
-/

namespace DataLineage

/-! ## 1. Databases -/

/-- **The id of a node tells it from all other nodes.** -/
def Content.UniqueIds (c : Content) : Prop :=
  ∀ n m, (c.idOf n).isNull = false → ((c.idOf m).equal (c.idOf n) = true ↔ m = n)

/-- Have both ends of the relationship an id? -/
def Content.hasEnds (c : Content) (r : Relationship) : Bool :=
  !(c.idOf r.start).isNull && !(c.idOf r.finish).isNull

theorem Content.hasEnds_iff {c : Content} {r : Relationship} : c.hasEnds r = true ↔
    (c.idOf r.start).isNull = false ∧ (c.idOf r.finish).isNull = false := by
  simp [hasEnds]

/-- **A way in which the pattern of an edge query fits**: the node that is asked for, a
relationship, and the node at its other end. -/
structure EdgeMatch where
  node : Int
  relationship : Relationship
  other : Int

namespace EdgeMatch

/-- The relationship leads from the node to the other one, or from the other one to the node. -/
def Leads (m : EdgeMatch) : Side → Prop
  | .outgoing => m.relationship.start = m.node ∧ m.relationship.finish = m.other
  | .incoming => m.relationship.start = m.other ∧ m.relationship.finish = m.node

/-- The pattern of the query for an id and a type fits. -/
structure Fits (m : EdgeMatch) (c : Content) (side : Side) (id label : Value) : Prop where
  held : m.relationship ∈ c.relationships
  leads : m.Leads side
  id : (c.idOf m.node).equal id = true
  label : m.relationship.label.equal label = true

/-- **The row that a query returns for a match**: out of a node, this is the source; into a node,
this is the target. -/
def row (m : EdgeMatch) : Side → AnswerRow
  | .outgoing =>
    [("r", .relationship m.relationship), ("source", .node m.node), ("target", .node m.other)]
  | .incoming =>
    [("r", .relationship m.relationship), ("source", .node m.other), ("target", .node m.node)]

variable {m m' : EdgeMatch} {side : Side}

theorem Leads.endAt (h : m.Leads side) : Connection.endAt m.relationship side = m.node := by
  cases side with
  | incoming => exact h.2
  | outgoing => exact h.1

/-- The match of a relationship that is listed at a side. -/
def ofRelationship (r : Relationship) : Side → EdgeMatch
  | .outgoing => ⟨r.start, r, r.finish⟩
  | .incoming => ⟨r.finish, r, r.start⟩

theorem ofRelationship_leads (r : Relationship) (side : Side) :
    (ofRelationship r side).relationship = r ∧ (ofRelationship r side).Leads side := by
  cases side <;> exact ⟨rfl, rfl, rfl⟩

/-- **A relationship fits in one way.** -/
theorem Leads.eq (h : m.Leads side) : m = ofRelationship m.relationship side := by
  cases side with
  | incoming => exact congrArg₂ (EdgeMatch.mk · m.relationship ·) h.2.symm h.1.symm
  | outgoing => exact congrArg₂ (EdgeMatch.mk · m.relationship ·) h.1.symm h.2.symm

/-- **A row of either query gives the edge of its relationship.** -/
theorem edgeOf_row (t : Taxonomy) (c : Content) (h : m.Leads side) :
    Store.edgeOf t c (m.row side) = Store.edge t c m.relationship := by
  unfold Store.edge
  cases side with
  | incoming =>
      rw [h.1, h.2]
      rfl
  | outgoing =>
      rw [h.1, h.2]
      rfl

end EdgeMatch

namespace Connection

/-- The database answers the statement with these rows. -/
def Answers (conn : Connection) (s : Statement) (rows : List AnswerRow) : Prop :=
  (Session.perform s).run.run conn = (.ok rows, conn.told s)

/-- **The database answers a query for edges exactly**: with a row for each way in which the
pattern fits, in any order. -/
structure Lists (conn : Connection) (side : Side) (id label : Value) (ms : List EdgeMatch) :
    Prop where
  answers : conn.Answers (.edgesAt side id label) (ms.map (·.row side))
  once : ms.Nodup
  fits : ∀ m, m ∈ ms ↔ m.Fits conn.content side id label

end Connection

/-- A query gives the rows that the statement is answered with. -/
theorem Store.query_run {s : Statement} {rows : List AnswerRow} {conn conn' : Connection}
    (h : (Session.perform s).run.run conn = (.ok rows, conn')) :
    (query s).run.run conn = (.ok rows, conn') := by
  show (ExceptT.tryCatch (Session.perform s) fun e => throw (reported e)).run.run conn = _
  rw [ExceptT.run] at h
  rw [ExceptT.tryCatch, ExceptT.run_mk, StateT.run_bind, h]
  rfl

theorem Store.content_run (conn : Connection) :
    content.run.run conn = (.ok conn.content, conn) := rfl

/-! ## 2. Edges of relationships -/

namespace Store

variable {t : Taxonomy} {c : Content} {r : Relationship} {rs : List Relationship}

theorem vertex_of_id {n : Int} (h : (c.idOf n).isNull = false) :
    vertex t c n = .ok ⟨c.idOf n, .text (typeName t (c.node n).labels), (c.node n).properties⟩ :=
  if_neg (Bool.eq_false_iff.mp h)

theorem vertex_without_id {n : Int} (h : (c.idOf n).isNull = true) :
    vertex t c n = .error (.lineage (.nodeWithoutId n) .null) :=
  if_pos h

/-- **A relationship with ids at both ends is an edge between their vertices.** -/
theorem edge_of_ends (h : c.hasEnds r = true) : ∃ source target, vertex t c r.start = .ok source ∧
    vertex t c r.finish = .ok target ∧ edge t c r = .ok (edgeBetween r source target) := by
  obtain ⟨hs, hf⟩ := Content.hasEnds_iff.mp h
  have hsource := vertex_of_id (t := t) hs
  have htarget := vertex_of_id (t := t) hf
  refine ⟨_, _, hsource, htarget, ?_⟩
  unfold edge
  rw [hsource, htarget]
  rfl

/-- A relationship without an id at an end is none, and the backend is to blame. -/
theorem edge_without_end (h : c.hasEnds r = false) : ∃ cause,
    edge t c r = .error (.lineage cause .null) ∧ cause.classOf = .backendFailure := by
  unfold edge
  cases hs : (c.idOf r.start).isNull with
  | true => exact ⟨_, by rw [vertex_without_id hs]; rfl, rfl⟩
  | false =>
      have hf : (c.idOf r.finish).isNull = true := by
        unfold Content.hasEnds at h
        rwa [hs, Bool.not_false, Bool.true_and, Bool.not_eq_false'] at h
      exact ⟨_, by rw [vertex_of_id hs, vertex_without_id hf]; rfl, rfl⟩

/-- **What comes of relationships that are read**: their edges, one for one and in order, or a
failure of the backend if one of them lacks an id at an end. -/
structure Gives (t : Taxonomy) (c : Content) (rs : List Relationship)
    (outcome : Outcome (List Edge)) : Prop where
  edges : (∀ r ∈ rs, c.hasEnds r = true) → ∃ es, outcome = .ok es ∧
    List.Forall₂ (fun r e => edge t c r = .ok e) rs es
  failure : (∃ r ∈ rs, c.hasEnds r = false) → ∃ cause,
    outcome = .error (.lineage cause .null) ∧ cause.classOf = .backendFailure

theorem mapM_gives (rs : List Relationship) : Gives t c rs (rs.mapM (edge t c)) := by
  induction rs with
  | nil => exact ⟨fun _ => ⟨[], rfl, .nil⟩, nofun⟩
  | cons r rest ih =>
      rw [List.mapM_cons]
      cases hr : c.hasEnds r with
      | false =>
          obtain ⟨cause, hcause, hclass⟩ := edge_without_end (t := t) hr
          rw [hcause]
          refine ⟨fun h => ?_, fun _ => ⟨cause, rfl, hclass⟩⟩
          exact absurd (h r List.mem_cons_self) (Bool.eq_false_iff.mp hr)
      | true =>
          obtain ⟨_, _, _, _, he⟩ := edge_of_ends (t := t) hr
          rw [he]
          refine ⟨fun h => ?_, fun ⟨r', hr', hlacks⟩ => ?_⟩
          · obtain ⟨es, hes, hall⟩ := ih.edges fun r hr => h r (List.mem_cons_of_mem _ hr)
            rw [hes]
            exact ⟨_, rfl, .cons he hall⟩
          · rcases List.mem_cons.mp hr' with rfl | hr'
            · exact absurd hr (Bool.eq_false_iff.mp hlacks)
            · obtain ⟨cause, hcause, hclass⟩ := ih.failure ⟨r', hr', hlacks⟩
              rw [hcause]
              exact ⟨cause, rfl, hclass⟩

/-! ## 3. The edges at a side -/

variable {conn : Connection}

/-- The rows of matches give the edges of their relationships. -/
theorem mapM_edgeOf {side : Side} {ms : List EdgeMatch} (h : ∀ m ∈ ms, m.Leads side) :
    (ms.map (·.row side)).mapM (edgeOf t c) = (ms.map (·.relationship)).mapM (edge t c) := by
  induction ms with
  | nil => rfl
  | cons m rest ih =>
      rw [List.map_cons, List.map_cons, List.mapM_cons, List.mapM_cons,
        EdgeMatch.edgeOf_row t c (h m List.mem_cons_self),
        ih fun m hm => h m (List.mem_cons_of_mem _ hm)]

/-- **The edges at a side** are the edges of the relationships that are listed there. -/
theorem edges_run {v : Vertex} {side : Side} {label : Value} {ms : List EdgeMatch}
    (h : conn.Lists side v.id label ms) :
    (edges t v side label).run.run conn =
      ((ms.map (·.relationship)).mapM (edge t conn.content),
        conn.told (.edgesAt side v.id label)) := by
  have hleads : ∀ m ∈ ms, m.Leads side := fun m hm => ((h.fits m).mp hm).leads
  unfold edges
  rw [Session.bind_of_ok (query_run h.answers), Session.bind_of_ok (content_run _),
    Session.ofExcept_run, mapM_edgeOf hleads]
  rfl

/-! ## 4. Scripts -/

end Store

namespace Item

/-- The relationship of a part that is one. -/
def relationship? : Item → Option Relationship
  | .relationship r => some r
  | _ => none

/-- What is reported of a part, if it is neither a relationship nor a node. -/
def report? : Item → Option LogEntry
  | .relationship _ => none
  | .node _ => none
  | other => some ⟨.warning, "Invalid value of type " ++ Store.kindName other ++
      " found in lineage query result, ignoring"⟩

/-- Can the part be read, as far as it has to be? -/
def isReadable (c : Content) : Item → Bool
  | .relationship r => c.hasEnds r
  | _ => true

theorem relationship?_eq_some {item : Item} {r : Relationship} (h : item.relationship? = some r) :
    item = .relationship r := by
  cases item with
  | relationship r' => exact congrArg relationship (Option.some.inj h)
  | _ => cases h

/-- Only of relationships ends have to be read. -/
theorem isReadable_other {item : Item} (c : Content) (h : item.relationship? = none) :
    item.isReadable c = true := by
  cases item with
  | relationship r => cases h
  | _ => rfl

end Item

namespace Store

/-- The parts of the rows of an answer: row by row, part by part, lists gone through. -/
def partsOf (rows : List AnswerRow) : List Item :=
  rows.flatMap fun row => row.flatMap fun p => parts p.2

/-- The relationships among the parts, in their order. -/
def relationshipsOf (rows : List AnswerRow) : List Relationship :=
  (partsOf rows).filterMap Item.relationship?

/-- **What is reported of an answer**: every part that is neither a relationship nor a node, up to
the first relationship that lacks an id at an end. -/
def reportsOf (c : Content) (rows : List AnswerRow) : List LogEntry :=
  ((partsOf rows).takeWhile (Item.isReadable c)).filterMap Item.report?

variable {t : Taxonomy} {c : Content} {r : Relationship} {s : Script} {rows : List AnswerRow}
  {conn : Connection}

/-- Where all relationships can be read, every part that has to be is reported. -/
theorem reportsOf_readable (h : ∀ r ∈ relationshipsOf rows, c.hasEnds r = true) :
    reportsOf c rows = (partsOf rows).filterMap Item.report? := by
  have hall : ∀ item ∈ partsOf rows, item.isReadable c = true := by
    intro item hitem
    cases hr : item.relationship? with
    | none => exact item.isReadable_other c hr
    | some r =>
        obtain rfl := Item.relationship?_eq_some hr
        exact h r (List.mem_filterMap.mpr ⟨_, hitem, rfl⟩)
  unfold reportsOf
  rw [List.takeWhile_eq_self_iff.mpr hall]

/-- One part: a relationship has an edge or none, and nothing else is reported. -/
theorem collect_relationship (found : List Edge) (r : Relationship) (conn : Connection) :
    (collect t found (.relationship r)).run.run conn =
      ((edge t conn.content r).map (found ++ [·]), conn) := by
  refine (Session.bind_of_ok (content_run conn)).trans ?_
  cases edge t conn.content r <;> rfl

/-- One part that is not a relationship is passed over, with a report if it is no node. -/
theorem collect_other {item : Item} (found : List Edge) (conn : Connection)
    (h : item.relationship? = none) : (collect t found item).run.run conn =
      (.ok found, { conn with journal := conn.journal ++ item.report?.toArray }) := by
  cases item with
  | relationship r => cases h
  | node n =>
      have hnothing : conn.journal ++ (Item.node n).report?.toArray = conn.journal :=
        Array.append_empty
      rw [hnothing]
      rfl
  | value v => rfl
  | list items => rfl

/-- An edge that was found stands before those that follow. -/
theorem map_mapM_cons {e : Edge} (found : List Edge) (he : edge t c r = .ok e)
    (rest : List Relationship) : ((r :: rest).mapM (edge t c)).map (found ++ ·) =
      (rest.mapM (edge t c)).map (found ++ [e] ++ ·) := by
  rw [List.mapM_cons, he]
  cases rest.mapM (edge t c) with
  | error f => rfl
  | ok es => exact congrArg Except.ok (List.append_assoc found [e] es).symm

/-- **Parts are collected**: the edges of the relationships are added in order, all other parts but
nodes are reported, until a relationship cannot be read. -/
theorem collect_run (items : List Item) (found : List Edge) (conn : Connection) :
    ∃ conn', (items.foldlM (collect t) found).run.run conn =
        (((items.filterMap Item.relationship?).mapM (edge t conn.content)).map (found ++ ·),
          conn') ∧
      conn'.journal.toList = conn.journal.toList ++
        (items.takeWhile (Item.isReadable conn.content)).filterMap Item.report? := by
  induction items generalizing found conn with
  | nil =>
      refine ⟨conn, ?_, (List.append_nil _).symm⟩
      show ((Except.ok found, conn) : Outcome (List Edge) × Connection) =
        (.ok (found ++ []), conn)
      rw [List.append_nil]
  | cons item rest ih =>
      rw [List.foldlM_cons]
      cases hitem : item.relationship? with
      | none =>
          obtain ⟨conn', hrun, hjournal⟩ :=
            ih found { conn with journal := conn.journal ++ item.report?.toArray }
          have hreadable := Item.isReadable_other conn.content hitem
          refine ⟨conn', (Session.bind_of_ok (collect_other found conn hitem)).trans ?_, ?_⟩
          · rw [hrun, List.filterMap_cons_none hitem]
          · rw [hjournal, List.takeWhile_cons_of_pos hreadable, List.filterMap_cons]
            cases item.report? <;> simp
      | some r =>
          obtain rfl := Item.relationship?_eq_some hitem
          have hone := collect_relationship (t := t) found r conn
          rw [List.filterMap_cons_some hitem]
          cases hends : (Item.relationship r).isReadable conn.content with
          | false =>
              -- here collecting ends, and with it what is reported
              obtain ⟨cause, hcause, _⟩ := edge_without_end (t := t) hends
              rw [hcause] at hone
              refine ⟨conn, (Session.bind_of_error hone).trans ?_, ?_⟩
              · rw [List.mapM_cons, hcause]
                rfl
              · rw [List.takeWhile_cons_of_neg (Bool.eq_false_iff.mp hends)]
                exact (List.append_nil _).symm
          | true =>
              obtain ⟨_, _, _, _, he⟩ := edge_of_ends (t := t) hends
              rw [he] at hone
              obtain ⟨conn', hrun, hjournal⟩ := ih (found ++ [_]) conn
              refine ⟨conn', (Session.bind_of_ok hone).trans (hrun.trans ?_), ?_⟩
              · rw [map_mapM_cons found he]
              · rw [hjournal, List.takeWhile_cons_of_pos hends, List.filterMap_cons_none rfl]

/-- **A script gives the edges of the relationships that it answers**, or the failure of the first
that cannot be read. -/
theorem runScript_run (h : conn.Answers (.script s) rows) :
    ∃ conn', (runScript t s).run.run conn =
        ((relationshipsOf rows).mapM (edge t conn.content), conn') ∧
      conn'.journal.toList = conn.journal.toList ++ reportsOf conn.content rows := by
  obtain ⟨conn', hrun, hjournal⟩ := collect_run (t := t) (partsOf rows) [] (conn.told (.script s))
  refine ⟨conn', (Session.bind_of_ok (query_run h)).trans (hrun.trans ?_), hjournal⟩
  show (Except.map _ ((relationshipsOf rows).mapM (edge t conn.content)), conn') = _
  cases (relationshipsOf rows).mapM (edge t conn.content) <;> rfl

/-! ## 5. One edge -/

theorem vertex_id {n : Int} {v : Vertex} (h : vertex t c n = .ok v) :
    v.id = c.idOf n ∧ (c.idOf n).isNull = false := by
  cases hn : (c.idOf n).isNull with
  | true =>
      rw [vertex_without_id hn] at h
      cases h
  | false =>
      rw [vertex_of_id hn] at h
      cases h
      exact ⟨rfl, rfl⟩

/-- **The relationships that are listed at a side of a node** are those of the type at that node,
each once. -/
theorem listed_relationships (hids : c.UniqueIds) (hc : conn.content = c) {n : Int} {v : Vertex}
    {side : Side} {label : Value} {ms : List EdgeMatch} (hv : vertex t c n = .ok v)
    (h : conn.Lists side v.id label ms) :
    (ms.map (·.relationship)).Nodup ∧ ∀ r, r ∈ ms.map (·.relationship) ↔
      r ∈ c.relationships ∧ Connection.endAt r side = n ∧ r.label.equal label = true := by
  subst hc
  obtain ⟨hid, hnull⟩ := vertex_id hv
  have hleads : ∀ m ∈ ms, m.Leads side := fun m hm => ((h.fits m).mp hm).leads
  refine ⟨h.once.map_on fun m hm m' hm' heq => ?_, fun r => ?_⟩
  · rw [(hleads m hm).eq, (hleads m' hm').eq, heq]
  constructor
  · intro hr
    obtain ⟨m, hm, rfl⟩ := List.mem_map.mp hr
    have hfits := (h.fits m).mp hm
    rw [hid] at hfits
    exact ⟨hfits.held, hfits.leads.endAt.trans ((hids n m.node hnull).mp hfits.id), hfits.label⟩
  · rintro ⟨hheld, hend, hlabel⟩
    obtain ⟨m, rfl, hleads⟩ : ∃ m : EdgeMatch, m.relationship = r ∧ m.Leads side :=
      ⟨_, EdgeMatch.ofRelationship_leads r side⟩
    refine List.mem_map.mpr ⟨m, (h.fits m).mpr ⟨hheld, hleads, ?_, hlabel⟩, rfl⟩
    rw [hid]
    exact (hids n m.node hnull).mpr (hleads.endAt.symm.trans hend)

/-- A relationship that can be read is among the edges that are given. -/
theorem Gives.mem {rs : List Relationship} {outcome : Outcome (List Edge)} {es : List Edge}
    {e : Edge} (h : Gives t c rs outcome) (hes : outcome = .ok es) (hr : r ∈ rs)
    (he : edge t c r = .ok e) : e ∈ es := by
  subst hes
  have hends : ∀ r ∈ rs, c.hasEnds r = true := by
    intro r' hr'
    cases hends : c.hasEnds r' with
    | true => rfl
    | false =>
        obtain ⟨_, hfails, _⟩ := h.failure ⟨r', hr', hends⟩
        cases hfails
  obtain ⟨es', hes, hall⟩ := h.edges hends
  cases hes
  clear h hends
  induction hall with
  | nil => cases hr
  | cons hone _ ih =>
      rcases List.mem_cons.mp hr with rfl | hr
      · exact Except.ok.inj (hone.symm.trans he) ▸ List.mem_cons_self
      · exact List.mem_cons_of_mem _ (ih hr)

/-- **One relationship is one edge, however it is read.** The ids of nodes are unique, and types are
texts. A relationship with ids at both ends has an edge with its type and its id, from the vertex of
its first node to that of its last one. This edge is among the edges out of the first node, among
the edges into the last one, and among those of every script that answers the relationship. The
edges at a side of a node are those of the relationships there, each once. A script gives the edges
of all relationships that it answers, in order, and reports each part that is neither a relationship
nor a node. Only where a relationship has no id at an end, the backend fails. -/
theorem reads_one_edge (hids : c.UniqueIds)
    (hlabels : ∀ r ∈ c.relationships, ∃ s, r.label = .text s) :
    (∀ r ∈ c.relationships, c.hasEnds r = true → ∃ e, edge t c r = .ok e ∧
      (e.label = r.label ∧ e.relationshipId = Record.get r.properties "relationship_id" ∧
        vertex t c r.start = .ok e.source ∧ vertex t c r.finish = .ok e.target) ∧
      (∀ side conn ms es, conn.content = c → conn.Lists side (e.endAt side).id r.label ms →
        ((edges t (e.endAt side) side r.label).run.run conn).1 = .ok es → e ∈ es) ∧
      ∀ s rows conn es, conn.content = c → conn.Answers (.script s) rows →
        r ∈ relationshipsOf rows → ((runScript t s).run.run conn).1 = .ok es → e ∈ es) ∧
    (∀ n v side label conn ms, vertex t c n = .ok v → conn.content = c →
      conn.Lists side v.id label ms → ∃ rs : List Relationship, rs.Nodup ∧
        (∀ r, r ∈ rs ↔ r ∈ c.relationships ∧ Connection.endAt r side = n ∧
          r.label.equal label = true) ∧
        Gives t c rs ((edges t v side label).run.run conn).1) ∧
    ∀ s rows conn, conn.content = c → conn.Answers (.script s) rows →
      ∃ outcome conn', (runScript t s).run.run conn = (outcome, conn') ∧
        Gives t c (relationshipsOf rows) outcome ∧
        conn'.journal.toList = conn.journal.toList ++ reportsOf c rows ∧
        ((∀ r ∈ relationshipsOf rows, c.hasEnds r = true) →
          reportsOf c rows = (partsOf rows).filterMap Item.report?) := by
  have hsides (n : Int) (v : Vertex) (side : Side) (label : Value) (conn : Connection)
      (ms : List EdgeMatch) (hv : vertex t c n = .ok v) (hc : conn.content = c)
      (hlists : conn.Lists side v.id label ms) :
      ∃ rs : List Relationship, rs.Nodup ∧
        (∀ r, r ∈ rs ↔ r ∈ c.relationships ∧ Connection.endAt r side = n ∧
          r.label.equal label = true) ∧
        Gives t c rs ((edges t v side label).run.run conn).1 := by
    obtain ⟨honce, hlisted⟩ := listed_relationships hids hc hv hlists
    refine ⟨_, honce, hlisted, ?_⟩
    rw [edges_run hlists, hc]
    exact mapM_gives _
  refine ⟨fun r hheld hends => ?_, hsides, fun s rows conn hc hanswers => ?_⟩
  · obtain ⟨source, target, hsource, htarget, hedge⟩ := edge_of_ends (t := t) hends
    refine ⟨_, hedge, ⟨rfl, rfl, hsource, htarget⟩, ?_, ?_⟩
    · intro side conn ms es hc hlists hes
      have hv : vertex t c (Connection.endAt r side) =
          .ok ((edgeBetween r source target).endAt side) := by
        cases side with
        | incoming => exact htarget
        | outgoing => exact hsource
      obtain ⟨rs, _, hlisted, hgives⟩ := hsides _ _ side r.label conn ms hv hc hlists
      obtain ⟨label, hlabel⟩ := hlabels r hheld
      have hsame : r.label.equal r.label = true := by
        rw [hlabel, Value.equal_of_text]
        exact beq_self_eq_true _
      exact hgives.mem hes ((hlisted r).mpr ⟨hheld, rfl, hsame⟩) hedge
    · intro s rows conn es hc hanswers hr hes
      obtain ⟨conn', hrun, _⟩ := runScript_run (t := t) hanswers
      rw [hrun, hc] at hes
      exact (mapM_gives _).mem hes hr hedge
  · obtain ⟨conn', hrun, hjournal⟩ := runScript_run (t := t) hanswers
    rw [hc] at hrun hjournal
    exact ⟨_, conn', hrun, mapM_gives _, hjournal, reportsOf_readable⟩

end Store

namespace Dangling

/-- The job `p` reads `y`. -/
def reads : Relationship := ⟨0, .text "reads", 0, 1, [("relationship_id", .text "1")]⟩

/-- The job writes a node that has no id. -/
def writes : Relationship := ⟨1, .text "writes", 0, 2, [("relationship_id", .text "2")]⟩

/-- Two nodes with an id and one without. -/
def content : Content := ⟨#[⟨["Job"], [("id", .text "p")]⟩, ⟨["Indexed", "Table"],
  [("id", .text "y"), ("rows", .int 3)]⟩, ⟨["Table"], []⟩], #[reads, writes]⟩

/-- The edge of the relationship that can be read. -/
def edge : Edge where
  label := .text "reads"
  source := ⟨.text "p", .text "Job", [("id", .text "p")]⟩
  target := ⟨.text "y", .text "Table", [("id", .text "y"), ("rows", .int 3)]⟩
  relationshipId := .text "1"
  properties := [("relationship_id", .text "1")]

/-- Rows with a relationship in a list, beside a node and values. -/
def rows : List AnswerRow := [
  [("count", .value (.int 3)), ("n", .node 0)],
  [("path", .list [.value .null, .relationship reads])]]

/-- The database computes what it answers, but for a script. -/
def start (replies : List Reply) : Connection := .start content replies .null

theorem uniqueIds : content.UniqueIds := by
  have hids (n : Int) : n = 0 ∧ content.idOf n = .text "p" ∨ n = 1 ∧ content.idOf n = .text "y" ∨
      content.idOf n = .null := by
    rcases n with (_ | _ | _ | k) | k
    · exact .inl ⟨rfl, rfl⟩
    · exact .inr (.inl ⟨rfl, rfl⟩)
    · exact .inr (.inr rfl)
    · exact .inr (.inr (by simp [Content.idOf, Content.node, content, Record.get]))
    · exact .inr (.inr rfl)
  have hnone {m : Int} (hm : content.idOf m = .null) {n : Int} {a : String}
      (hn : content.idOf n = .text a) : (content.idOf m).equal (content.idOf n) = true ↔ m = n := by
    refine iff_of_false ?_ ?_
    · rw [hm, hn]
      exact Bool.false_ne_true
    · rintro rfl
      cases hm.symm.trans hn
  intro n m hn
  rcases hids n with ⟨rfl, hid⟩ | ⟨rfl, hid⟩ | hid
  · rcases hids m with ⟨rfl, _⟩ | ⟨rfl, _⟩ | hm
    · exact iff_of_true (by decide) rfl
    · exact iff_of_false (by decide) (by decide)
    · exact hnone hm hid
  · rcases hids m with ⟨rfl, _⟩ | ⟨rfl, _⟩ | hm
    · exact iff_of_false (by decide) (by decide)
    · exact iff_of_true (by decide) rfl
    · exact hnone hm hid
  · rw [hid] at hn
    cases hn

theorem mem_relationships {r : Relationship} (h : r ∈ content.relationships) :
    r = reads ∨ r = writes := by
  have h : r ∈ [reads, writes] := Array.mem_def.mp h
  simpa using h

theorem listed (side : Side) : (start []).Lists side (edge.endAt side).id (.text "reads")
    [.ofRelationship reads side] where
  answers := by cases side <;> rfl
  once := List.nodup_singleton _
  fits m := by
    rw [List.mem_singleton]
    constructor
    · rintro rfl
      cases side <;>
        exact ⟨Array.mem_def.mpr List.mem_cons_self, ⟨rfl, rfl⟩, by decide, by decide⟩
    · rintro ⟨hheld, hleads, _, hlabel⟩
      rcases mem_relationships hheld with h | h
      · rw [← h]
        exact hleads.eq
      · rw [h] at hlabel
        exact absurd hlabel (by decide)

theorem edge_eq : Store.edge Loop.taxonomy content reads = .ok edge := by cbv

theorem edges_eq (side : Side) : ((Store.edges Loop.taxonomy (edge.endAt side) side
    (.text "reads")).run.run (start [])).1 = .ok [edge] := by
  cases side <;> cbv

theorem runScript_eq : ((Store.runScript Loop.taxonomy ⟨"", []⟩).run.run
    (start [.rows rows])).1 = .ok [edge] := by
  cbv

end Dangling

/-- The relationship is the same edge out of `p`, into `y`, and in a list of a script. -/
theorem Store.reads_one_edge_dangling :
    Dangling.content.UniqueIds ∧
    (∀ r ∈ Dangling.content.relationships, ∃ s, r.label = .text s) ∧
    (∀ side, ∃ es, ((Store.edges Loop.taxonomy (Dangling.edge.endAt side) side
      (.text "reads")).run.run (Dangling.start [])).1 = .ok es ∧ Dangling.edge ∈ es) ∧
    ∃ es, ((Store.runScript Loop.taxonomy ⟨"", []⟩).run.run
      (Dangling.start [.rows Dangling.rows])).1 = .ok es ∧ Dangling.edge ∈ es := by
  have hlabels : ∀ r ∈ Dangling.content.relationships, ∃ s, r.label = .text s := by
    intro r hr
    rcases Dangling.mem_relationships hr with rfl | rfl <;> exact ⟨_, rfl⟩
  refine ⟨Dangling.uniqueIds, hlabels, ?_⟩
  obtain ⟨hone, _, _⟩ := Store.reads_one_edge (t := Loop.taxonomy) Dangling.uniqueIds hlabels
  obtain ⟨e, he, _, hsides, hscripts⟩ :=
    hone Dangling.reads (Array.mem_def.mpr List.mem_cons_self) (by decide)
  obtain rfl : Dangling.edge = e := Except.ok.inj (Dangling.edge_eq.symm.trans he)
  refine ⟨fun side => ⟨_, Dangling.edges_eq side, ?_⟩, _, Dangling.runScript_eq, ?_⟩
  · exact hsides side _ _ _ rfl (Dangling.listed side) (Dangling.edges_eq side)
  · exact hscripts ⟨"", []⟩ Dangling.rows (.start Dangling.content [.rows Dangling.rows] .null) _
      rfl rfl (List.mem_filterMap.mpr
        ⟨.relationship Dangling.reads, by simp [partsOf, parts, Dangling.rows], rfl⟩)
      Dangling.runScript_eq

end DataLineage
