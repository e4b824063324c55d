import DataLineage.Graph.Memory
import Std.Data.HashSet

/-!
# Seed data

Seed data is a record with `assets`, lists of objects under the names of their types, and
`relationships`, which lead from processes to datasets. `Seed.validate` accepts it when every asset
has a known type and an id of its own and every relationship has a lineage label, known ends of the
right categories and an id that no other one has; otherwise it answers the first rule that is
broken. `MemoryGraph.ofSeed` builds the graph of accepted seed data.

* `Seed.checkAsset_record` -- only objects are assets.
* `Seed.checkUniqueId_null` -- relationships without id never clash.
-/

namespace DataLineage

/-- A relationship of accepted seed data; its id is null where it has none. -/
structure SeedRelationship where
  label : Value
  source : Value
  target : Value
  id : Value
  deriving Repr, Inhabited

/-- **Accepted seed data**: assets by type name and relationships, both in their written order. -/
structure Seed where
  assets : List (Scalar × List Record)
  relationships : List SeedRelationship
  deriving Repr, Inhabited

namespace Seed

/-! ## 1. Assets -/

/-- The type names of the assets met so far, by id. -/
abbrev TypesById := Std.HashMap Key Scalar

/-- Is the value no id at all, being null or the empty text? -/
def isBlankId : Value → Bool
  | .null => true
  | .text s => s.isEmpty
  | _ => false

theorem isNull_of_isBlankId {id : Value} (h : isBlankId id = false) : id.isNull = false := by
  rw [Bool.eq_false_iff]
  intro hn
  rw [(Value.isNull_iff id).mp hn] at h
  cases h

/-- Accepts an object with an id that no earlier asset has. -/
def checkAsset (typeName : Scalar) (ids : TypesById) (asset : Value) :
    Outcome (Record × TypesById) :=
  match asset with
  | .record fields => do
    let id := Record.get fields "id"
    if isBlankId id then
      throw (.seed (.assetWithoutId typeName asset))
    let key ← id.key
    match ids[key]? with
    | some first => throw (.seed (.duplicateAsset id first typeName))
    | none => return (fields, ids.insert key typeName)
  | _ => throw (.seed (.assetNotRecord typeName asset))

/-- **Only objects are assets.** -/
theorem checkAsset_record {typeName : Scalar} {ids ids' : TypesById} {asset : Value}
    {fields : Record} (h : checkAsset typeName ids asset = .ok (fields, ids')) :
    asset = .record fields := by
  unfold checkAsset at h
  split at h
  · rename_i f
    by_cases hb : isBlankId (Record.get f "id")
    · simp [hb, bind, Except.bind, throw, throwThe, MonadExceptOf.throw] at h
    · cases hk : (Record.get f "id").key with
      | error e => simp [hb, hk, bind, Except.bind] at h
      | ok key =>
        simp only [hb, Bool.false_eq_true, if_false, hk, bind, Except.bind, pure, Except.pure] at h
        split at h
        · simp [throw, throwThe, MonadExceptOf.throw] at h
        · simp only [Except.ok.injEq, Prod.mk.injEq] at h
          rw [h.1]
  · simp [throw, throwThe, MonadExceptOf.throw] at h

/-- Accepts the objects of one type, in order. -/
def checkObjects (typeName : Scalar) :
    List Value → TypesById → Outcome (List Record × TypesById)
  | [], ids => .ok ([], ids)
  | asset :: rest, ids => do
    let (fields, ids) ← checkAsset typeName ids asset
    let (more, ids) ← checkObjects typeName rest ids
    return (fields :: more, ids)

/-- Accepts the assets of all types, in order. -/
def checkAssets (t : Taxonomy) :
    Record → TypesById → Outcome (List (Scalar × List Record) × TypesById)
  | [], ids => .ok ([], ids)
  | (typeName, objects) :: rest, ids => do
    if !t.knows typeName.key then
      throw (.seed (.unknownType typeName))
    match objects with
    | .list items =>
      let (records, ids) ← checkObjects typeName items ids
      let (more, ids) ← checkAssets t rest ids
      return ((typeName, records) :: more, ids)
    | _ => throw (.seed (.assetsNotList typeName))

/-! ## 2. Relationships -/

/-- The type name of the asset with an id. -/
def typeOfEnd (ids : TypesById) (relationship id : Value) : Outcome Scalar := do
  match ids[← id.key]? with
  | some typeName => return typeName
  | none => throw (.seed (.unknownEndpoint id relationship))

/-- The relationship ids in use, with one more; a null id uses none. -/
def checkUniqueId (used : Std.HashSet Key) (id : Value) : Outcome (Std.HashSet Key) := do
  if id.isNull then
    return used
  let key ← id.key
  if used.contains key then
    throw (.seed (.duplicateRelationship id))
  return used.insert key

/-- Relationships without id never clash. -/
theorem checkUniqueId_null (used : Std.HashSet Key) : checkUniqueId used .null = .ok used := rfl

/-- Accepts a relationship from a process to a dataset. -/
def checkRelationship (t : Taxonomy) (ids : TypesById) (used : Std.HashSet Key)
    (relationship : Value) : Outcome (SeedRelationship × Std.HashSet Key) :=
  match relationship with
  | .record fields => do
    let label := Record.get fields "type"
    let source := Record.get fields "from"
    let target := Record.get fields "to"
    if !label.truth || source.isNull || target.isNull then
      throw (.seed (.incompleteRelationship relationship))
    if !t.labels.has label then
      throw (.seed (.unknownLabel label))
    let sourceType ← typeOfEnd ids relationship source
    let targetType ← typeOfEnd ids relationship target
    if !(← t.isProcess (.scalar sourceType)) then
      throw (.seed (.startNotProcess label source sourceType))
    if !(← t.isDataset (.scalar targetType)) then
      throw (.seed (.endNotDataset label target targetType))
    let id := Record.get fields "id"
    let used ← checkUniqueId used id
    return ({ label, source, target, id }, used)
  | _ => throw (.seed (.relationshipNotRecord relationship))

/-- Accepts relationships, in order. -/
def checkRelationships (t : Taxonomy) (ids : TypesById) :
    List Value → Std.HashSet Key → Outcome (List SeedRelationship)
  | [], _ => .ok []
  | relationship :: rest, used => do
    let (r, used) ← checkRelationship t ids used relationship
    return r :: (← checkRelationships t ids rest used)

/-! ## 3. Seed data -/

/-- **Checks seed data against a taxonomy.** -/
def validate (t : Taxonomy) (data : Value) : Outcome Seed := do
  match (← data.field "assets").orElse (.record []) with
  | .record types =>
    let (assets, ids) ← checkAssets t types ∅
    match (← data.field "relationships").orElse (.list []) with
    | .list items =>
      let relationships ← checkRelationships t ids items ∅
      return { assets, relationships }
    | _ => throw (.seed .relationshipsNotList)
  | _ => throw (.seed .assetsNotRecord)

end Seed

namespace MemoryGraph

/-- The graph with one more vertex for each asset. -/
def addAssets (g : MemoryGraph) (assets : List (Scalar × List Record)) : Outcome MemoryGraph :=
  assets.foldlM (fun g (typeName, records) =>
    records.foldlM (fun g (asset : Record) => do
      let (_, g) ← g.addVertex (Record.get asset "id") (.scalar typeName) (Record.erase asset "id")
      return g) g) g

/-- The graph with one more edge for each relationship. -/
def addRelationships (g : MemoryGraph) (relationships : List SeedRelationship) :
    Outcome MemoryGraph :=
  relationships.foldlM (fun g r => do
    let (_, g) ← g.addEdge r.label r.source r.target r.id []
    return g) g

/-- **The graph of seed data**: its assets as vertices and its relationships as edges. -/
def ofSeed (t : Taxonomy) (data : Value) : Outcome MemoryGraph := do
  let seed ← Seed.validate t data
  (← empty.addAssets seed.assets).addRelationships seed.relationships

end MemoryGraph

end DataLineage
