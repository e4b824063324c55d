import DataLineage.Proofs.Graph.Rows

/-!
# Which seed data is accepted

Checking seed data goes through assets and relationships one by one and carries along which ids it
has met. What it accepts is told without that: the data lists objects, and these keep the rules.

* `Taxonomy.Scalars`, `Seed.ScalarIds` -- what identifies something is a scalar;
* `Seed.Lists` -- the data lists exactly the assets and relationships of the seed, in order;
* `Seed.Keeps` -- **the rules**: known types, ids of their own, lineage labels, ends of the right
  kinds, relationship ids of their own;
* `checkObjects_iff`, `checkAssets_iff`, `checkRelationships_iff` -- what each check accepts;
* `Seed.validate_iff` -- **the accepted data is the data that lists a seed which keeps the rules**,
  and that seed is the result;
* `Seed.validate_refuses` -- all other data is refused with a fault that names a rule.
-/

namespace DataLineage

/-! ## 1. What data lists, and the rules -/

/-- **The markers and the labels of the taxonomy are scalars**, as they are meant to be texts. -/
structure Taxonomy.Scalars (t : Taxonomy) : Prop where
  dataset : ∃ s, t.datasetMarker = .scalar s
  process : ∃ s, t.processMarker = .scalar s
  inputs : ∃ s, t.labels.inputs = .scalar s
  outputs : ∃ s, t.labels.outputs = .scalar s

namespace Seed

/-- The relationship that an object describes. -/
def relationshipOf (fields : Record) : SeedRelationship :=
  ⟨Record.get fields "type", Record.get fields "from", Record.get fields "to",
    Record.get fields "id"⟩

/-- **The data lists the seed**: lists of objects under the names of their types, and a list of
objects that describe the relationships. A part that is missing or counts as false lists nothing. -/
structure Lists (data : Record) (seed : Seed) : Prop where
  assets : (Record.get data "assets").orElse (.record []) =
    .record (seed.assets.map fun a => (a.1, .list (a.2.map .record)))
  relationships : ∃ items : List Record,
    (Record.get data "relationships").orElse (.list []) = .list (items.map .record) ∧
      seed.relationships = items.map relationshipOf

/-- The id is that of an asset whose type is of the kind. -/
def Names (seed : Seed) (id : Value) (ofKind : Value → Outcome Bool) : Prop :=
  ∃ row ∈ seed.rows, id.same (Record.get row.2 "id") = true ∧ ofKind (.scalar row.1) = .ok true

/-- **The seed keeps the rules of the taxonomy.** -/
structure Keeps (t : Taxonomy) (seed : Seed) : Prop where
  types : ∀ a ∈ seed.assets, t.knows a.1.key = true
  named : ∀ row ∈ seed.rows, isBlankId (Record.get row.2 "id") = false
  distinct : seed.rows.Pairwise fun a b =>
    (Record.get a.2 "id").same (Record.get b.2 "id") = false
  labels : ∀ r ∈ seed.relationships, r.label.truth = true ∧ t.labels.has r.label = true
  sources : ∀ r ∈ seed.relationships, seed.Names r.source t.isProcess
  targets : ∀ r ∈ seed.relationships, seed.Names r.target t.isDataset
  distinctIds : seed.relationships.Pairwise fun a b =>
    a.id.isNull = false → a.id.same b.id = false

/-- **What identifies something in the data is a scalar**: the ids of assets, and the ends and ids
of relationships. -/
structure ScalarIds (data : Record) : Prop where
  assets : ∀ types, Record.get data "assets" = .record types → ∀ field ∈ types, ∀ items,
    field.2 = .list items → ∀ fields, .record fields ∈ items →
      ∃ s, Record.get fields "id" = .scalar s
  relationships : ∀ items, Record.get data "relationships" = .list items → ∀ fields,
    .record fields ∈ items → ∀ name ∈ ["from", "to", "id"], ∃ s, Record.get fields name = .scalar s

/-! ## 2. Assets -/

namespace Entered

variable {ids ids'' : TypesById} {rows rows' : List (Scalar × Record)}

/-- Rows are entered in two parts when they are entered one part after the other. -/
theorem append_iff :
    Entered ids (rows ++ rows') ids'' ↔
      ∃ ids', Entered ids rows ids' ∧ Entered ids' rows' ids'' := by
  refine ⟨fun h => ?_, fun ⟨_, h, h'⟩ => h.append h'⟩
  induction rows generalizing ids with
  | nil => exact ⟨ids, .nil _, h⟩
  | cons row rest ih =>
      cases h with
      | cons hb hk hnew h =>
          obtain ⟨ids', hrest, hrows'⟩ := ih h
          exact ⟨ids', .cons hb hk hnew hrest, hrows'⟩

end Entered

theorem checkAsset_iff {typeName : Scalar} {ids ids' : TypesById} {asset : Value}
    {fields : Record} : checkAsset typeName ids asset = .ok (fields, ids') ↔
      asset = .record fields ∧ Entered ids [(typeName, fields)] ids' := by
  refine ⟨fun h => ⟨checkAsset_record h, checkAsset_entered h⟩, fun ⟨hrecord, h⟩ => ?_⟩
  subst hrecord
  cases h with
  | @cons _ _ _ _ k hb hk hnew h =>
      cases h
      have hk : (Record.get fields "id").key = .ok k := hk
      unfold checkAsset
      simp only [hb, hk, Outcome.ok_bind]
      rw [hnew]
      rfl

/-- **The objects of a type are accepted** when all of them can be entered. -/
theorem checkObjects_iff {typeName : Scalar} {items : List Value} {ids ids' : TypesById}
    {records : List Record} : checkObjects typeName items ids = .ok (records, ids') ↔
      items = records.map .record ∧ Entered ids (records.map (typeName, ·)) ids' := by
  constructor
  · refine fun h => ⟨?_, checkObjects_entered h⟩
    induction items generalizing ids records with
    | nil =>
        cases h
        rfl
    | cons asset rest ih =>
        obtain ⟨⟨fields, ids₁⟩, hasset, h⟩ := Outcome.bind_eq_ok.mp h
        obtain ⟨⟨more, ids₂⟩, hrest, h⟩ := Outcome.bind_eq_ok.mp h
        cases h
        rw [checkAsset_record hasset, ih hrest, List.map_cons]
  · rintro ⟨rfl, h⟩
    induction records generalizing ids with
    | nil =>
        cases h
        rfl
    | cons fields rest ih =>
        have h : Entered ids ([(typeName, fields)] ++ rest.map (typeName, ·)) ids' := h
        obtain ⟨ids₁, hone, hrest⟩ := Entered.append_iff.mp h
        exact Outcome.bind_eq_ok.mpr ⟨_, checkAsset_iff.mpr ⟨rfl, hone⟩,
          Outcome.bind_eq_ok.mpr ⟨_, ih hrest, rfl⟩⟩

/-- **Assets are accepted** when their types are known and all of them can be entered. -/
theorem checkAssets_iff {t : Taxonomy} {types : Record} {ids ids' : TypesById}
    {assets : List (Scalar × List Record)} : checkAssets t types ids = .ok (assets, ids') ↔
      types = (assets.map fun a => (a.1, .list (a.2.map .record))) ∧
        (∀ a ∈ assets, t.knows a.1.key = true) ∧ Entered ids (rowsOf assets) ids' := by
  constructor
  · intro h
    have hentered := checkAssets_entered h
    induction types generalizing ids assets with
    | nil =>
        cases h
        exact ⟨rfl, nofun, hentered⟩
    | cons field rest ih =>
        obtain ⟨typeName, objects⟩ := field
        unfold checkAssets at h
        cases hknown : t.knows typeName.key with
        | false =>
            rw [hknown] at h
            cases h
        | true =>
            rw [hknown] at h
            cases objects with
            | scalar s => cases h
            | record fields => cases h
            | set members => cases h
            | list items =>
                obtain ⟨⟨records, ids₁⟩, hitems, h⟩ := Outcome.bind_eq_ok.mp h
                obtain ⟨⟨more, ids₂⟩, hrest, h⟩ := Outcome.bind_eq_ok.mp h
                cases h
                obtain ⟨rfl, hmore, _⟩ := ih hrest (checkAssets_entered hrest)
                refine ⟨?_, fun a ha => ?_, hentered⟩
                · rw [(checkObjects_iff.mp hitems).1, List.map_cons]
                · rcases List.mem_cons.mp ha with rfl | ha
                  · exact hknown
                  · exact hmore a ha
  · rintro ⟨rfl, hknown, h⟩
    induction assets generalizing ids with
    | nil =>
        cases h
        rfl
    | cons a rest ih =>
        obtain ⟨ids₁, hone, hrest⟩ := Entered.append_iff.mp h
        rw [List.map_cons, checkAssets, hknown a List.mem_cons_self]
        exact Outcome.bind_eq_ok.mpr ⟨_, checkObjects_iff.mpr ⟨rfl, hone⟩,
          Outcome.bind_eq_ok.mpr ⟨_, ih (fun b hb => hknown b (List.mem_cons_of_mem _ hb)) hrest,
            rfl⟩⟩

/-! ## 3. Relationships -/

/-- The relationship states a label and both ends. -/
structure Complete (r : SeedRelationship) : Prop where
  label : r.label.truth = true
  source : r.source.isNull = false
  target : r.target.isNull = false

theorem typeOfEnd_iff {ids : TypesById} {relationship id : Value} {typeName : Scalar} :
    typeOfEnd ids relationship id = .ok typeName ↔
      ∃ k, id.key = .ok k ∧ ids[k]? = some typeName := by
  refine ⟨typeOfEnd_ok, fun ⟨k, hk, hfound⟩ => Outcome.bind_eq_ok.mpr ⟨k, hk, ?_⟩⟩
  rw [hfound]
  rfl

/-- **A relationship is accepted** when it is complete, leads from a process to a dataset, and has
an id of its own. -/
theorem checkRelationship_iff {t : Taxonomy} {ids : TypesById} {used used' : Std.HashSet Key}
    {relationship : Value} {r : SeedRelationship} :
    checkRelationship t ids used relationship = .ok (r, used') ↔
      (∃ fields, relationship = .record fields ∧ r = relationshipOf fields) ∧ Complete r ∧
        Fits t ids r ∧ checkUniqueId used r.id = .ok used' := by
  constructor
  · intro h
    suffices hwritten : (∃ fields, relationship = .record fields ∧ r = relationshipOf fields) ∧
        Complete r from ⟨hwritten.1, hwritten.2, checkRelationship_fits h, checkRelationship_ok h⟩
    unfold checkRelationship at h
    cases relationship with
    | scalar s => cases h
    | list xs => cases h
    | set members => cases h
    | record fields =>
        simp only at h
        split at h
        · cases h
        rename_i hcomplete
        split at h
        · cases h
        obtain ⟨_, _, h⟩ := Outcome.bind_eq_ok.mp h
        obtain ⟨_, _, h⟩ := Outcome.bind_eq_ok.mp h
        obtain ⟨isProcess, _, h⟩ := Outcome.bind_eq_ok.mp h
        cases isProcess with
        | false => cases h
        | true =>
            obtain ⟨isDataset, _, h⟩ := Outcome.bind_eq_ok.mp h
            cases isDataset with
            | false => cases h
            | true =>
                obtain ⟨_, _, h⟩ := Outcome.bind_eq_ok.mp h
                cases h
                simp only [Bool.or_eq_true, Bool.not_eq_true', not_or, Bool.not_eq_true,
                  Bool.not_eq_false] at hcomplete
                exact ⟨⟨fields, rfl, rfl⟩, hcomplete.1.1, hcomplete.1.2, hcomplete.2⟩
  · rintro ⟨⟨fields, rfl, rfl⟩, hcomplete, hfits, hunique⟩
    obtain ⟨sk, sourceType, hsk, hs, hp⟩ := hfits.source
    obtain ⟨tk, targetType, htk, ht, hd⟩ := hfits.target
    have hlabel : (Record.get fields "type").truth = true := hcomplete.label
    have hsource : (Record.get fields "from").isNull = false := hcomplete.source
    have htarget : (Record.get fields "to").isNull = false := hcomplete.target
    have hhas : t.labels.has (Record.get fields "type") = true := hfits.label
    have hstart (x : Value) : typeOfEnd ids x (Record.get fields "from") = .ok sourceType :=
      typeOfEnd_iff.mpr ⟨sk, hsk, hs⟩
    have hend (x : Value) : typeOfEnd ids x (Record.get fields "to") = .ok targetType :=
      typeOfEnd_iff.mpr ⟨tk, htk, ht⟩
    have hid : checkUniqueId used (Record.get fields "id") = .ok used' := hunique
    unfold checkRelationship
    simp only [hlabel, hsource, htarget, hhas, hstart, hend, hp, hd, hid, Outcome.ok_bind]
    rfl

/-- The ids of relationships are scalars, and differ from each other and from those in use. -/
structure Unused (used : Std.HashSet Key) (rs : List SeedRelationship) : Prop where
  distinct : rs.Pairwise fun a b => IdsDiffer a.id b.id
  fresh : ∀ r ∈ rs, ∃ s, r.id = .scalar s ∧ (s ≠ .null → used.contains s.key = false)

/-- **Ids of their own are accepted one by one.** -/
theorem Unused.step {used : Std.HashSet Key} {r : SeedRelationship} {rest : List SeedRelationship}
    (h : Unused used (r :: rest)) :
    ∃ used', checkUniqueId used r.id = .ok used' ∧ Unused used' rest := by
  obtain ⟨hother, hdistinct⟩ := List.pairwise_cons.mp h.distinct
  obtain ⟨s, hs, hnew⟩ := h.fresh r List.mem_cons_self
  have hrest (b : SeedRelationship) (hb : b ∈ rest) := h.fresh b (List.mem_cons_of_mem _ hb)
  by_cases hn : s = .null
  · refine ⟨used, ?_, hdistinct, hrest⟩
    rw [hs, hn]
    rfl
  · refine ⟨used.insert s.key, ?_, hdistinct, fun b hb => ?_⟩
    · unfold checkUniqueId
      simp only [hs, Value.isNull_scalar hn, Value.key, Outcome.ok_bind, hnew hn]
      rfl
    · obtain ⟨u, hu, hunused⟩ := hrest b hb
      refine ⟨u, hu, fun hun => ?_⟩
      rw [Std.HashSet.contains_insert, hunused hun, Bool.or_false, beq_eq_false_iff_ne]
      exact hother b hb s u hs hu hn

/-- **Relationships are accepted** when each of them is, with an id that no other one has. -/
theorem checkRelationships_iff {t : Taxonomy} {ids : TypesById} {relationships : List Value}
    {used : Std.HashSet Key} {rs : List SeedRelationship} :
    checkRelationships t ids relationships used = .ok rs ↔
      (∃ items : List Record, relationships = items.map .record ∧ rs = items.map relationshipOf) ∧
        (∀ r ∈ rs, Complete r ∧ Fits t ids r) ∧ Unused used rs := by
  constructor
  · intro h
    have hfits := checkRelationships_fit h
    obtain ⟨hdistinct, hfresh⟩ := checkRelationships_distinct h
    suffices hwritten : (∃ items : List Record, relationships = items.map .record ∧
        rs = items.map relationshipOf) ∧ ∀ r ∈ rs, Complete r from
      ⟨hwritten.1, fun r hr => ⟨hwritten.2 r hr, hfits r hr⟩, hdistinct, hfresh⟩
    clear hfits hdistinct hfresh
    induction relationships generalizing used rs with
    | nil =>
        cases h
        exact ⟨⟨[], rfl, rfl⟩, nofun⟩
    | cons x rest ih =>
        obtain ⟨⟨r, used'⟩, hr, h⟩ := Outcome.bind_eq_ok.mp h
        obtain ⟨rs', hrs, h⟩ := Outcome.bind_eq_ok.mp h
        cases h
        obtain ⟨⟨fields, rfl, rfl⟩, hcomplete, _⟩ := checkRelationship_iff.mp hr
        obtain ⟨⟨items, rfl, rfl⟩, hall⟩ := ih hrs
        refine ⟨⟨fields :: items, rfl, rfl⟩, fun r hr => ?_⟩
        rcases List.mem_cons.mp hr with rfl | hr
        · exact hcomplete
        · exact hall r hr
  · rintro ⟨⟨items, rfl, rfl⟩, hall, hunused⟩
    induction items generalizing used with
    | nil => rfl
    | cons fields rest ih =>
        rw [List.map_cons] at hall hunused
        obtain ⟨used', hid, hrest⟩ := hunused.step
        obtain ⟨hcomplete, hfits⟩ := hall _ List.mem_cons_self
        exact Outcome.bind_eq_ok.mpr
          ⟨_, checkRelationship_iff.mpr ⟨⟨fields, rfl, rfl⟩, hcomplete, hfits, hid⟩,
            Outcome.bind_eq_ok.mpr
              ⟨_, ih (fun r hr => hall r (List.mem_cons_of_mem _ hr)) hrest, rfl⟩⟩

/-! ## 4. What is accepted -/

/-- Checking goes through the assets and then through the relationships that the data lists. -/
theorem validate_steps {t : Taxonomy} {data : Record} {seed : Seed} :
    validate t (.record data) = .ok seed ↔ Lists data seed ∧
      (∀ a ∈ seed.assets, t.knows a.1.key = true) ∧ ∃ ids, Entered ∅ seed.rows ids ∧
        (∀ r ∈ seed.relationships, Complete r ∧ Fits t ids r) ∧ Unused ∅ seed.relationships := by
  have hfield (name : String) : (Value.record data).field name = .ok (Record.get data name) := rfl
  constructor
  · intro h
    unfold validate at h
    simp only [hfield, Outcome.ok_bind] at h
    split at h
    · rename_i types htypes
      obtain ⟨⟨assets, ids⟩, hassets, h⟩ := Outcome.bind_eq_ok.mp h
      split at h
      · rename_i items hitems
        obtain ⟨rs, hrs, h⟩ := Outcome.bind_eq_ok.mp h
        cases h
        obtain ⟨rfl, hknown, hentered⟩ := checkAssets_iff.mp hassets
        obtain ⟨⟨items, rfl, rfl⟩, hall, hunused⟩ := checkRelationships_iff.mp hrs
        exact ⟨⟨htypes, items, hitems, rfl⟩, hknown, ids, hentered, hall, hunused⟩
      · cases h
    · cases h
  · rintro ⟨⟨htypes, items, hitems, hrs⟩, hknown, ids, hentered, hall, hunused⟩
    unfold validate
    simp only [hfield, Outcome.ok_bind, htypes, hitems]
    refine Outcome.bind_eq_ok.mpr
      ⟨(seed.assets, ids), checkAssets_iff.mpr ⟨rfl, hknown, hentered⟩, ?_⟩
    exact Outcome.bind_eq_ok.mpr ⟨seed.relationships,
      checkRelationships_iff.mpr ⟨⟨items, rfl, hrs⟩, hall, hunused⟩, rfl⟩

/-- An asset that is listed is one of the objects in the data. -/
theorem Lists.row_id {data : Record} {seed : Seed} (h : Lists data seed) (hids : ScalarIds data)
    {row : Scalar × Record} (hrow : row ∈ seed.rows) :
    ∃ s, Record.get row.2 "id" = .scalar s := by
  obtain ⟨a, ha, hrow⟩ := List.mem_flatMap.mp hrow
  obtain ⟨fields, hfields, rfl⟩ := List.mem_map.mp hrow
  have hassets := h.assets
  unfold Value.orElse at hassets
  split at hassets
  · exact hids.assets _ hassets _ (List.mem_map_of_mem ha) _ rfl fields
      (List.mem_map_of_mem hfields)
  · rw [Value.record.injEq, eq_comm, List.map_eq_nil_iff] at hassets
    rw [hassets] at ha
    cases ha

/-- The ends and the id of a relationship that is listed are scalars. -/
theorem Lists.relationship_ids {data : Record} {seed : Seed} (h : Lists data seed)
    (hids : ScalarIds data) {r : SeedRelationship} (hr : r ∈ seed.relationships) :
    (∃ s, r.source = .scalar s) ∧ (∃ s, r.target = .scalar s) ∧ ∃ s, r.id = .scalar s := by
  obtain ⟨items, hitems, hrs⟩ := h.relationships
  rw [hrs] at hr
  obtain ⟨fields, hfields, rfl⟩ := List.mem_map.mp hr
  unfold Value.orElse at hitems
  split at hitems
  · have hscalar := hids.relationships _ hitems fields (List.mem_map_of_mem hfields)
    exact ⟨hscalar "from" (by simp), hscalar "to" (by simp), hscalar "id" (by simp)⟩
  · rw [Value.list.injEq, eq_comm, List.map_eq_nil_iff] at hitems
    rw [hitems] at hfields
    cases hfields

/-- Where its rows were entered, a seed names an asset by an id that leads to its type. -/
theorem names_iff {seed : Seed} {ids : TypesById} (h : Entered ∅ seed.rows ids) {id : Value}
    {ofKind : Value → Outcome Bool} : seed.Names id ofKind ↔ EndsAt ids id ofKind := by
  have hscalar {row : Scalar × Record} (hrow : row ∈ seed.rows) :
      ∃ s, Record.get row.2 "id" = .scalar s := by
    obtain ⟨k, hk⟩ := h.distinct.1 row hrow
    obtain ⟨s, hs, _⟩ := (Value.key_eq_ok_iff _ _).mp hk
    exact ⟨s, hs⟩
  constructor
  · rintro ⟨row, hrow, hsame, hkind⟩
    obtain ⟨s, hs⟩ := hscalar hrow
    rw [hs] at hsame
    refine ⟨s.key, row.1, (Value.same_iff_key id s).mp hsame,
      (h.lookup _ _).mpr (.inr ⟨row, hrow, ?_, rfl⟩), hkind⟩
    rw [rowKey, hs]
    rfl
  · rintro ⟨k, typeName, hk, hfound, hkind⟩
    rcases (h.lookup k typeName).mp hfound with hnone | ⟨row, hrow, hkey, rfl⟩
    · simp at hnone
    · obtain ⟨s, hs⟩ := hscalar hrow
      rw [rowKey, hs] at hkey
      refine ⟨row, hrow, ?_, hkind⟩
      rw [hs, Value.same_iff_key, hk, ← hkey]
      rfl

section

variable {t : Taxonomy} {data : Record} {seed : Seed}

/-- Assets that are listed have different ids when they have different keys. -/
theorem Lists.differ_iff (h : Lists data seed) (hids : ScalarIds data) {a b : Scalar × Record}
    (hb : b ∈ seed.rows) :
    (Record.get a.2 "id").same (Record.get b.2 "id") = false ↔ rowKey a ≠ rowKey b := by
  obtain ⟨s, hs⟩ := h.row_id hids hb
  rw [← Bool.not_eq_true, hs, Value.same_iff_key, rowKey, rowKey, hs]
  rfl

/-- **What was entered and checked keeps the rules.** -/
theorem Lists.keeps (h : Lists data seed) (hids : ScalarIds data)
    (hknown : ∀ a ∈ seed.assets, t.knows a.1.key = true) {ids : TypesById}
    (hentered : Entered ∅ seed.rows ids) (hall : ∀ r ∈ seed.relationships, Complete r ∧ Fits t ids r)
    (hunused : Unused ∅ seed.relationships) : Keeps t seed where
  types := hknown
  named row hr := hentered.named hr
  distinct := hentered.distinct.2.1.imp_of_mem fun _ hb hne => (h.differ_iff hids hb).mpr hne
  labels r hr := ⟨(hall r hr).1.label, (hall r hr).2.label⟩
  sources r hr := (names_iff hentered).mpr (hall r hr).2.source
  targets r hr := (names_iff hentered).mpr (hall r hr).2.target
  distinctIds := by
    refine hunused.distinct.imp_of_mem fun ha hb hdiffer hn => ?_
    obtain ⟨_, _, s, hs⟩ := h.relationship_ids hids ha
    obtain ⟨_, _, u, hu⟩ := h.relationship_ids hids hb
    rw [← Bool.not_eq_true, hs, hu, Value.same_scalar_iff]
    refine hdiffer s u hs hu fun hnull => ?_
    rw [hs, hnull] at hn
    cases hn

end

/-! ## 5. What is refused -/

/-- Where the computation fails, seed data breaks a rule. -/
def OnlyRefuses {α : Type} (x : Outcome α) : Prop := ∀ e, x = .error e → ∃ cause, e = .seed cause

namespace OnlyRefuses

variable {α β : Type}

theorem ok (a : α) : OnlyRefuses (.ok a) := nofun

theorem refused (cause : SeedCause) : OnlyRefuses (.error (.seed cause) : Outcome α) :=
  fun _ h => ⟨cause, (Except.error.inj h).symm⟩

theorem bind {x : Outcome α} {f : α → Outcome β} (hx : OnlyRefuses x)
    (hf : ∀ a, x = .ok a → OnlyRefuses (f a)) : OnlyRefuses (x >>= f) := by
  cases x with
  | error e =>
      intro e' h
      have h : (Except.error e : Outcome β) = .error e' := h
      cases h
      exact hx e rfl
  | ok a => exact hf a rfl

/-- A value that is a scalar can identify something. -/
theorem key {v : Value} (hv : ∃ s, v = .scalar s) : OnlyRefuses v.key := by
  obtain ⟨s, rfl⟩ := hv
  exact ok _

end OnlyRefuses

theorem checkAsset_refuses {typeName : Scalar} {ids : TypesById} {asset : Value}
    (hid : ∀ fields, asset = .record fields → ∃ s, Record.get fields "id" = .scalar s) :
    OnlyRefuses (checkAsset typeName ids asset) := by
  unfold checkAsset
  split
  · dsimp only
    split
    · exact .refused _
    · refine .bind (.key (hid _ rfl)) fun k _ => ?_
      split
      · exact .refused _
      · exact .ok _
  · exact .refused _

theorem checkObjects_refuses {typeName : Scalar} {items : List Value} {ids : TypesById}
    (hid : ∀ fields, .record fields ∈ items → ∃ s, Record.get fields "id" = .scalar s) :
    OnlyRefuses (checkObjects typeName items ids) := by
  induction items generalizing ids with
  | nil => exact .ok _
  | cons asset rest ih =>
      refine .bind (checkAsset_refuses fun fields h => hid fields (h ▸ List.mem_cons_self))
        fun _ _ => ?_
      exact .bind (ih fun fields h => hid fields (List.mem_cons_of_mem _ h)) fun _ _ => .ok _

theorem checkAssets_refuses {t : Taxonomy} {types : Record} {ids : TypesById}
    (hid : ∀ field ∈ types, ∀ items, field.2 = .list items → ∀ fields, .record fields ∈ items →
      ∃ s, Record.get fields "id" = .scalar s) :
    OnlyRefuses (checkAssets t types ids) := by
  induction types generalizing ids with
  | nil => exact .ok _
  | cons field rest ih =>
      obtain ⟨typeName, objects⟩ := field
      unfold checkAssets
      dsimp only
      cases t.knows typeName.key with
      | false => exact .refused _
      | true =>
          cases objects with
          | scalar s => exact .refused _
          | record fields => exact .refused _
          | set members => exact .refused _
          | list items =>
              refine .bind (checkObjects_refuses (hid _ List.mem_cons_self items rfl)) fun _ _ => ?_
              exact .bind (ih fun field h => hid field (List.mem_cons_of_mem _ h)) fun _ _ => .ok _

theorem typeOfEnd_refuses {ids : TypesById} {relationship id : Value} (hid : ∃ s, id = .scalar s) :
    OnlyRefuses (typeOfEnd ids relationship id) := by
  refine .bind (.key hid) fun k _ => ?_
  split
  · exact .ok _
  · exact .refused _

theorem checkUniqueId_refuses {used : Std.HashSet Key} {id : Value} (hid : ∃ s, id = .scalar s) :
    OnlyRefuses (checkUniqueId used id) := by
  unfold checkUniqueId
  split
  · exact .ok _
  · refine .bind (.key hid) fun k _ => ?_
    split
    · exact .refused _
    · exact .ok _

theorem isOfCategory_refuses {t : Taxonomy} {marker : Value} (hmarker : ∃ s, marker = .scalar s)
    (typeName : Scalar) : OnlyRefuses (t.isOfCategory (.scalar typeName) marker) :=
  .bind (.ok _) fun _ _ => .bind (.key hmarker) fun _ _ => .ok _

theorem checkRelationship_refuses {t : Taxonomy} (ht : t.Scalars) {ids : TypesById}
    {used : Std.HashSet Key} {relationship : Value}
    (hid : ∀ fields, relationship = .record fields → ∀ name ∈ ["from", "to", "id"],
      ∃ s, Record.get fields name = .scalar s) :
    OnlyRefuses (checkRelationship t ids used relationship) := by
  unfold checkRelationship
  split
  · rename_i fields
    have hid := hid fields rfl
    dsimp only
    split
    · exact .refused _
    split
    · exact .refused _
    refine .bind (typeOfEnd_refuses (hid "from" (by simp))) fun sourceType _ => ?_
    refine .bind (typeOfEnd_refuses (hid "to" (by simp))) fun targetType _ => ?_
    refine .bind (isOfCategory_refuses ht.process sourceType) fun isProcess _ => ?_
    split
    · exact .refused _
    refine .bind (isOfCategory_refuses ht.dataset targetType) fun isDataset _ => ?_
    split
    · exact .refused _
    exact .bind (checkUniqueId_refuses (hid "id" (by simp))) fun _ _ => .ok _
  · exact .refused _

theorem checkRelationships_refuses {t : Taxonomy} (ht : t.Scalars) {ids : TypesById}
    {relationships : List Value} {used : Std.HashSet Key}
    (hid : ∀ fields, .record fields ∈ relationships → ∀ name ∈ ["from", "to", "id"],
      ∃ s, Record.get fields name = .scalar s) :
    OnlyRefuses (checkRelationships t ids relationships used) := by
  induction relationships generalizing used with
  | nil => exact .ok _
  | cons x rest ih =>
      refine .bind (checkRelationship_refuses ht fun fields h =>
        hid fields (h ▸ List.mem_cons_self)) fun _ _ => ?_
      exact .bind (ih fun fields h => hid fields (List.mem_cons_of_mem _ h)) fun _ _ => .ok _

/-- **Data that is not accepted breaks a rule.** -/
theorem validate_refuses {t : Taxonomy} (ht : t.Scalars) {data : Record} (hids : ScalarIds data) :
    OnlyRefuses (validate t (.record data)) := by
  have hassets (types : Record)
      (h : (Record.get data "assets").orElse (.record []) = .record types) :
      OnlyRefuses (checkAssets t types ∅) := by
    unfold Value.orElse at h
    split at h
    · exact checkAssets_refuses (hids.assets types h)
    · cases h
      exact .ok _
  have hrelationships (items : List Value) (ids : TypesById)
      (h : (Record.get data "relationships").orElse (.list []) = .list items) :
      OnlyRefuses (checkRelationships t ids items ∅) := by
    unfold Value.orElse at h
    split at h
    · exact checkRelationships_refuses ht (hids.relationships items h)
    · cases h
      exact .ok _
  unfold validate
  refine .bind (.ok _) fun assets ha => ?_
  cases ha
  split
  · rename_i types htypes
    refine .bind (hassets types htypes) fun _ _ => .bind (.ok _) fun relationships hr => ?_
    cases hr
    split
    · rename_i items hitems
      exact .bind (hrelationships items _ hitems) fun _ _ => .ok _
    · exact .refused _
  · exact .refused _

end Seed

end DataLineage
