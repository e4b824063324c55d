import DataLineage.Command.Setup
import DataLineage.Proofs.Graph.Faithful

/-!
# Which bad seed data is reported

Seed data that breaks a rule is refused by the name of the rule. But a list or an object where an
id should be identifies nothing, and where the check uses one to look something up it stumbles: it
fails with a fault that names no rule, and the command that loads seed data does not report it.

* `Value.IsCompound` -- a list or an object;
* `Seed.Stumbles` -- **the seed data on which the check stumbles**: everything before the id is
  accepted;
* `Seed.EndsBy` -- a check either names a rule or stumbles, with its rules for composed checks;
* `Seed.validate_endsBy` -- **the check of seed data has a result, names a rule, or stumbles**;
* `Seed.validate_reports` -- and what the command makes of each of these.
-/

namespace DataLineage

/-! ## 1. Where a check stumbles -/

/-- A list, a set or an object, which identifies nothing. -/
def Value.IsCompound : Value → Prop
  | .scalar _ => False
  | _ => True

theorem Value.key_fails_iff (v : Value) : v.key = .error .wrongKind ↔ v.IsCompound := by
  cases v <;> simp [key, IsCompound]

/-- A list, a set or an object is an id, if a bad one. -/
theorem Value.IsCompound.not_isBlankId {v : Value} (h : v.IsCompound) :
    ¬ Seed.isBlankId v = true := by
  cases v with
  | scalar s => exact h.elim
  | _ => exact Bool.false_ne_true

namespace Seed

/-- **Objects of a type stumble** over an object whose id is compound, when those before it can be
entered. -/
inductive ObjectsStumble (typeName : Scalar) : List Value → TypesById → Prop where
  | here {fields : Record} {rest : List Value} {ids : TypesById}
      (h : (Record.get fields "id").IsCompound) :
      ObjectsStumble typeName (.record fields :: rest) ids
  | later {fields : Record} {rest : List Value} {ids ids' : TypesById}
      (hentered : Entered ids [(typeName, fields)] ids') (h : ObjectsStumble typeName rest ids') :
      ObjectsStumble typeName (.record fields :: rest) ids

/-- **Assets stumble** where the objects of a known type do, when those of the types before can be
entered. -/
inductive AssetsStumble (t : Taxonomy) : Record → TypesById → Prop where
  | here {typeName : Scalar} {items : List Value} {rest : Record} {ids : TypesById}
      (hknown : t.knows typeName.key = true) (h : ObjectsStumble typeName items ids) :
      AssetsStumble t ((typeName, .list items) :: rest) ids
  | later {typeName : Scalar} {records : List Record} {rest : Record} {ids ids' : TypesById}
      (hknown : t.knows typeName.key = true)
      (hentered : Entered ids (records.map (typeName, ·)) ids') (h : AssetsStumble t rest ids') :
      AssetsStumble t ((typeName, .list (records.map .record)) :: rest) ids

/-- The relationship ends at an asset. -/
def Found (ids : TypesById) (id : Value) : Prop :=
  ∃ k typeName, id.key = .ok k ∧ ids[k]? = some typeName

/-- **What the check of a relationship stumbles over**, once what comes before is right: one of its
ends, a marker of the taxonomy, or its id. -/
inductive Trips (t : Taxonomy) (ids : TypesById) (r : SeedRelationship) : Prop where
  | source (h : r.source.IsCompound)
  | target (hsource : Found ids r.source) (h : r.target.IsCompound)
  | process (hsource : Found ids r.source) (htarget : Found ids r.target)
      (h : t.processMarker.IsCompound)
  | dataset (hsource : EndsAt ids r.source t.isProcess) (htarget : Found ids r.target)
      (h : t.datasetMarker.IsCompound)
  | id (hsource : EndsAt ids r.source t.isProcess) (htarget : EndsAt ids r.target t.isDataset)
      (h : r.id.IsCompound)

/-- **Relationships stumble** over one that is complete and has a lineage label, when those before
it are accepted. -/
inductive RelationshipsStumble (t : Taxonomy) (ids : TypesById) :
    List Value → Std.HashSet Key → Prop where
  | here {fields : Record} {rest : List Value} {used : Std.HashSet Key}
      (hcomplete : Complete (relationshipOf fields))
      (hlabel : t.labels.has (relationshipOf fields).label = true)
      (h : Trips t ids (relationshipOf fields)) :
      RelationshipsStumble t ids (.record fields :: rest) used
  | later {fields : Record} {rest : List Value} {used used' : Std.HashSet Key}
      (hcomplete : Complete (relationshipOf fields)) (hfits : Fits t ids (relationshipOf fields))
      (hid : checkUniqueId used (relationshipOf fields).id = .ok used')
      (h : RelationshipsStumble t ids rest used') :
      RelationshipsStumble t ids (.record fields :: rest) used

/-- **The seed data on which the check stumbles**: in its assets, or, where these are all right, in
its relationships. -/
inductive Stumbles (t : Taxonomy) (data : Record) : Prop where
  | assets {types : Record}
      (htypes : (Record.get data "assets").orElse (.record []) = .record types)
      (h : AssetsStumble t types ∅)
  | relationships {assets : List (Scalar × List Record)} {ids : TypesById} {items : List Value}
      (htypes : (Record.get data "assets").orElse (.record []) =
        .record (assets.map fun a => (a.1, .list (a.2.map .record))))
      (hknown : ∀ a ∈ assets, t.knows a.1.key = true) (hentered : Entered ∅ (rowsOf assets) ids)
      (hitems : (Record.get data "relationships").orElse (.list []) = .list items)
      (h : RelationshipsStumble t ids items ∅)

/-! ## 2. How checks end -/

/-- **A check that has no result names a rule or stumbles**, and it stumbles when `P` holds. -/
structure EndsBy {α : Type} (x : Outcome α) (P : Prop) : Prop where
  fault : ∀ e, x = .error e → (∃ cause, e = .seed cause) ∨ e = .wrongKind
  stumbles : x = .error .wrongKind ↔ P

namespace EndsBy

variable {α β : Type}

theorem ok (a : α) : EndsBy (.ok a) False := ⟨nofun, by simp⟩

theorem refused (cause : SeedCause) : EndsBy (.error (.seed cause) : Outcome α) False :=
  ⟨fun _ h => .inl ⟨cause, (Except.error.inj h).symm⟩, by simp⟩

theorem key (v : Value) : EndsBy v.key v.IsCompound where
  fault e h := by
    cases v with
    | scalar s => cases h
    | _ => exact .inr (Except.error.inj h).symm
  stumbles := v.key_fails_iff

theorem congr {x : Outcome α} {P Q : Prop} (h : EndsBy x P) (hpq : P ↔ Q) : EndsBy x Q :=
  ⟨h.fault, h.stumbles.trans hpq⟩

/-- **Of two checks, the first stumbles, or has a result with which the second one does.** -/
theorem bind {x : Outcome α} {f : α → Outcome β} {P : Prop} {Q : α → Prop} (hx : EndsBy x P)
    (hf : ∀ a, x = .ok a → EndsBy (f a) (Q a)) :
    EndsBy (x >>= f) (P ∨ ∃ a, x = .ok a ∧ Q a) := by
  cases x with
  | error e =>
      rw [Outcome.error_bind]
      refine ⟨fun e' h => hx.fault e' (congrArg _ (Except.error.inj h)), ?_⟩
      rw [← hx.stumbles]
      simp
  | ok a =>
      have hP : ¬ P := fun h => nomatch hx.stumbles.mpr h
      rw [Outcome.ok_bind]
      exact ⟨(hf a rfl).fault, (hf a rfl).stumbles.trans (by simp [hP])⟩

/-- A check that only ever follows one that stumbles adds nothing. -/
theorem bind_ok {x : Outcome α} {f : α → Outcome β} {P : Prop} (hx : EndsBy x P)
    (hf : ∀ a, x = .ok a → EndsBy (f a) False) : EndsBy (x >>= f) P :=
  (hx.bind hf).congr (by simp)

/-- **A check under a condition** stumbles only where the condition holds; else a rule is named. -/
theorem guard {b : Bool} {x y : Outcome α} {P : Prop} (hx : ∃ cause, x = .error (.seed cause))
    (hy : EndsBy y P) : EndsBy (if !b then x else y) (b = true ∧ P) := by
  obtain ⟨cause, rfl⟩ := hx
  cases b with
  | false => exact (EndsBy.refused cause).congr (by simp)
  | true => exact hy.congr (by simp)

end EndsBy

/-! ## 3. Assets -/

theorem checkAsset_endsBy (typeName : Scalar) (ids : TypesById) (fields : Record) :
    EndsBy (checkAsset typeName ids (.record fields)) (Record.get fields "id").IsCompound := by
  unfold checkAsset
  dsimp only
  split
  · rename_i hblank
    refine (EndsBy.refused _).congr (iff_of_false id fun h => ?_)
    exact h.not_isBlankId hblank
  · refine (EndsBy.key _).bind_ok fun k _ => ?_
    split
    · exact .refused _
    · exact .ok _

/-- **Objects are all entered, or one names a rule, or they stumble**, by induction on them. -/
theorem checkObjects_endsBy (typeName : Scalar) (items : List Value) (ids : TypesById) :
    EndsBy (checkObjects typeName items ids) (ObjectsStumble typeName items ids) := by
  induction items generalizing ids with
  | nil => exact (EndsBy.ok _).congr (iff_of_false id nofun)
  | cons asset rest ih =>
      cases asset with
      | scalar s => exact (EndsBy.refused _).congr (iff_of_false id nofun)
      | list items => exact (EndsBy.refused _).congr (iff_of_false id nofun)
      | set members => exact (EndsBy.refused _).congr (iff_of_false id nofun)
      | record fields =>
          refine ((checkAsset_endsBy typeName ids fields).bind fun a _ =>
            (ih a.2).bind_ok fun _ _ => .ok _).congr ⟨?_, ?_⟩
          · rintro (hid | ⟨⟨fields', ids'⟩, hasset, hrest⟩)
            · exact .here hid
            · obtain ⟨hfields, hentered⟩ := checkAsset_iff.mp hasset
              cases hfields
              exact .later hentered hrest
          · intro h
            cases h with
            | here hid => exact .inl hid
            | later hentered hrest =>
                exact .inr ⟨_, checkAsset_iff.mpr ⟨rfl, hentered⟩, hrest⟩

/-- **Assets are all entered, or one names a rule, or they stumble**, by induction on the types. -/
theorem checkAssets_endsBy (t : Taxonomy) (types : Record) (ids : TypesById) :
    EndsBy (checkAssets t types ids) (AssetsStumble t types ids) := by
  induction types generalizing ids with
  | nil => exact (EndsBy.ok _).congr (iff_of_false id nofun)
  | cons field rest ih =>
      obtain ⟨typeName, objects⟩ := field
      unfold checkAssets
      dsimp only
      cases hknown : t.knows typeName.key with
      | false =>
          refine (EndsBy.refused _).congr (iff_of_false id fun h => ?_)
          cases h with
          | here hk _ => rw [hknown] at hk; cases hk
          | later hk _ _ => rw [hknown] at hk; cases hk
      | true =>
          cases objects with
          | scalar s => exact (EndsBy.refused _).congr (iff_of_false id fun h => by cases h)
          | set members => exact (EndsBy.refused _).congr (iff_of_false id fun h => by cases h)
          | record fields => exact (EndsBy.refused _).congr (iff_of_false id fun h => by cases h)
          | list items =>
              refine ((checkObjects_endsBy typeName items ids).bind fun a _ =>
                (ih a.2).bind_ok fun _ _ => .ok _).congr ⟨?_, ?_⟩
              · rintro (hobjects | ⟨⟨records, ids'⟩, hobjects, hrest⟩)
                · exact .here hknown hobjects
                · obtain ⟨rfl, hentered⟩ := checkObjects_iff.mp hobjects
                  exact .later hknown hentered hrest
              · intro h
                cases h with
                | here _ hobjects => exact .inl hobjects
                | later _ hentered hrest =>
                    exact .inr ⟨_, checkObjects_iff.mpr ⟨rfl, hentered⟩, hrest⟩

/-! ## 4. Relationships -/

theorem typeOfEnd_endsBy (ids : TypesById) (relationship id : Value) :
    EndsBy (typeOfEnd ids relationship id) id.IsCompound :=
  (EndsBy.key id).bind_ok fun k _ => by
    split
    · exact .ok _
    · exact .refused _

theorem checkUniqueId_endsBy (used : Std.HashSet Key) (id : Value) :
    EndsBy (checkUniqueId used id) id.IsCompound := by
  unfold checkUniqueId
  split
  · rename_i hnull
    refine (EndsBy.ok _).congr (iff_of_false False.elim ?_)
    rw [(Value.isNull_iff id).mp hnull]
    exact False.elim
  · refine (EndsBy.key id).bind_ok fun k _ => ?_
    split
    · exact .refused _
    · exact .ok _

theorem isOfCategory_endsBy (t : Taxonomy) (typeName : Scalar) (marker : Value) :
    EndsBy (t.isOfCategory (.scalar typeName) marker) marker.IsCompound :=
  (EndsBy.key marker).bind_ok fun _ _ => .ok _

/-- The end of a relationship has a type when it is that of an asset. -/
theorem found_iff {ids : TypesById} {relationship id : Value} :
    Found ids id ↔ ∃ typeName, typeOfEnd ids relationship id = .ok typeName := by
  simp only [typeOfEnd_iff]
  exact ⟨fun ⟨k, n, h⟩ => ⟨n, k, h⟩, fun ⟨n, k, h⟩ => ⟨k, n, h⟩⟩

/-- An end of the right kind has a type of that kind. -/
theorem endsAt_iff {ids : TypesById} {relationship id : Value} {ofKind : Value → Outcome Bool} :
    EndsAt ids id ofKind ↔ ∃ typeName, typeOfEnd ids relationship id = .ok typeName ∧
      ofKind (.scalar typeName) = .ok true := by
  simp only [typeOfEnd_iff]
  exact ⟨fun ⟨k, n, hk, hn, h⟩ => ⟨n, ⟨k, hk, hn⟩, h⟩, fun ⟨n, ⟨k, hk, hn⟩, h⟩ => ⟨k, n, hk, hn, h⟩⟩

/-- **What is stumbled over**, step by step. -/
theorem trips_iff {t : Taxonomy} {ids : TypesById} {r : SeedRelationship} (x : Value) :
    (r.source.IsCompound ∨ ∃ sourceType, typeOfEnd ids x r.source = .ok sourceType ∧
      (r.target.IsCompound ∨ ∃ targetType, typeOfEnd ids x r.target = .ok targetType ∧
        (t.processMarker.IsCompound ∨ ∃ isProcess,
          t.isProcess (.scalar sourceType) = .ok isProcess ∧ isProcess = true ∧
          (t.datasetMarker.IsCompound ∨ ∃ isDataset,
            t.isDataset (.scalar targetType) = .ok isDataset ∧ isDataset = true ∧
            r.id.IsCompound)))) ↔ Trips t ids r := by
  constructor
  · rintro (h | ⟨sourceType, hs, h | ⟨targetType, ht, h | ⟨_, hp, rfl, h | ⟨_, hd, rfl, h⟩⟩⟩⟩)
    · exact .source h
    · exact .target (found_iff.mpr ⟨_, hs⟩) h
    · exact .process (found_iff.mpr ⟨_, hs⟩) (found_iff.mpr ⟨_, ht⟩) h
    · exact .dataset (endsAt_iff.mpr ⟨_, hs, hp⟩) (found_iff.mpr ⟨_, ht⟩) h
    · exact .id (endsAt_iff.mpr ⟨_, hs, hp⟩) (endsAt_iff.mpr ⟨_, ht, hd⟩) h
  · intro h
    cases h with
    | source h => exact .inl h
    | target hsource h =>
        obtain ⟨_, hs⟩ := found_iff.mp hsource
        exact .inr ⟨_, hs, .inl h⟩
    | process hsource htarget h =>
        obtain ⟨_, hs⟩ := found_iff.mp hsource
        obtain ⟨_, ht⟩ := found_iff.mp htarget
        exact .inr ⟨_, hs, .inr ⟨_, ht, .inl h⟩⟩
    | dataset hsource htarget h =>
        obtain ⟨_, hs, hp⟩ := endsAt_iff.mp hsource
        obtain ⟨_, ht⟩ := found_iff.mp htarget
        exact .inr ⟨_, hs, .inr ⟨_, ht, .inr ⟨_, hp, rfl, .inl h⟩⟩⟩
    | id hsource htarget h =>
        obtain ⟨_, hs, hp⟩ := endsAt_iff.mp hsource
        obtain ⟨_, ht, hd⟩ := endsAt_iff.mp htarget
        exact .inr ⟨_, hs, .inr ⟨_, ht, .inr ⟨_, hp, rfl, .inr ⟨_, hd, rfl, h⟩⟩⟩⟩

/-- **A relationship is accepted, names a rule, or stumbles.** -/
theorem checkRelationship_endsBy (t : Taxonomy) (ids : TypesById) (used : Std.HashSet Key)
    (fields : Record) :
    EndsBy (checkRelationship t ids used (.record fields))
      (Complete (relationshipOf fields) ∧ t.labels.has (relationshipOf fields).label = true ∧
        Trips t ids (relationshipOf fields)) := by
  unfold checkRelationship
  dsimp only
  split
  · rename_i hincomplete
    refine (EndsBy.refused _).congr (iff_of_false id fun ⟨hcomplete, _⟩ => ?_)
    have hlabel : (Record.get fields "type").truth = true := hcomplete.label
    have hsource : (Record.get fields "from").isNull = false := hcomplete.source
    have htarget : (Record.get fields "to").isNull = false := hcomplete.target
    rw [hlabel, hsource, htarget] at hincomplete
    cases hincomplete
  · rename_i hcomplete
    simp only [Bool.or_eq_true, Bool.not_eq_true', not_or, Bool.not_eq_true,
      Bool.not_eq_false] at hcomplete
    have hcomplete : Complete (relationshipOf fields) :=
      ⟨hcomplete.1.1, hcomplete.1.2, hcomplete.2⟩
    refine (EndsBy.guard ⟨_, rfl⟩ ?_).congr (and_iff_right hcomplete).symm
    refine ((typeOfEnd_endsBy ids _ _).bind fun sourceType _ =>
      (typeOfEnd_endsBy ids _ _).bind fun targetType _ =>
        (isOfCategory_endsBy t sourceType t.processMarker).bind fun isProcess _ =>
          .guard ⟨_, rfl⟩
            ((isOfCategory_endsBy t targetType t.datasetMarker).bind fun isDataset _ =>
              .guard ⟨_, rfl⟩ ((checkUniqueId_endsBy used _).bind_ok fun _ _ => .ok _))).congr ?_
    exact trips_iff (r := relationshipOf fields) (.record fields)

/-- **Relationships are all accepted, or one names a rule, or they stumble**, by induction on
them. -/
theorem checkRelationships_endsBy (t : Taxonomy) (ids : TypesById) (items : List Value)
    (used : Std.HashSet Key) :
    EndsBy (checkRelationships t ids items used) (RelationshipsStumble t ids items used) := by
  induction items generalizing used with
  | nil => exact (EndsBy.ok _).congr (iff_of_false id nofun)
  | cons relationship rest ih =>
      cases relationship with
      | scalar s => exact (EndsBy.refused _).congr (iff_of_false id nofun)
      | list items => exact (EndsBy.refused _).congr (iff_of_false id nofun)
      | set members => exact (EndsBy.refused _).congr (iff_of_false id nofun)
      | record fields =>
          refine ((checkRelationship_endsBy t ids used fields).bind fun a _ =>
            (ih a.2).bind_ok fun _ _ => .ok _).congr ⟨?_, ?_⟩
          · rintro (⟨hcomplete, hlabel, htrips⟩ | ⟨⟨r, used'⟩, hr, hrest⟩)
            · exact .here hcomplete hlabel htrips
            · obtain ⟨⟨_, hfields, rfl⟩, hcomplete, hfits, hid⟩ := checkRelationship_iff.mp hr
              cases hfields
              exact .later hcomplete hfits hid hrest
          · intro h
            cases h with
            | here hcomplete hlabel htrips => exact .inl ⟨hcomplete, hlabel, htrips⟩
            | later hcomplete hfits hid hrest =>
                exact .inr ⟨_, checkRelationship_iff.mpr ⟨⟨_, rfl, rfl⟩, hcomplete, hfits, hid⟩,
                  hrest⟩

/-! ## 5. Seed data -/

/-- **The check of seed data has a result, names a rule, or stumbles.** -/
theorem validate_endsBy (t : Taxonomy) (data : Record) :
    EndsBy (validate t (.record data)) (Stumbles t data) := by
  have hfield (name : String) : (Value.record data).field name = .ok (Record.get data name) := rfl
  unfold validate
  simp only [hfield, Outcome.ok_bind]
  split
  · rename_i types htypes
    refine ((checkAssets_endsBy t types ∅).bind (Q := fun a => ∃ items,
      (Record.get data "relationships").orElse (.list []) = .list items ∧
        RelationshipsStumble t a.2 items ∅) fun a _ => ?_).congr ⟨?_, ?_⟩
    · split
      · rename_i items hitems
        refine ((checkRelationships_endsBy t a.2 items ∅).bind_ok fun _ _ => .ok _).congr ?_
        simp [hitems]
      · rename_i hother
        refine (EndsBy.refused _).congr (iff_of_false id ?_)
        exact fun ⟨items, hitems, _⟩ => hother items hitems
    · rintro (hassets | ⟨⟨assets, ids⟩, hassets, items, hitems, hrelationships⟩)
      · exact .assets htypes hassets
      · obtain ⟨rfl, hknown, hentered⟩ := checkAssets_iff.mp hassets
        exact .relationships htypes hknown hentered hitems hrelationships
    · intro h
      cases h with
      | assets htypes' hassets =>
          cases htypes.symm.trans htypes'
          exact .inl hassets
      | relationships htypes' hknown hentered hitems hrelationships =>
          cases htypes.symm.trans htypes'
          exact .inr ⟨_, checkAssets_iff.mpr ⟨rfl, hknown, hentered⟩, _, hitems, hrelationships⟩
  · rename_i hother
    refine (EndsBy.refused _).congr (iff_of_false id fun h => ?_)
    cases h with
    | assets htypes _ => exact hother _ htypes
    | relationships htypes _ _ _ _ => exact hother _ htypes

/-- Where what identifies something is a scalar, nothing is stumbled over. -/
theorem not_stumbles {t : Taxonomy} (ht : t.Scalars) {data : Record} (hids : ScalarIds data) :
    ¬ Stumbles t data := by
  intro h
  obtain ⟨cause, hcause⟩ :=
    validate_refuses ht hids _ ((validate_endsBy t data).stumbles.mpr h)
  cases hcause

/-- **What becomes of bad seed data.** The check has a result, names a rule, or fails without naming
one, and this last exactly where it stumbles over a list or an object that should be an id. The
command that loads seed data reports the rules that are named, and fails where the check stumbles.
Where what identifies something is a scalar, no check stumbles. -/
theorem validate_reports (t : Taxonomy) (data : Record) :
    ((∃ seed, validate t (.record data) = .ok seed) ∨
      (∃ cause, validate t (.record data) = .error (.seed cause)) ∨
      validate t (.record data) = .error .wrongKind) ∧
    (validate t (.record data) = .error .wrongKind ↔ Stumbles t data) ∧
    (∀ told clearFirst constraints conn,
      let load := (Loader.loadAll t (.record data) clearFirst constraints).run.run conn
      (∀ cause, validate t (.record data) = .error (.seed cause) →
        Setup.runOf told load.2 load.1 =
          .ok ⟨1, told ++ "\n❌ Invalid seed data: " ++ cause.message ++ "\n", "", some conn⟩) ∧
      (Stumbles t data → Setup.runOf told load.2 load.1 = .error .wrongKind)) ∧
    (t.Scalars → ScalarIds data → ¬ Stumbles t data) := by
  have hends := validate_endsBy t data
  refine ⟨?_, hends.stumbles,
    fun told clearFirst constraints conn => ⟨fun cause h => ?_, fun h => ?_⟩,
    fun ht hids => not_stumbles ht hids⟩
  · cases h : validate t (.record data) with
    | ok seed => exact .inl ⟨seed, rfl⟩
    | error e =>
        rcases hends.fault e h with ⟨cause, rfl⟩ | rfl
        · exact .inr (.inl ⟨cause, rfl⟩)
        · exact .inr (.inr rfl)
  · rw [Loader.loadAll_invalid h]
    rfl
  · rw [Loader.loadAll_invalid (hends.stumbles.mpr h)]
    rfl

end Seed

/-! ## 6. A list for an id -/

namespace Loop

/-- Seed data with one table, whose id is a list. -/
def compound : Record := [("assets", .record [("Table", .list [.record [("id", .list [])]])])]

end Loop

/-- The seed data of the loop is not stumbled over, a list for an id is. -/
theorem Seed.validate_reports_loop : ¬ Seed.Stumbles Loop.taxonomy Loop.written ∧
    Seed.validate Loop.taxonomy (.record Loop.compound) = .error .wrongKind :=
  ⟨(validate_reports Loop.taxonomy Loop.written).2.2.2 Loop.scalars Loop.scalarIds,
    (validate_reports Loop.taxonomy Loop.compound).2.1.mpr
      (.assets rfl (.here rfl (.here trivial)))⟩

/-- **A list for an id is not reported as bad seed data**: the check fails without naming a rule. -/
theorem Seed.compound_id_escapes :
    Seed.validate Loop.taxonomy (.record Loop.compound) = .error .wrongKind ∧
    ¬ ∀ (t : Taxonomy) (data : Record), (∃ seed, Seed.validate t (.record data) = .ok seed) ∨
      ∃ cause, Seed.validate t (.record data) = .error (.seed cause) := by
  have h : Seed.validate Loop.taxonomy (.record Loop.compound) = .error .wrongKind := by cbv
  refine ⟨h, fun hall => ?_⟩
  rcases hall Loop.taxonomy Loop.compound with ⟨seed, hseed⟩ | ⟨cause, hcause⟩
  · rw [h] at hseed
    cases hseed
  · rw [h] at hcause
    cases hcause

end DataLineage
