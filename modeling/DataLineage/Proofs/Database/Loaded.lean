import DataLineage.Proofs.Database.Grouped
import Mathlib.Data.List.Perm.Basic

/-!
# What a database contains after seed data was loaded

A database has its own notion of equal values, and it may keep what rows are merged into it in any
order. What statements leave in it is said here for rows that are new, as those of a load are once
the database was cleared: clearing removes everything, and merging makes a node or a relationship of
each row.

* `Equality` -- which values a database takes to be equal;
* `Content.Leaves`, `Content.Leads` -- what a statement and what several ones may leave;
* `Seed.Storable` -- seed data of which a database and a graph in memory can keep everything;
* `Content.HoldsSeed`, `Content.Leads.holds` -- **the database then holds the seed data**: its nodes
  are the rows, and its relationships those of the seed data, in any order;
* `Loader.loadAll_holds` -- and loading leaves just that.
-/

namespace DataLineage

/-! ## 1. Equal values -/

/-- The scalar is a text, a truth value or a number. -/
def Scalar.Storable : Scalar → Prop
  | .null => False
  | .moment _ => False
  | _ => True

/-- Is the value a truth value? -/
def Value.isTruthValue : Value → Bool
  | .bool _ => true
  | _ => false

/-- **Which values a database takes to be equal**, as far as it is laid down: texts with the same
characters, the same truth values, and numbers of the same value. A truth value equals no number, and
what is not a number equals nothing. -/
structure Equality where
  equal : Value → Value → Bool
  scalar : ∀ (a : Scalar) (v : Value), a.Storable → (equal (.scalar a) v = true ↔
    v.key = .ok a.key ∧ v.isTruthValue = (Value.scalar a).isTruthValue ∧ a ≠ .float .nan)

namespace Equality

variable {E : Equality} {a : Scalar}

/-- **Equal values have one key.** -/
theorem key_eq (ha : a.Storable) {v : Value} (h : E.equal (.scalar a) v = true) :
    ∃ s, v = .scalar s ∧ s.key = a.key :=
  (Value.key_eq_ok_iff _ _).mp ((E.scalar a v ha).mp h).1

theorem refl (ha : a.Storable) (hn : a ≠ .float .nan) : E.equal (.scalar a) (.scalar a) = true :=
  (E.scalar a _ ha).mpr ⟨rfl, rfl, hn⟩

/-- A text equals itself alone. -/
theorem text (s : String) (v : Value) : E.equal (.text s) v = true ↔ v = .text s := by
  rw [E.scalar _ _ (show (Scalar.text s).Storable from trivial), Value.key_eq_ok_iff]
  constructor
  · rintro ⟨⟨a, rfl, hk⟩, _⟩
    rw [(Scalar.key_eq_text_iff a s).mp hk]
  · rintro rfl
    exact ⟨⟨_, rfl, rfl⟩, rfl, nofun⟩

/-- **Equality by value**, but that no truth value equals a number. -/
def plain : Equality where
  equal v w := v.isTruthValue == w.isTruthValue && v.equal w
  scalar a v _ := by
    rw [Bool.and_eq_true, beq_iff_eq, Value.equal_scalar, Bool.and_eq_true, Value.hasKey_iff,
      Bool.not_eq_true', beq_eq_false_iff_ne, Ne, Scalar.key_eq_nan_iff]
    exact ⟨fun ⟨ht, hn, hk⟩ => ⟨hk, ht.symm, hn⟩, fun ⟨hk, ht, hn⟩ => ⟨ht.symm, hn, hk⟩⟩

end Equality

/-! ## 2. What statements leave -/

/-- The node is made of the row: it has the label alone, and the properties of the row that are not
null. -/
structure Node.Of (label : String) (row : Record) (n : Node) : Prop where
  labels : n.labels = [label]
  properties : ∀ k, Record.valueOf? n.properties k = Record.valueOf? (existing row) k

namespace Content

variable {E : Equality} {c c' c₁ : Content}

/-- The numbers of the nodes with an id. -/
def matching (E : Equality) (c : Content) (id : Value) : List Int :=
  ((List.range c.nodes.size).map Int.ofNat).filter fun n => E.equal (c.idOf n) id

/-- **The relationship is made of the row**, between nodes with the ids that the row names. -/
structure Writes (E : Equality) (c : Content) (label : String) (row : Record)
    (r : Relationship) : Prop where
  label : r.label = .text label
  start : r.start ∈ c.matching E (Record.get row "from_id")
  finish : r.finish ∈ c.matching E (Record.get row "to_id")
  properties : ∀ k, Record.valueOf? r.properties k =
    Record.valueOf? (existing [("relationship_id", Record.get row "relationship_id")]) k

/-- **What a statement of a load may leave of a content**, where rows to be merged are new: clearing
leaves nothing, and merging adds a node or a relationship for each row, in any order. -/
inductive Leaves (E : Equality) : Content → Statement → Content → Prop where
  | clear (c : Content) : Leaves E c .clear ⟨#[], #[]⟩
  | uniqueId (c : Content) (label : String) : Leaves E c (.uniqueId label) c
  | nodes (c : Content) {label : String} {rows rows' : List Record} {new : List Node}
      (order : rows'.Perm rows) (made : List.Forall₂ (Node.Of label) rows' new) :
      Leaves E c (.mergeNodes label (.list (rows.map .record)))
        { c with nodes := c.nodes ++ new.toArray }
  | relationships (c : Content) {label : String} {rows rows' : List Record}
      {new : List Relationship} (order : rows'.Perm rows)
      (made : List.Forall₂ (c.Writes E label) rows' new) :
      Leaves E c (.mergeRelationships ("\x60" ++ label ++ "\x60") rows)
        { c with relationships := c.relationships ++ new.toArray }

/-- **What statements may leave of a content**, one after the other. -/
inductive Leads (E : Equality) : Content → List Statement → Content → Prop where
  | nil (c : Content) : Leads E c [] c
  | cons {c c₁ c' : Content} {s : Statement} {rest : List Statement} (one : Leaves E c s c₁)
      (more : Leads E c₁ rest c') : Leads E c (s :: rest) c'

theorem Leads.of_append {ss ss' : List Statement} (h : Leads E c (ss ++ ss') c') :
    ∃ c₁, Leads E c ss c₁ ∧ Leads E c₁ ss' c' := by
  induction ss generalizing c with
  | nil => exact ⟨c, .nil c, h⟩
  | cons s rest ih =>
      cases h with
      | cons one more =>
          obtain ⟨c₁, hrest, hmore⟩ := ih more
          exact ⟨c₁, .cons one hrest, hmore⟩

/-- Which nodes have an id is a matter of the nodes alone. -/
theorem matching_congr (h : c.nodes = c'.nodes) : c.matching E = c'.matching E := by
  unfold matching idOf node
  rw [h]

theorem Writes.congr {label : String} {row : Record} {r : Relationship}
    (h : c.Writes E label row r) (hnodes : c.nodes = c'.nodes) : c'.Writes E label row r :=
  ⟨h.label, matching_congr hnodes ▸ h.start, matching_congr hnodes ▸ h.finish, h.properties⟩

end Content

/-! ## 3. The seed data in a database -/

/-- The value is a text, a truth value, a number, or a list of such values. -/
def Value.Storable : Value → Prop
  | .scalar s => s.Storable
  | .list items => ∀ item ∈ items, ∃ s : Scalar, item = .scalar s ∧ s.Storable
  | _ => False

/-- **A database can keep all of the seed data**: its names may stand in statements, its properties
have values that a database knows and no names that a graph in memory reserves, and its
relationships have ids. -/
structure Seed.Keepable (seed : Seed) : Prop extends seed.Nameable where
  properties : ∀ row ∈ seed.rows, ∀ field ∈ row.2,
    (∀ name ∈ MemoryGraph.reservedOfVertex, field.1 ≠ .text name) ∧ field.2.Storable
  ids : ∀ r ∈ seed.relationships, ∃ s, r.id = .text s ∧ s ≠ ""

/-- **A graph in memory can keep it as well**, and a database finds it again: the names of properties
are texts, and every id is equal to itself. -/
structure Seed.Storable (seed : Seed) : Prop extends seed.Keepable where
  names : ∀ row ∈ seed.rows, ∀ field ∈ row.2, ∃ name, field.1 = .text name
  numbers : ∀ row ∈ seed.rows, Record.get row.2 "id" ≠ .float .nan

/-- The relationship of a database is made of the one of the seed data. -/
def Content.WritesSeed (E : Equality) (c : Content) (r : SeedRelationship)
    (rel : Relationship) : Prop :=
  ∃ label, r.label = .text label ∧ c.Writes E label (Loader.rowOf r) rel

/-- The node is made of the row of a type. -/
def Node.OfRow (row : Scalar × Record) (n : Node) : Prop := n.Of (Value.scalar row.1).display row.2

/-- **The database holds the seed data**: its nodes are the rows, and its relationships those of the
seed data, in any order. -/
structure Content.HoldsSeed (E : Equality) (c : Content) (seed : Seed) : Prop where
  nodes : ∃ rows, rows.Perm seed.rows ∧ List.Forall₂ Node.OfRow rows c.nodes.toList
  relationships : ∃ rs, rs.Perm seed.relationships ∧
    List.Forall₂ (c.WritesSeed E) rs c.relationships.toList

/-- What two lists have in common with a third one, member by member. -/
theorem forall₂_through {α β γ : Type} {R : α → β → Prop} {S : α → γ → Prop} {P : β → γ → Prop}
    {as : List α} {bs : List β} {cs : List γ} (hR : List.Forall₂ R as bs)
    (hS : List.Forall₂ S as cs) (hP : ∀ a b c, R a b → S a c → P b c) : List.Forall₂ P bs cs := by
  induction hR generalizing cs with
  | nil =>
      cases hS
      exact .nil
  | cons hab _ ih =>
      cases hS with
      | cons hac hS => exact .cons (hP _ _ _ hab hac) (ih hS)

namespace Content.Leads

variable {E : Equality} {c c' : Content}

/-- Constraints leave a content as it is. -/
theorem constraints {assets : List (Scalar × List Record)}
    (h : Leads E c (assets.flatMap fun a => [.uniqueId (Value.scalar a.1).display]) c') :
    c' = c := by
  induction assets generalizing c with
  | nil =>
      cases h
      rfl
  | cons a rest ih =>
      cases h with
      | cons one more =>
          cases one
          exact ih more

/-- **Merging nodes makes one of each row.** -/
theorem merged_nodes {assets : List (Scalar × List Record)}
    (h : Leads E c (assets.flatMap fun a => if a.2.isEmpty then []
      else [.mergeNodes (Value.scalar a.1).display (.list (a.2.map .record))]) c') :
    c'.relationships = c.relationships ∧ ∃ new rows, c'.nodes = c.nodes ++ new.toArray ∧
      rows.Perm (Seed.rowsOf assets) ∧ List.Forall₂ Node.OfRow rows new := by
  induction assets generalizing c with
  | nil =>
      cases h
      exact ⟨rfl, [], [], by simp, .refl _, .nil⟩
  | cons a rest ih =>
      obtain ⟨label, records⟩ := a
      have hrows : Seed.rowsOf ((label, records) :: rest) =
          records.map (label, ·) ++ Seed.rowsOf rest := rfl
      rw [List.flatMap_cons] at h
      obtain ⟨c₁, hone, hmore⟩ := h.of_append
      obtain ⟨hrel, new, rows, hnodes, hperm, hmade⟩ := ih hmore
      cases records with
      | nil =>
          cases hone
          exact ⟨hrel, new, rows, hnodes, hperm, hmade⟩
      | cons r records =>
          cases hone with
          | cons one more =>
              cases more
              generalize hlist : (Value.list ((r :: records).map .record)) = list at one
              cases one with
              | @nodes label' records' rows' first order made =>
                  have hsame : records' = r :: records :=
                    List.map_injective_iff.mpr (fun a b hab => Value.record.inj hab)
                      (Value.list.inj hlist).symm
                  subst hsame
                  refine ⟨hrel, first ++ new, rows'.map (label, ·) ++ rows, ?_, ?_, ?_⟩
                  · rw [hnodes]
                    simp
                  · rw [hrows]
                    exact (order.map _).append hperm
                  · have hfirst : List.Forall₂ Node.OfRow (rows'.map (label, ·)) first :=
                      List.forall₂_map_left_iff.mpr made
                    exact List.rel_append hfirst hmade

/-- **Merging relationships makes one of each row**, type after type. -/
theorem merged_relationships {rs : List SeedRelationship}
    (hrs : ∀ r ∈ rs, ∃ s, r.label = .text s) {types : List String}
    (h : Leads E c (types.map fun type => .mergeRelationships ("\x60" ++ type ++ "\x60")
      (Loader.rowsOfType rs type)) c') :
    c'.nodes = c.nodes ∧ ∃ new rs', c'.relationships = c.relationships ++ new.toArray ∧
      rs'.Perm (types.flatMap fun type => rs.filter fun r => r.label.same (.text type)) ∧
      List.Forall₂ (c.WritesSeed E) rs' new := by
  induction types generalizing c with
  | nil =>
      cases h
      exact ⟨rfl, [], [], by simp, .refl _, .nil⟩
  | cons type rest ih =>
      rw [List.map_cons] at h
      cases h with
      | cons one more =>
          generalize hquoted : "\x60" ++ type ++ "\x60" = quoted at one
          generalize hlist : Loader.rowsOfType rs type = rows at one
          cases one with
          | @relationships label _ rows' first order made =>
              have hlabel : type = label :=
                (String.append_right_inj _).mp ((String.append_left_inj _).mp hquoted)
              subst hlabel hlist
              obtain ⟨hnodes, new, rs', hnew, hperm, hmade⟩ := ih more
              -- the rows in their new order are rows of relationships in some order
              have hof : List.Forall₂ (fun row r => row = Loader.rowOf r)
                  (Loader.rowsOfType rs type) (rs.filter fun r => r.label.same (.text type)) :=
                List.forall₂_map_left_iff.mpr (List.forall₂_same.mpr fun _ _ => rfl)
              obtain ⟨rs₁, hrows', hperm₁⟩ := List.perm_comp_forall₂ order hof
              have hlabels : ∀ r ∈ rs₁, r.label = .text type := by
                intro r hr
                obtain ⟨hmem, hsame⟩ := List.mem_filter.mp (hperm₁.mem_iff.mp hr)
                obtain ⟨s, hs⟩ := hrs r hmem
                rw [hs] at hsame ⊢
                rw [Key.text.inj ((Value.same_scalar_iff _ _).mp hsame)]
              have hfirst : List.Forall₂ (c.WritesSeed E) rs₁ first := by
                have hwrites : List.Forall₂ (fun r rel => c.Writes E type (Loader.rowOf r) rel)
                    rs₁ first :=
                  forall₂_through hrows' made fun row r rel hrow hw => hrow ▸ hw
                refine List.forall₂_iff_get.mpr ⟨hwrites.length_eq, fun i hi hi' => ?_⟩
                exact ⟨type, hlabels _ (List.get_mem ..), hwrites.get hi hi'⟩
              refine ⟨hnodes, first ++ new, rs₁ ++ rs', ?_, ?_, ?_⟩
              · rw [hnew]
                simp
              · rw [List.flatMap_cons]
                exact hperm₁.append hperm
              · refine List.rel_append hfirst (hmade.imp fun r rel hw => ?_)
                obtain ⟨label, hlabel, hw⟩ := hw
                exact ⟨label, hlabel, hw.congr rfl⟩

end Content.Leads

namespace Loader

/-- **Relationships are regrouped by their types**, and none is lost or doubled. -/
theorem byType_perm {rs : List SeedRelationship} (hrs : ∀ r ∈ rs, ∃ s, r.label = .text s) :
    ((typesOf rs).flatMap fun type => rs.filter fun r => r.label.same (.text type)).Perm rs := by
  have group (types : List String) (hnodup : types.Nodup) (rs : List SeedRelationship)
      (hrs : ∀ r ∈ rs, ∃ s ∈ types, r.label = .text s) :
      (types.flatMap fun type => rs.filter fun r => r.label.same (.text type)).Perm rs := by
    induction types generalizing rs with
    | nil =>
        cases rs with
        | nil => exact .refl _
        | cons r rest =>
            obtain ⟨_, hs, _⟩ := hrs r List.mem_cons_self
            exact absurd hs List.not_mem_nil
    | cons type rest ih =>
        obtain ⟨hnew, hrest⟩ := List.nodup_cons.mp hnodup
        have hothers : ∀ u ∈ rest, (rs.filter fun r => r.label.same (.text u)) =
            (rs.filter fun r => !r.label.same (.text type)).filter
              fun r => r.label.same (.text u) := by
          intro u hu
          rw [List.filter_filter]
          refine List.filter_congr fun r hr => ?_
          obtain ⟨s, _, hs⟩ := hrs r hr
          rw [hs, Bool.eq_iff_iff, Bool.and_eq_true, Bool.not_eq_true', ← Bool.not_eq_true,
            Value.same_scalar_iff, Value.same_scalar_iff]
          refine (and_iff_left_of_imp fun hsu hst => hnew ?_).symm
          rw [← Key.text.inj hst, Key.text.inj hsu]
          exact hu
        have hmore := ih hrest (rs.filter fun r => !r.label.same (.text type)) fun r hr => by
          obtain ⟨hr, hother⟩ := List.mem_filter.mp hr
          obtain ⟨s, hs, hlabel⟩ := hrs r hr
          refine ⟨s, (List.mem_cons.mp hs).resolve_left fun heq => ?_, hlabel⟩
          rw [hlabel, heq, Bool.not_eq_true', ← Bool.not_eq_true, Value.same_scalar_iff] at hother
          exact hother rfl
        rw [List.flatMap_cons, List.flatMap_congr hothers]
        exact (hmore.append_left _).trans (List.filter_append_perm _ _)
  refine group (typesOf rs) (typesOf_nodup rs) rs fun r hr => ?_
  obtain ⟨s, hs⟩ := hrs r hr
  refine ⟨s, List.mem_eraseDups.mpr (List.mem_map.mpr ⟨r, hr, ?_⟩), hs⟩
  rw [hs, Value.display_text]

/-- Relationships that have ids are sent under these. -/
theorem identified_eq {fresh : Nat → String} {n : Nat} {rs : List SeedRelationship}
    (h : ∀ r ∈ rs, r.id.truth = true) : Seed.identified fresh n rs = rs := by
  induction rs with
  | nil => rfl
  | cons r rest ih =>
      unfold Seed.identified
      rw [if_pos (h r List.mem_cons_self), ih fun r hr => h r (List.mem_cons_of_mem _ hr)]

end Loader

/-- **What the queries of a load leave holds the seed data**, whatever was there before. -/
theorem Content.Leads.holds {E : Equality} {seed : Seed} {fresh : Nat → String} {n : Nat}
    {constraints : Bool} {c c' : Content} (hrs : ∀ r ∈ seed.relationships, ∃ s, r.label = .text s)
    (hids : ∀ r ∈ seed.relationships, r.id.truth = true)
    (h : Leads E c (Loader.queries seed fresh n true constraints) c') : c'.HoldsSeed E seed := by
  unfold Loader.queries Loader.relationshipQueries at h
  rw [Loader.identified_eq hids] at h
  obtain ⟨c₁, hclear, h⟩ := h.of_append
  obtain ⟨c₂, hconstraints, h⟩ := h.of_append
  obtain ⟨c₃, hnodes, hrelationships⟩ := h.of_append
  obtain rfl : c₁ = ⟨#[], #[]⟩ := by
    cases hclear with
    | cons one more =>
        cases one
        cases more
        rfl
  obtain rfl : c₂ = ⟨#[], #[]⟩ := by
    cases constraints with
    | true => exact hconstraints.constraints
    | false =>
        cases hconstraints
        rfl
  obtain ⟨hrel, nodes, rows, hnew, hperm, hmade⟩ := @merged_nodes _ _ _ seed.assets hnodes
  obtain ⟨hsame, new, rs, hadded, hrsperm, hwrites⟩ := merged_relationships hrs hrelationships
  refine ⟨⟨rows, hperm, ?_⟩, ⟨rs, hrsperm.trans (Loader.byType_perm hrs), ?_⟩⟩
  · rw [hsame, hnew]
    simpa using hmade
  · rw [hadded, hrel]
    have hall : List.Forall₂ (c'.WritesSeed E) rs new := hwrites.imp fun r rel hw => by
      obtain ⟨label, hlabel, hw⟩ := hw
      exact ⟨label, hlabel, hw.congr hsame.symm⟩
    simpa using hall

/-- **Loading goes through, and leaves the seed data** in the database, if this does not fail. -/
theorem Loader.loadAll_holds {t : Taxonomy} (ht : t.Scalars) {data : Value} {seed : Seed}
    (hseed : Seed.validate t data = .ok seed) (h : seed.Keepable) (constraints : Bool)
    {conn : Connection} (hconn : conn.Undisturbed) :
    let sent := queries seed conn.freshIds conn.issuedIds true constraints
    ∃ conn', (loadAll t data true constraints).run.run conn = (.ok (), conn') ∧
      conn'.sent.toList = conn.sent.toList ++ sent.map (⟨·, conn.database⟩) ∧
      ∀ (E : Equality) (before after : Content), Content.Leads E before sent after →
        after.HoldsSeed E seed := by
  obtain ⟨ids, _, hfits⟩ := Seed.validate_ok hseed
  have hrs : ∀ r ∈ seed.relationships, ∃ s, r.label = .text s := by
    intro r hr
    obtain ⟨q, hq⟩ := h.labels r hr
    exact label_text ht.inputs ht.outputs hq (hfits r hr).label
  have hids : ∀ r ∈ seed.relationships, r.id.truth = true := by
    intro r hr
    obtain ⟨s, hs, hne⟩ := h.ids r hr
    rw [hs]
    simpa [Value.truth, Scalar.truth] using hne
  obtain ⟨result, conn', sent, hload, hsent, _, hall⟩ :=
    load_sends h.toNameable hrs true constraints conn
  obtain ⟨rfl, rfl⟩ := hall hconn
  refine ⟨conn', ?_, hsent, fun E before after hleads => hleads.holds hrs hids⟩
  unfold loadAll
  rw [hseed]
  exact hload

end DataLineage
