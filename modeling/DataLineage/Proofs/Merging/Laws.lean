import DataLineage.Proofs.Listing.Canonical
import DataLineage.Proofs.Recording.Consistent

/-!
# Laws of merging

To merge a graph into another is to enter its headers and to record its relations, one after the
other. For graphs however they are made:

* `EntityMap.putAll_assoc` -- of headers for one entity the last one stays, in whatever order the
  maps are put together;
* `LineageGraph.Entry`, `LineageGraph.merge_eq_enter` -- what a graph has, and that merging enters
  it;
* `LineageGraph.Settled`, `LineageGraph.Made.settled` -- however a graph is made, no entity has two
  headers, and the ids in use are those that relations carry;
* `LineageGraph.Settled.enter_own` -- **what a graph has is entered again without a trace**;
* `LineageGraph.Settled.merge_self`, `LineageGraph.Settled.merge_assoc` -- so merging a graph into
  itself changes nothing, and it does not matter which two of three graphs are merged first;
* `LineageGraph.merge_sameRelations`, `LineageGraph.SameRelations.containsRelationship` -- nor does
  it, for relations and their ids, which of two graphs is merged into the other;
* `LineageGraph.misses_merge` -- **what a union misses**: what one graph misses and neither has.
-/

namespace DataLineage

/-! ## 1. Headers entered one after the other -/

namespace EntityMap

variable {es fs : EntityMap}

/-- Enters the headers of the second map into the first. -/
def putAll (es fs : EntityMap) : EntityMap := fs.foldl (fun es e => put es e.1 e.2) es

theorem put_cons (e : Scalar × EntityHeader) (es : EntityMap) (id : Scalar) (hd : EntityHeader) :
    put (e :: es) id hd = if e.1.key = id.key then (e.1, hd) :: es else e :: put es id hd := rfl

/-- A header that is there is entered again without a trace. -/
theorem put_own (h : es.Once) {e : Scalar × EntityHeader} (he : e ∈ es) : put es e.1 e.2 = es := by
  induction es with
  | nil => cases he
  | cons a rest ih =>
      obtain ⟨hhead, hrest⟩ := List.pairwise_cons.mp h
      rw [put_cons]
      rcases List.mem_cons.mp he with rfl | he
      · rw [if_pos rfl]
      · rw [if_neg (hhead e he), ih hrest he]

/-- **Of two headers for one entity the later one stays.** -/
theorem put_put (es : EntityMap) {id id' : Scalar} (h : id.key = id'.key)
    (hd hd' : EntityHeader) : put (put es id hd) id' hd' = put es id hd' := by
  induction es with
  | nil => simp [put, h]
  | cons e rest ih =>
      by_cases he : e.1.key = id.key
      · simp [put, he, h]
      · have he' : ¬e.1.key = id'.key := h ▸ he
        simp [put, he, he', ih]

/-- Headers of different entities are entered in any order, where one of the entities is there. -/
theorem put_comm {id id' : Scalar} (hne : id.key ≠ id'.key) (hd hd' : EntityHeader)
    (hid : has es id = true) :
    put (put es id' hd') id hd = put (put es id hd) id' hd' := by
  induction es with
  | nil => cases hid
  | cons e rest ih =>
      by_cases he : e.1.key = id.key
      · have he' : ¬e.1.key = id'.key := he ▸ hne
        simp [put, he, hne]
      · have hrest : has rest id = true := by
          simpa [has, Scalar.same_eq, he] using hid
        by_cases he' : e.1.key = id'.key
        · simp [put, he', Ne.symm hne]
        · simp [put, he, he', ih hrest]

/-- The header of an entity that is there can be entered before those of others. -/
theorem putAll_put_comm {id : Scalar} (hid : has es id = true) (hd : EntityHeader)
    (hfs : ∀ f ∈ fs, id.key ≠ f.1.key) :
    put (putAll es fs) id hd = putAll (put es id hd) fs := by
  induction fs generalizing es with
  | nil => rfl
  | cons f rest ih =>
      have hhas : has (put es f.1 f.2) id = true := by rw [has_put, hid, Bool.true_or]
      show put (putAll (put es f.1 f.2) rest) id hd = putAll (put (put es id hd) f.1 f.2) rest
      rw [ih hhas fun f' hf' => hfs f' (List.mem_cons_of_mem _ hf'),
        put_comm (hfs f List.mem_cons_self) _ _ hid]

/-- **A header entered into the second map is entered last into the first.** -/
theorem putAll_put (es : EntityMap) (hfs : fs.Once) (id : Scalar) (hd : EntityHeader) :
    putAll es (put fs id hd) = put (putAll es fs) id hd := by
  induction fs generalizing es with
  | nil => rfl
  | cons f rest ih =>
      obtain ⟨hhead, hrest⟩ := List.pairwise_cons.mp hfs
      rw [put_cons]
      by_cases hf : f.1.key = id.key
      · -- the entity keeps its place, so that its header can be replaced before the others come
        rw [if_pos hf]
        show putAll (put es f.1 hd) rest = put (putAll (put es f.1 f.2) rest) id hd
        have hhas : has (put es f.1 f.2) id = true := by
          rw [has_put, hf, beq_self_eq_true, Bool.or_true]
        rw [putAll_put_comm hhas hd (hf ▸ hhead), put_put es hf]
      · rw [if_neg hf]
        exact ih (put es f.1 f.2) hrest

/-- **It does not matter which two of three maps are put together first.** -/
theorem putAll_assoc (es : EntityMap) (hfs : fs.Once) (ks : EntityMap) :
    putAll es (putAll fs ks) = putAll (putAll es fs) ks := by
  induction ks generalizing fs with
  | nil => rfl
  | cons k rest ih =>
      show putAll es (putAll (put fs k.1 k.2) rest) = putAll (put (putAll es fs) k.1 k.2) rest
      rw [ih (hfs.put k.1 k.2), putAll_put es hfs]

end EntityMap

/-! ## 2. What is entered into a graph -/

namespace LineageGraph

variable {g h : LineageGraph} {x : Relation}

/-- What is entered at a time: the header of an entity, or a relation. -/
inductive Entry where
  | header (id : Scalar) (hd : EntityHeader)
  | relation (x : Relation)

/-- The graph after something is entered. -/
def enter (g : LineageGraph) : Entry → LineageGraph
  | .header id hd => g.putEntity id hd
  | .relation x => g.addRelation x

/-- What a graph has: its headers, then its relations. -/
def entries (g : LineageGraph) : List Entry :=
  g.entities.map (fun e => .header e.1 e.2) ++ g.relations.map .relation

/-- **Merging enters what the second graph has**, one after the other. -/
theorem merge_eq_enter (g h : LineageGraph) : g.merge h = h.entries.foldl enter g := by
  unfold entries
  rw [List.foldl_append, List.foldl_map, List.foldl_map]
  rfl

/-- Relations are recorded whatever the headers are. -/
theorem addRelations_withEntities (g : LineageGraph) (es : EntityMap) (rs : List Relation) :
    addRelations { g with entities := es } rs = { g.addRelations rs with entities := es } := by
  unfold addRelations
  induction rs generalizing g with
  | nil => rfl
  | cons x rest ih => exact ih (g.addRelation x)

/-- **Merging adds relations to relations and headers to headers.** -/
theorem merge_eq (g h : LineageGraph) :
    g.merge h = { g.addRelations h.relations with entities := g.entities.putAll h.entities } := by
  have entities (es : EntityMap) (g : LineageGraph) :
      es.foldl (fun g e => g.putEntity e.1 e.2) g =
        { g with entities := g.entities.putAll es } := by
    induction es generalizing g with
    | nil => rfl
    | cons e rest ih => exact ih (g.putEntity e.1 e.2)
  unfold merge
  rw [entities, addRelations_withEntities]

/-! ## 3. Settled graphs -/

/-- **The graph is settled**: no entity has two headers, and the ids in use are those that relations
carry. -/
structure Settled (g : LineageGraph) : Prop where
  once : g.entities.Once
  indexed : g.Indexed

theorem Settled.putEntity (hg : g.Settled) (id : Scalar) (hd : EntityHeader) :
    (g.putEntity id hd).Settled := ⟨hg.once.put id hd, hg.indexed⟩

theorem Settled.addRelation (hg : g.Settled) (x : Relation) : (g.addRelation x).Settled :=
  ⟨hg.once, hg.indexed.addRelation x⟩

theorem Settled.addRelations (hg : g.Settled) (rs : List Relation) :
    (g.addRelations rs).Settled :=
  addRelations_keeps (fun _ x _ hg => hg.addRelation x) hg

theorem Settled.merge (hg : g.Settled) (h : LineageGraph) : (g.merge h).Settled :=
  merge_keeps (fun _ e _ hg => hg.putEntity e.1 e.2) (fun _ x _ hg => hg.addRelation x) hg

/-- **However a graph is made, it is settled.** -/
theorem Made.settled (hg : g.Made) : g.Settled := by
  induction hg with
  | start guid direction depth rs =>
      have hempty : (empty guid direction depth).Settled := ⟨List.Pairwise.nil, Indexed.empty _ _ _⟩
      exact hempty.addRelations rs
  | entity id hd _ ih => exact ih.putEntity id hd
  | relation x _ ih => exact ih.addRelation x
  | merge _ _ ih _ => exact ih.merge _

/-! ## 4. What is there already -/

/-- An id that is in use is inserted without a trace. -/
theorem insert_of_contains {ids : Std.HashSet Key} {k : Key} (h : ids.contains k = true) :
    ids.insert k = ids := by
  rcases ids with ⟨⟨⟨⟨size, buckets⟩, wf⟩⟩⟩
  -- the bucket of the id has it, so that the table is handed back as it is
  have hbucket : Std.DHashMap.Internal.AssocList.contains k _ = true := h
  simp only [Std.HashSet.insert, Std.HashMap.insertIfNew, Std.DHashMap.insertIfNew,
    Std.DHashMap.Internal.Raw₀.insertIfNew, if_pos hbucket]

/-- **A relation that is there is recorded again without a trace.** -/
theorem Settled.addRelation_own (hg : g.Settled) (hx : g.hasRelation x = true) :
    g.addRelation x = g := by
  have hids : noteId g.relationshipIds x = g.relationshipIds := by
    unfold noteId
    split
    · rfl
    · rename_i hn
      exact insert_of_contains ((hg.indexed _).mpr (carries_of_hasRelation hx hn))
  unfold LineageGraph.addRelation
  rw [if_pos hx, hids]

/-- **What a graph has is entered again without a trace.** -/
theorem Settled.enter_own (hg : g.Settled) {e : Entry} (he : e ∈ g.entries) : g.enter e = g := by
  rcases List.mem_append.mp he with he | he
  · obtain ⟨a, ha, rfl⟩ := List.mem_map.mp he
    show { g with entities := g.entities.put a.1 a.2 } = g
    rw [EntityMap.put_own hg.once ha]
  · obtain ⟨x, hx, rfl⟩ := List.mem_map.mp he
    exact hg.addRelation_own (hasRelation_of_mem hx)

/-- So is any part of what it has. -/
theorem Settled.enterAll_own (hg : g.Settled) {es : List Entry} (hes : ∀ e ∈ es, e ∈ g.entries) :
    es.foldl enter g = g := by
  induction es with
  | nil => rfl
  | cons e rest ih =>
      rw [List.foldl_cons, hg.enter_own (hes e List.mem_cons_self)]
      exact ih fun e he => hes e (List.mem_cons_of_mem _ he)

/-- **Merging a graph into itself changes nothing.** -/
theorem Settled.merge_self (hg : g.Settled) : g.merge g = g :=
  (merge_eq_enter g g).trans (hg.enterAll_own fun _ he => he)

/-! ## 5. Three graphs -/

/-- A relation recorded in the second graph is recorded last in the first. -/
theorem Settled.addRelations_addRelation (hg : g.Settled) (h : LineageGraph) (x : Relation) :
    g.addRelations (h.addRelation x).relations = (g.addRelations h.relations).addRelation x := by
  by_cases hx : h.hasRelation x = true
  · -- then it is there once the relations of the second graph are recorded
    have hrelations : (h.addRelation x).relations = h.relations := if_pos hx
    have hthere : (g.addRelations h.relations).hasRelation x = true :=
      hasRelation_addRelations.mpr (.inr (hasRelation_iff.mp hx))
    rw [hrelations, (hg.addRelations h.relations).addRelation_own hthere]
  · have hrelations : (h.addRelation x).relations = h.relations ++ [x] := if_neg hx
    rw [hrelations]
    exact List.foldl_append

/-- And so are the relations of a list, by induction on the list. -/
theorem Settled.addRelations_addRelations (hg : g.Settled) (h : LineageGraph)
    (rs : List Relation) :
    g.addRelations (h.addRelations rs).relations =
      (g.addRelations h.relations).addRelations rs := by
  induction rs generalizing h with
  | nil => rfl
  | cons x rest ih =>
      show g.addRelations ((h.addRelation x).addRelations rest).relations =
        ((g.addRelations h.relations).addRelation x).addRelations rest
      rw [ih, hg.addRelations_addRelation]

/-- **It does not matter which two of three graphs are merged first.** -/
theorem Settled.merge_assoc (hg : g.Settled) (hh : h.Settled) (k : LineageGraph) :
    (g.merge h).merge k = g.merge (h.merge k) := by
  simp only [merge_eq, addRelations_withEntities, hg.addRelations_addRelations,
    EntityMap.putAll_assoc _ hh.once]

/-- Merged again, a graph changes nothing. -/
theorem Settled.merge_twice (hg : g.Settled) (hh : h.Settled) :
    (g.merge h).merge h = g.merge h := by
  rw [hg.merge_assoc hh, hh.merge_self]

/-! ## 6. Two graphs either way -/

/-- **Merged either way, two graphs have the same relations.** -/
theorem merge_sameRelations (g h : LineageGraph) : (g.merge h).SameRelations (h.merge g) :=
  fun x => by rw [Bool.eq_iff_iff, hasRelation_merge, hasRelation_merge, or_comm]

theorem SameRelations.carries {k : Key} (hs : g.SameRelations h) (hk : g.Carries k) :
    h.Carries k := by
  obtain ⟨x, hx, hn, rfl⟩ := hk
  exact carries_of_hasRelation ((hs x).symm.trans (hasRelation_of_mem hx)) hn

/-- **The ids in use depend on the relations only.** -/
theorem SameRelations.containsRelationship (hs : g.SameRelations h) (hg : g.Settled)
    (hh : h.Settled) (id : Value) : g.containsRelationship id = h.containsRelationship id := by
  have hcontains (k : Key) : g.relationshipIds.contains k = h.relationshipIds.contains k := by
    rw [Bool.eq_iff_iff, hg.indexed k, hh.indexed k]
    exact ⟨hs.carries, SameRelations.carries fun x => (hs x).symm⟩
  unfold LineageGraph.containsRelationship
  simp only [hcontains]

/-! ## 7. Entities that are missing -/

/-- **The entity is missing**: a relation ends there, and it has no header. -/
def Misses (g : LineageGraph) (s : Scalar) : Prop := ∃ t ∈ g.missingEntities, t.key = s.key

theorem exists_note {seen : List Scalar} {s : Scalar} {k : Key} :
    (∃ t ∈ ends.note seen s, t.key = k) ↔ (∃ t ∈ seen, t.key = k) ∨ s.key = k := by
  unfold ends.note
  split
  · rename_i hs
    refine ⟨.inl, fun h => h.elim id fun hk => ?_⟩
    obtain ⟨t, ht, hts⟩ := List.any_eq_true.mp hs
    exact ⟨t, ht, (beq_iff_eq.mp hts).trans hk⟩
  · simp [or_and_right, exists_or]

/-- **Every end of a relation is listed**, and nothing else. -/
theorem exists_ends {k : Key} : (∃ t ∈ g.ends, t.key = k) ↔ Ends (· ∈ g.relations) k := by
  have fold (rs : List Relation) (seen : List Scalar) :
      (∃ t ∈ rs.foldl (fun seen r => ends.note (ends.note seen r.source) r.target) seen,
        t.key = k) ↔ (∃ t ∈ seen, t.key = k) ∨ Ends (· ∈ rs) k := by
    induction rs generalizing seen with
    | nil => simp [Ends]
    | cons r rest ih =>
        rw [List.foldl_cons, ih, exists_note, exists_note]
        simp [Ends, or_assoc]
  exact (fold g.relations []).trans (by simp)

theorem misses_iff {s : Scalar} :
    g.Misses s ↔ Ends (· ∈ g.relations) s.key ∧ g.hasEntity s = false := by
  rw [← exists_ends]
  simp only [Misses, missingEntities, List.mem_filter, Bool.not_eq_true', and_assoc]
  constructor
  · rintro ⟨t, ht, hnone, hk⟩
    exact ⟨⟨t, ht, hk⟩, (g.hasEntity_congr hk).symm.trans hnone⟩
  · rintro ⟨⟨t, ht, hk⟩, hnone⟩
    exact ⟨t, ht, (g.hasEntity_congr hk).trans hnone, hk⟩

/-- The relations of a union end where those of the two graphs do. -/
theorem ends_merge {k : Key} : Ends (· ∈ (g.merge h).relations) k ↔
    Ends (· ∈ g.relations) k ∨ Ends (· ∈ h.relations) k := by
  have hends (g : LineageGraph) : Ends (fun x => g.hasRelation x = true) k ↔
      Ends (· ∈ g.relations) k := ends_same (fun x => hasRelation_iff) k
  rw [← hends, ← hends, ← hends, ← ends_or]
  simp only [hasRelation_merge]

/-- **A union misses what one of the graphs misses and neither has.** -/
theorem misses_merge {s : Scalar} : (g.merge h).Misses s ↔
    (g.Misses s ∨ h.Misses s) ∧ g.hasEntity s = false ∧ h.hasEntity s = false := by
  rw [misses_iff, misses_iff, misses_iff, ends_merge, hasEntity_merge, Bool.or_eq_false_iff]
  grind

theorem missingEntities_eq_nil_iff : g.missingEntities = [] ↔ ∀ s, ¬g.Misses s := by
  rw [List.eq_nil_iff_forall_not_mem]
  exact ⟨fun h s ⟨t, ht, _⟩ => h t ht, fun h s hs => h s ⟨s, hs, rfl⟩⟩

/-- **The union of graphs that miss nothing misses nothing.** -/
theorem missingEntities_merge (hg : g.missingEntities = []) (hh : h.missingEntities = []) :
    (g.merge h).missingEntities = [] := by
  rw [missingEntities_eq_nil_iff] at hg hh ⊢
  exact fun s hs => (misses_merge.mp hs).1.elim (hg s) (hh s)

end LineageGraph

end DataLineage
