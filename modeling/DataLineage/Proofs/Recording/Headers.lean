import DataLineage.Proofs.Recording.Closed

/-!
# Headers of entities

Which header an entity has is told by a relation between keys and headers that every entry of a
lineage graph meets, such as "it is the header of the vertex with the key":

* `LineageGraph.Pictures g Q` -- every entry of `g` meets `Q`;
* `LineageGraph.get?_eq_some_iff` -- the header of an entity is then the one that `Q` gives it,
  provided it gives one at most;
* `LineageGraph.Pictures.merge` -- what both graphs of a union meet, the union meets;
* `EntityMap.Once` -- no entity has two entries;
* `LineageGraph.get?_merge` -- **in a union the headers of the second graph win.**
-/

namespace DataLineage

namespace EntityMap

/-- An entry after a header was entered is an earlier one, or has the entered header. -/
theorem mem_put {es : EntityMap} {id : Scalar} {hd : EntityHeader} {e : Scalar × EntityHeader}
    (h : e ∈ put es id hd) : e ∈ es ∨ e.1.key = id.key ∧ e.2 = hd := by
  induction es with
  | nil =>
      rw [put, List.mem_singleton] at h
      exact .inr ⟨h ▸ rfl, h ▸ rfl⟩
  | cons a rest ih =>
      unfold put at h
      by_cases ha : a.1.key = id.key
      · rw [if_pos ha] at h
        rcases List.mem_cons.mp h with rfl | h
        · exact .inr ⟨ha, rfl⟩
        · exact .inl (List.mem_cons_of_mem _ h)
      · rw [if_neg ha] at h
        rcases List.mem_cons.mp h with rfl | h
        · exact .inl List.mem_cons_self
        · exact (ih h).imp_left (List.mem_cons_of_mem _)

/-- There is a header exactly for the entities that are there. -/
theorem has_iff {es : EntityMap} {id : Scalar} : has es id = true ↔ ∃ hd, get? es id = some hd := by
  unfold has get?
  rw [List.any_eq_true, ← List.find?_isSome, Option.isSome_iff_exists]
  constructor
  · intro h
    obtain ⟨e, he⟩ := h
    exact ⟨e.2, by rw [he]; rfl⟩
  · intro h
    obtain ⟨hd, hhd⟩ := h
    obtain ⟨e, he, _⟩ := Option.map_eq_some_iff.mp hhd
    exact ⟨e, he⟩

/-- The header that is found stands in an entry of the entity. -/
theorem mem_of_get? {es : EntityMap} {id : Scalar} {hd : EntityHeader}
    (h : get? es id = some hd) : ∃ e ∈ es, e.1.key = id.key ∧ e.2 = hd := by
  obtain ⟨e, he, hd'⟩ := Option.map_eq_some_iff.mp h
  have hs : e.1.same id = true := by simpa using List.find?_some he
  exact ⟨e, List.mem_of_find?_eq_some he, (Scalar.same_iff _ _).mp hs, hd'⟩

theorem get?_cons (e : Scalar × EntityHeader) (es : EntityMap) (id : Scalar) :
    get? (e :: es) id = if e.1.key = id.key then some e.2 else get? es id := by
  unfold get?
  rw [List.find?_cons, Scalar.same_eq]
  by_cases h : e.1.key = id.key
  · rw [if_pos h, beq_iff_eq.mpr h]
    rfl
  · rw [if_neg h, beq_eq_false_iff_ne.mpr h]

/-- **An entered header is found**, and so is every other one that was. -/
theorem get?_put (es : EntityMap) (id : Scalar) (hd : EntityHeader) (x : Scalar) :
    get? (put es id hd) x = if id.key = x.key then some hd else get? es x := by
  induction es with
  | nil => exact get?_cons (id, hd) [] x
  | cons e rest ih =>
      unfold put
      by_cases he : e.1.key = id.key
      · rw [if_pos he, get?_cons, get?_cons, he]
        split <;> rfl
      · rw [if_neg he, get?_cons, get?_cons, ih]
        by_cases hx : e.1.key = x.key
        · rw [if_pos hx, if_pos hx, if_neg fun hid => he (hx.trans hid.symm)]
        · rw [if_neg hx, if_neg hx]

/-- **No entity has two entries.** -/
def Once (es : EntityMap) : Prop := es.Pairwise fun a b => a.1.key ≠ b.1.key

theorem Once.put {es : EntityMap} (h : es.Once) (id : Scalar) (hd : EntityHeader) :
    (EntityMap.put es id hd).Once := by
  induction es with
  | nil => exact List.pairwise_singleton ..
  | cons e rest ih =>
      obtain ⟨hhead, hrest⟩ := List.pairwise_cons.mp h
      unfold EntityMap.put
      by_cases he : e.1.key = id.key
      · rw [if_pos he]
        exact List.pairwise_cons.mpr ⟨hhead, hrest⟩
      · rw [if_neg he]
        refine List.pairwise_cons.mpr ⟨fun b hb => ?_, ih hrest⟩
        rcases mem_put hb with hb | ⟨hb, _⟩
        · exact hhead b hb
        · rw [hb]
          exact he

end EntityMap

namespace LineageGraph

variable {Q : Key → EntityHeader → Prop}

/-- **Every entry of the graph meets the relation.** -/
def Pictures (g : LineageGraph) (Q : Key → EntityHeader → Prop) : Prop :=
  ∀ e ∈ g.entities, Q e.1.key e.2

theorem Pictures.empty (guid : Value) (direction : Direction) (depth : Value) :
    (LineageGraph.empty guid direction depth).Pictures Q := fun _ he => absurd he List.not_mem_nil

theorem Pictures.putEntity {g : LineageGraph} (h : g.Pictures Q) {id : Scalar} {hd : EntityHeader}
    (hQ : Q id.key hd) : (g.putEntity id hd).Pictures Q := by
  intro e he
  rcases EntityMap.mem_put he with he | ⟨hk, hh⟩
  · exact h e he
  · rw [hk, hh]
    exact hQ

theorem Pictures.merge {g other : LineageGraph} (hg : g.Pictures Q) (ho : other.Pictures Q) :
    (g.merge other).Pictures Q :=
  merge_keeps (P := fun g => g.Pictures Q) (fun _ e he h => h.putEntity (ho e he))
    (fun _ _ _ h => h) hg

/-- **The header of an entity that is there is the one that the relation gives it.** -/
theorem get?_eq_some_iff {g : LineageGraph} (h : g.Pictures Q)
    (once : ∀ k a b, Q k a → Q k b → a = b) {id : Scalar} {hd : EntityHeader} :
    EntityMap.get? g.entities id = some hd ↔ g.hasEntity id = true ∧ Q id.key hd := by
  have picture {hd : EntityHeader} (hh : EntityMap.get? g.entities id = some hd) : Q id.key hd := by
    obtain ⟨e, he, hk, rfl⟩ := EntityMap.mem_of_get? hh
    exact hk ▸ h e he
  constructor
  · exact fun hh => ⟨EntityMap.has_iff.mpr ⟨hd, hh⟩, picture hh⟩
  · intro h'
    obtain ⟨hg, hQ⟩ := h'
    obtain ⟨hd', hh⟩ := EntityMap.has_iff.mp hg
    rw [hh, once _ _ _ (picture hh) hQ]

theorem entities_addRelations (g : LineageGraph) (rs : List Relation) :
    (g.addRelations rs).entities = g.entities := by
  unfold addRelations
  induction rs generalizing g with
  | nil => rfl
  | cons r rest ih => exact ih (g.addRelation r)

/-- **In a union the headers of the second graph win**, and the others stay. -/
theorem get?_merge {g other : LineageGraph} (h : other.entities.Once) (id : Scalar) :
    EntityMap.get? (g.merge other).entities id =
      (EntityMap.get? other.entities id).or (EntityMap.get? g.entities id) := by
  have fold (es : EntityMap) (hes : es.Once) (g : LineageGraph) :
      EntityMap.get? (es.foldl (fun g e => g.putEntity e.1 e.2) g).entities id =
        (EntityMap.get? es id).or (EntityMap.get? g.entities id) := by
    induction es generalizing g with
    | nil => rfl
    | cons e rest ih =>
        obtain ⟨hhead, hrest⟩ := List.pairwise_cons.mp hes
        have hput : EntityMap.get? (g.putEntity e.1 e.2).entities id =
            if e.1.key = id.key then some e.2 else EntityMap.get? g.entities id :=
          EntityMap.get?_put ..
        rw [List.foldl_cons, ih hrest, hput, EntityMap.get?_cons]
        by_cases he : e.1.key = id.key
        · have hnone : EntityMap.get? rest id = none := by
            refine Option.eq_none_iff_forall_ne_some.mpr fun hd hhd => ?_
            obtain ⟨e', he', hk, _⟩ := EntityMap.mem_of_get? hhd
            exact hhead e' he' (he.trans hk.symm)
          rw [if_pos he, if_pos he, hnone]
          rfl
        · rw [if_neg he, if_neg he]
  rw [merge, entities_addRelations]
  exact fold _ h g

end LineageGraph

end DataLineage
