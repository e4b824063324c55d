import Mathlib
import DataLineage.Proofs.Listing.Ordered

/-!
# How far a listing is determined by the relations

A lineage graph with text ids lists its relations in the order of their sort keys, by code points.
An id that is missing counts as the empty one in a sort key, so two relations can have the same, and
these are listed in the order in which they were recorded.

* `Text.codePoint_injective`, `Text.order_eq_gt_iff` -- the order of texts is that of their code
  points, which tell them apart;
* `Relation.Textual`, `Relation.codes` -- relations between texts, and the code points by which they
  are listed;
* `LineageGraph.listing_textual` -- what is listed is sorted by these;
* `LineageGraph.Made` -- a graph made by recording relations, entering headers and merging;
* `LineageGraph.listing_canonical` -- **graphs with the same relations list the same sort keys, and
  the same relations exactly if no two relations share one**.
-/

namespace DataLineage

/-! ## 1. Texts by their code points -/

namespace Text

/-- **A code point tells its character**: no character is a half of a surrogate pair. -/
theorem codePoint_injective : Function.Injective codePoint := by
  intro c d h
  have valid (c : Char) : c.toNat < 0xD800 ∨ 0xDFFF < c.toNat ∧ c.toNat < 0x110000 := c.valid
  have hc := valid c
  have hd := valid d
  unfold codePoint isHalf halfOffset at h
  simp only [Bool.and_eq_true, decide_eq_true_eq] at h
  refine Char.ext (UInt32.toNat_inj.mp ?_)
  show c.toNat = d.toNat
  split at h <;> split at h <;> omega

theorem codePoints_injective : Function.Injective codePoints := fun _ _ h =>
  String.toList_inj.mp (codePoint_injective.list_map h)

theorem orderOf_swap (cs ds : List Char) : (orderOf cs ds).swap = orderOf ds cs := by
  induction cs generalizing ds with
  | nil => cases ds <;> rfl
  | cons c cs ih =>
      cases ds with
      | nil => rfl
      | cons d ds =>
          unfold orderOf
          rcases Nat.lt_trichotomy (codePoint c) (codePoint d) with h | h | h
          · rw [if_pos h, if_neg (Nat.lt_asymm h), if_pos h]
            rfl
          · simp only [h, Nat.lt_irrefl, if_false]
            exact ih ds
          · rw [if_neg (Nat.lt_asymm h), if_pos h, if_pos h]
            rfl

/-- A text is above another exactly when its code points are. -/
theorem order_eq_gt_iff (a b : String) : order a b = .gt ↔ codePoints b < codePoints a := by
  rw [← order_eq_lt_iff, order, order, ← orderOf_swap]
  cases orderOf b.toList a.toList <;> simp [Ordering.swap]

end Text

/-- **Lists of texts are compared by their code points.** -/
theorem compareAll?_texts {as bs : List String} (h : as.length = bs.length) :
    compareAll? (as.map .text) (bs.map .text) ≠ some .gt ↔
      ¬ bs.map Text.codePoints < as.map Text.codePoints := by
  rw [not_iff_not]
  induction as generalizing bs with
  | nil =>
      obtain rfl := List.length_eq_zero_iff.mp h.symm
      simp [compareAll?]
  | cons a as ih =>
      cases bs with
      | nil => cases h
      | cons b bs =>
          simp only [List.map_cons, compareAll?, List.cons_lt_cons_iff]
          by_cases hab : a = b
          · subst hab
            simp [ih (Nat.succ.inj h)]
          · have hkey : ¬ (Scalar.text a).key = (Scalar.text b).key := by
              simpa [Scalar.key] using hab
            have hne : ¬ Text.codePoints b = Text.codePoints a :=
              fun he => hab (Text.codePoints_injective he).symm
            have horder : (Scalar.text a).compare? (.text b) = some (Text.order a b) := rfl
            rw [if_neg hkey, horder, Option.some.injEq, Text.order_eq_gt_iff]
            simp [hne]

/-! ## 2. Relations between texts -/

namespace Relation

/-- **All ids of the relation are texts**, but for those that are missing. -/
structure Textual (x : Relation) : Prop where
  source : ∃ s, x.source = .text s
  target : ∃ s, x.target = .text s
  relationshipId : x.relationshipId = .null ∨ ∃ s, x.relationshipId = .text s
  processId : x.processId = .null ∨ ∃ s, x.processId = .text s

/-- The texts of a sort key. -/
def texts (x : Relation) : List String :=
  x.sortKey.map fun
    | .text s => s
    | _ => ""

/-- **The code points by which a relation is listed**: those of its source, its target, its
relationship and its process. -/
def codes (x : Relation) : List (List Nat) := x.texts.map Text.codePoints

variable {x y : Relation}

/-- What stands for the id of such a relation in its sort key is a text. -/
theorem idOrBlank_text {s : Scalar} (h : s = .null ∨ ∃ u, s = .text u) :
    ∃ u, idOrBlank s = .text u := by
  rcases h with rfl | ⟨u, rfl⟩
  · exact ⟨"", rfl⟩
  · unfold idOrBlank
    split
    · exact ⟨u, rfl⟩
    · exact ⟨"", rfl⟩

/-- The sort key of such a relation is one of texts. -/
theorem Textual.sortKey_eq (h : x.Textual) : x.sortKey = x.texts.map .text := by
  obtain ⟨s, hs⟩ := h.source
  obtain ⟨t, ht⟩ := h.target
  obtain ⟨r, hr⟩ := idOrBlank_text h.relationshipId
  obtain ⟨p, hp⟩ := idOrBlank_text h.processId
  simp only [texts, sortKey, hs, ht, hr, hp, List.map_cons, List.map_nil]

/-- **Such a relation is the same as no other one.** -/
theorem Textual.eq_of_same (h : x.Textual) (hxy : x.same y = true) : x = y := by
  have text {a b : Scalar} (ha : ∃ s, a = .text s) (hk : a.key = b.key) : a = b := by
    obtain ⟨s, rfl⟩ := ha
    exact ((Scalar.key_eq_text_iff b s).mp hk.symm).symm
  have idOf {a b : Scalar} (ha : a = .null ∨ ∃ s, a = .text s) (hk : a.key = b.key) : a = b := by
    rcases ha with rfl | ha
    · exact ((Scalar.key_eq_null_iff b).mp hk.symm).symm
    · exact text ha hk
  obtain ⟨hs, ht, hr, hp⟩ := (same_iff x y).mp hxy
  cases x
  cases y
  rw [mk.injEq]
  exact ⟨text h.source hs, text h.target ht, idOf h.relationshipId hr, idOf h.processId hp⟩

/-- Relations with the same code points have the same sort key. -/
theorem Textual.sortKey_of_codes (hx : x.Textual) (hy : y.Textual) (h : x.codes = y.codes) :
    x.sortKey = y.sortKey := by
  rw [hx.sortKey_eq, hy.sortKey_eq, Text.codePoints_injective.list_map h]

/-- And relations with the same sort key have the same code points. -/
theorem codes_of_sortKey (h : x.sortKey = y.sortKey) : x.codes = y.codes := by
  unfold codes texts
  rw [h]

/-- **Such relations are listed by their code points.** -/
theorem Textual.compare_iff (hx : x.Textual) (hy : y.Textual) :
    (compareAll? x.sortKey y.sortKey != some .gt) = decide (¬ y.codes < x.codes) := by
  rw [Bool.eq_iff_iff, bne_iff_ne, decide_eq_true_iff, hx.sortKey_eq, hy.sortKey_eq]
  exact compareAll?_texts rfl

theorem Textual.families (h : x.Textual) :
    families? x.sortKey = some [.text, .text, .text, .text] := by
  obtain ⟨s, hs⟩ := h.source
  obtain ⟨t, ht⟩ := h.target
  obtain ⟨r, hr⟩ := idOrBlank_text h.relationshipId
  obtain ⟨p, hp⟩ := idOrBlank_text h.processId
  simp only [sortKey, hs, ht, hr, hp]
  rfl

/-- What is written of a relation tells it. -/
theorem toValue_injective : Function.Injective toValue := by
  intro x y h
  simp only [toValue, Value.record.injEq, List.cons_append, List.nil_append, List.cons.injEq,
    Prod.mk.injEq, Value.scalar.injEq, true_and] at h
  obtain ⟨hs, ht, hr, hp⟩ := h
  have hprocess : x.processId = y.processId := by
    split at hp <;> split at hp <;> simp_all
  cases x
  cases y
  rw [mk.injEq]
  exact ⟨hs, ht, hr, hprocess⟩

end Relation

/-! ## 3. Listings of relations between texts -/

namespace LineageGraph

/-- The order of relations by their code points. -/
def codesLe (a b : Relation) : Bool := decide (¬ b.codes < a.codes)

theorem codesLe_trans (a b c : Relation) (hab : codesLe a b = true) (hbc : codesLe b c = true) :
    codesLe a c = true := by
  simp only [codesLe, decide_eq_true_iff, not_lt] at *
  exact hab.trans hbc

theorem codesLe_total (a b : Relation) : (codesLe a b || codesLe b a) = true := by
  simp only [codesLe, Bool.or_eq_true, decide_eq_true_iff, not_lt]
  exact le_total a.codes b.codes

variable {g h : LineageGraph}

/-- All relations of the graph are between texts. -/
def Textual (g : LineageGraph) : Prop := ∀ x ∈ g.relations, x.Textual

/-- What is listed is sorted by the sort keys, relations with the same one in their old order. -/
theorem listing_sorted {rs : List Relation} (h : g.listing = .ok rs) :
    rs = g.relations.mergeSort fun a b => compareAll? a.sortKey b.sortKey != some .gt := by
  unfold listing sortBy? at h
  split at h
  · rename_i sorted hsorted
    cases h
    split at hsorted
    · exact (Option.some.inj hsorted).symm
    · cases hsorted
  · cases h

/-- **Relations between texts are listed, sorted by code points.** -/
theorem listing_textual (hg : g.Textual) : g.listing = .ok (g.relations.mergeSort codesLe) := by
  obtain ⟨rs, hrs⟩ := g.listing_iff.1.mpr (comparable_of_families fun x hx => (hg x hx).families)
  have hsort := List.map_mergeSort (f := id) (l := g.relations)
    (r := fun a b => compareAll? a.sortKey b.sortKey != some .gt) (s := codesLe)
    fun a ha b hb => (hg a ha).compare_iff (hg b hb)
  rw [List.map_id, List.map_id] at hsort
  rw [hrs, listing_sorted hrs, hsort]

/-- What is listed never goes down. -/
theorem sorted_pairwise (rs : List Relation) :
    (rs.mergeSort codesLe).Pairwise fun a b => ¬ b.codes < a.codes :=
  (List.pairwise_mergeSort codesLe_trans codesLe_total rs).imp fun h => of_decide_eq_true h

/-- **The code points are sorted the same**, in whatever order the relations came. -/
theorem codes_sorted_eq {rs rs' : List Relation} (h : rs.Perm rs') :
    (rs.mergeSort codesLe).map Relation.codes = (rs'.mergeSort codesLe).map Relation.codes := by
  have sorted (xs : List Relation) :
      ((xs.mergeSort codesLe).map Relation.codes).Pairwise fun c d => ¬ d < c :=
    List.pairwise_map.mpr (sorted_pairwise xs)
  have hperm :=
    (List.mergeSort_perm rs codesLe).trans (h.trans (List.mergeSort_perm rs' codesLe).symm)
  exact (hperm.map _).eq_of_pairwise
    (fun _ _ _ _ hcd hdc => le_antisymm (not_lt.mp hcd) (not_lt.mp hdc)) (sorted rs) (sorted rs')

/-- So is all that the code points tell. -/
theorem map_sorted_eq {α : Type} {f : Relation → α} {rs rs' : List Relation} (h : rs.Perm rs')
    (hf : ∀ a ∈ rs, ∀ b ∈ rs, a.codes = b.codes → f a = f b) :
    (rs.mergeSort codesLe).map f = (rs'.mergeSort codesLe).map f := by
  refine List.ext_getElem (by simp [h.length_eq]) fun i hi hi' => ?_
  simp only [List.length_map] at hi hi'
  have hcodes : ((rs.mergeSort codesLe)[i]).codes = ((rs'.mergeSort codesLe)[i]).codes := by
    have hat := congrArg (·[i]?) (codes_sorted_eq h)
    simpa [List.getElem?_eq_getElem hi, List.getElem?_eq_getElem hi'] using hat
  have hmem := (List.mergeSort_perm rs codesLe).mem_iff.mp (List.getElem_mem hi)
  have hmem' := h.mem_iff.mpr ((List.mergeSort_perm rs' codesLe).mem_iff.mp (List.getElem_mem hi'))
  simpa using hf _ hmem _ hmem' hcodes

/-! ## 4. Graphs with the same relations -/

/-- **A graph as it is made**: from some relations, by entering headers, recording relations and
merging other graphs. -/
inductive Made : LineageGraph → Prop
  | start (guid : Value) (direction : Direction) (depth : Value) (rs : List Relation) :
      Made (ofRelations guid direction depth rs)
  | entity {g : LineageGraph} (id : Scalar) (header : EntityHeader) :
      Made g → Made (g.putEntity id header)
  | relation {g : LineageGraph} (x : Relation) : Made g → Made (g.addRelation x)
  | merge {g other : LineageGraph} : Made g → Made other → Made (g.merge other)

/-- **However a graph is made, no relation is recorded twice.** -/
theorem Made.distinct (h : g.Made) : g.Distinct := by
  induction h with
  | start guid direction depth rs => exact Distinct.ofRelations guid direction depth rs
  | entity _ _ _ ih => exact ih
  | relation x _ ih => exact ih.addRelation x
  | merge _ _ ih _ => exact ih.merge _

theorem Distinct.reverse (h : g.Distinct) :
    g.relations.reverse.Pairwise fun a b => a.same b = false :=
  List.pairwise_reverse.mpr (h.imp fun hab => (Relation.same_comm _ _).trans hab)

theorem Distinct.nodup (h : g.Distinct) : g.relations.Nodup :=
  List.Pairwise.imp (fun hab he => by rw [he, Relation.same_refl] at hab; cases hab) h

/-- **Relations of which no two are the same are recorded as they come.** -/
theorem relations_addRelations (g : LineageGraph) {rs : List Relation}
    (h : (g.relations ++ rs).Pairwise fun a b => a.same b = false) :
    (g.addRelations rs).relations = g.relations ++ rs := by
  induction rs generalizing g with
  | nil => exact (List.append_nil _).symm
  | cons x rest ih =>
      have hnew : ¬ g.hasRelation x = true := fun hx => by
        obtain ⟨y, hy, hsame⟩ := hasRelation_iff.mp hx
        have hne := (List.pairwise_append.mp h).2.2 y hy x List.mem_cons_self
        rw [Relation.same_comm, hsame] at hne
        cases hne
      have hadd : (g.addRelation x).relations = g.relations ++ [x] := if_neg hnew
      show ((g.addRelation x).addRelations rest).relations = _
      rw [ih _ (by rwa [hadd, List.append_assoc]), hadd, List.append_assoc]
      rfl

theorem relations_ofRelations {guid : Value} {direction : Direction} {depth : Value}
    {rs : List Relation} (h : rs.Pairwise fun a b => a.same b = false) :
    (ofRelations guid direction depth rs).relations = rs :=
  relations_addRelations (empty guid direction depth) h

/-- The two graphs have the same relations recorded. -/
def SameRelations (g h : LineageGraph) : Prop := ∀ x, g.hasRelation x = h.hasRelation x

/-- **The relations of a graph can be recorded from the last one to the first.** -/
theorem exists_turned (hg : g.Distinct) :
    ∃ h : LineageGraph, h.Made ∧ g.SameRelations h ∧ h.relations = g.relations.reverse := by
  have hrelations : (ofRelations g.guid g.direction g.depth g.relations.reverse).relations =
      g.relations.reverse := relations_ofRelations hg.reverse
  refine ⟨_, .start _ _ _ _, fun x => ?_, hrelations⟩
  simp only [hasRelation, hrelations, List.any_reverse]

/-- In a graph between texts, the same as a relation of the graph is only the relation itself. -/
theorem Textual.mem_iff (ht : g.Textual) (x : Relation) :
    x ∈ g.relations ↔ g.hasRelation x = true := by
  refine ⟨hasRelation_of_mem, fun hx => ?_⟩
  obtain ⟨y, hy, hsame⟩ := hasRelation_iff.mp hx
  exact (ht y hy).eq_of_same ((Relation.same_comm y x).trans hsame) ▸ hy

/-- A graph with the same relations as one between texts is between texts. -/
theorem SameRelations.textual (hsame : g.SameRelations h) (ht : g.Textual) : h.Textual := by
  intro x hx
  exact ht x ((ht.mem_iff x).mpr ((hsame x).trans (hasRelation_of_mem hx)))

/-- **It has them in another order.** -/
theorem SameRelations.perm (hsame : g.SameRelations h) (ht : g.Textual) (hg : g.Distinct)
    (hh : h.Distinct) : g.relations.Perm h.relations := by
  refine (List.perm_ext_iff_of_nodup hg.nodup hh.nodup).mpr fun x => ?_
  rw [ht.mem_iff, (hsame.textual ht).mem_iff, hsame x]

/-- The relations as they are written, beside the given entities. -/
def writtenRelations (g : LineageGraph) (entities : Value) : Outcome Value := do
  (← g.written entities).field "relations"

/-- What is written of the graph lists these relations, in this order. -/
def Lists (g : LineageGraph) (rs : List Relation) : Prop :=
  ∀ entities, g.writtenRelations entities = .ok (.list (rs.map Relation.toValue))

theorem lists_of_listing {rs : List Relation} (h : g.listing = .ok rs) : g.Lists rs := by
  intro entities
  unfold writtenRelations written
  rw [h]
  rfl

/-- A graph lists its relations in one order. -/
theorem Lists.unique {rs rs' : List Relation} (h : g.Lists rs) (h' : g.Lists rs') : rs = rs' := by
  have heq := (h .null).symm.trans (h' .null)
  simp only [Except.ok.injEq, Value.list.injEq] at heq
  exact Relation.toValue_injective.list_map heq

/-! ## 5. Relations that share a sort key -/

/-- Of two members of a list one comes first. -/
theorem pair_sublist_or {α : Type} {l : List α} {a b : α} (ha : a ∈ l) (hb : b ∈ l) (hne : a ≠ b) :
    [a, b].Sublist l ∨ [b, a].Sublist l := by
  obtain ⟨before, after, rfl⟩ := List.append_of_mem ha
  rcases List.mem_append.mp hb with hb | hb
  · exact .inr ((List.singleton_sublist.mpr hb).append
      (List.singleton_sublist.mpr List.mem_cons_self))
  · have hb := (List.mem_cons.mp hb).resolve_left hne.symm
    exact .inl (((List.singleton_sublist.mpr hb).cons_cons a).trans
      (List.sublist_append_right before _))

/-- In a list without repetitions, only one of the two does. -/
theorem pair_sublist_asymm {α : Type} {l : List α} {a b : α} (hl : l.Nodup)
    (hab : [a, b].Sublist l) : ¬ [b, a].Sublist l := by
  induction l with
  | nil => cases hab
  | cons x rest ih =>
      obtain ⟨hx, hrest⟩ := List.nodup_cons.mp hl
      intro hba
      cases hab with
      | cons _ hab =>
          cases hba with
          | cons _ hba => exact ih hrest hab hba
          | cons_cons _ _ => exact hx (hab.subset (by simp))
      | cons_cons _ hb =>
          cases hba with
          | cons _ hba => exact hx (hba.subset (by simp))
          | cons_cons _ _ => exact hx (hb.subset (by simp))

/-- **Relations with the same code points are sorted as they came**: turned around, they are sorted
otherwise. -/
theorem sorted_reverse_ne {rs : List Relation} (hrs : rs.Nodup) {a b : Relation} (ha : a ∈ rs)
    (hb : b ∈ rs) (hne : a ≠ b) (hcodes : a.codes = b.codes) :
    rs.reverse.mergeSort codesLe ≠ rs.mergeSort codesLe := by
  have hnodup := (List.mergeSort_perm rs codesLe).nodup_iff.mpr hrs
  intro heq
  have twice {x y : Relation} (hxy : x.codes = y.codes) (h : [x, y].Sublist rs) : False := by
    have hle : codesLe x y = true ∧ codesLe y x = true := by simp [codesLe, hxy]
    have hback : [y, x].Sublist rs.reverse := h.reverse
    have hsorted := List.pair_sublist_mergeSort codesLe_trans codesLe_total hle.1 h
    have hturned := List.pair_sublist_mergeSort codesLe_trans codesLe_total hle.2 hback
    exact pair_sublist_asymm hnodup hsorted (heq ▸ hturned)
  exact (pair_sublist_or ha hb hne).elim (twice hcodes) (twice hcodes.symm)

/-! ## 6. The listing as a function of the relations -/

/-- **A listing is determined up to relations that share a sort key.** A graph between texts lists
each of its relations once, by the code points of source, target, relationship and process. Any
other graph with the same relations, however it was made, lists the same sort keys; and all these
graphs list the same relations exactly if no two of the relations have the same sort key. -/
theorem listing_canonical {g : LineageGraph} (hg : g.Made) (ht : g.Textual) :
    ∃ rs : List Relation, g.Lists rs ∧
      (rs.Nodup ∧ (∀ x, x ∈ rs ↔ g.hasRelation x = true) ∧
        rs.Pairwise fun a b => ¬ b.codes < a.codes) ∧
      (∀ h : LineageGraph, h.Made → g.SameRelations h →
        ∃ rs', h.Lists rs' ∧ rs'.map Relation.sortKey = rs.map Relation.sortKey) ∧
      ((∀ h : LineageGraph, h.Made → g.SameRelations h → h.Lists rs) ↔
        ∀ a ∈ rs, ∀ b ∈ rs, a.sortKey = b.sortKey → a = b) := by
  have hnodup := hg.distinct.nodup
  have hmem (x : Relation) : x ∈ g.relations.mergeSort codesLe ↔ x ∈ g.relations :=
    (List.mergeSort_perm g.relations codesLe).mem_iff
  have other {h : LineageGraph} (hh : h.Made) (hsame : g.SameRelations h) :
      g.relations.Perm h.relations ∧ h.Lists (h.relations.mergeSort codesLe) :=
    ⟨hsame.perm ht hg.distinct hh.distinct, lists_of_listing (listing_textual (hsame.textual ht))⟩
  have hkey {a b : Relation} (ha : a ∈ g.relations) (hb : b ∈ g.relations) :
      a.codes = b.codes → a.sortKey = b.sortKey := (ht a ha).sortKey_of_codes (ht b hb)
  refine ⟨_, lists_of_listing (listing_textual ht), ⟨?_, fun x => ?_, sorted_pairwise _⟩, ?_, ?_⟩
  · exact (List.mergeSort_perm g.relations codesLe).nodup_iff.mpr hnodup
  · exact (hmem x).trans (ht.mem_iff x)
  · intro h hh hsame
    obtain ⟨hperm, hlists⟩ := other hh hsame
    exact ⟨_, hlists, (map_sorted_eq hperm fun a ha b hb => hkey ha hb).symm⟩
  · simp only [hmem]
    constructor
    · intro hdetermined a ha b hb hab
      by_contra hne
      -- recorded from the last one to the first, the two relations are listed the other way round
      obtain ⟨h, hh, hsame, hrelations⟩ := exists_turned hg.distinct
      have hlists := (other hh hsame).2
      rw [hrelations] at hlists
      exact sorted_reverse_ne hnodup ha hb hne (Relation.codes_of_sortKey hab)
        (hlists.unique (hdetermined h hh hsame))
    · intro hapart h hh hsame
      obtain ⟨hperm, hlists⟩ := other hh hsame
      have hsorted := map_sorted_eq (f := id) hperm fun a ha b hb hab =>
        hapart a ha b hb (hkey ha hb hab)
      rw [List.map_id, List.map_id] at hsorted
      exact hsorted ▸ hlists

namespace Tied

/-- The id of this text, or none. -/
def idOf : Option String → Scalar
  | none => .null
  | some s => .text s

/-- From one entity to another, over the given relationship and through the given process. -/
def flow (source target : String) (relationshipId processId : Option String) : Relation where
  source := .text source
  target := .text target
  relationshipId := idOf relationshipId
  processId := idOf processId

theorem textual_flow (source target : String) (r p : Option String) :
    (flow source target r p).Textual := by
  have text (o : Option String) : idOf o = .null ∨ ∃ s, idOf o = .text s := by
    cases o with
    | none => exact .inl rfl
    | some s => exact .inr ⟨s, rfl⟩
  exact ⟨⟨source, rfl⟩, ⟨target, rfl⟩, text r, text p⟩

/-- The graph of the given relations. -/
def graph (rs : List Relation) : LineageGraph := ofRelations (.text "a") .input (.int 3) rs

/-- Relations recorded in the order of their code points are listed as they were recorded. -/
theorem lists_graph (rs : List Relation) (ht : ∀ x ∈ rs, x.Textual)
    (hdistinct : rs.Pairwise fun a b => a.same b = false)
    (hsorted : rs.Pairwise fun a b => codesLe a b = true) :
    (graph rs).Textual ∧ (graph rs).Lists rs := by
  have hrelations : (graph rs).relations = rs := relations_ofRelations hdistinct
  have htextual : (graph rs).Textual := fun x hx => ht x (hrelations ▸ hx)
  have hlisting := listing_textual htextual
  rw [hrelations, List.mergeSort_of_pairwise hsorted] at hlisting
  exact ⟨htextual, lists_of_listing hlisting⟩

/-- Without a relationship. -/
def absent : Relation := flow "a" "b" none none

/-- Over the relationship whose id is empty. -/
def blank : Relation := flow "a" "b" (some "") none

/-- One relation without a relationship and one with. -/
def parallel : List Relation := [absent, flow "a" "b" (some "1") none]

/-- Without a relationship and over the empty one, in the order of the processes. -/
def mixed : List Relation :=
  [flow "a" "b" (some "") (some "y"), flow "a" "b" none (some "z"),
    flow "c" "d" none (some "y"), flow "c" "d" (some "") (some "z")]

/-- What stands for the ids of a relation where they are ranked. -/
def ranks (rank : Scalar → Nat) (x : Relation) : List Nat :=
  [rank x.source, rank x.target, rank x.relationshipId, rank x.processId]

/-- Between the same ends, relations are ranked by their relationships first. -/
theorem ids_ranked {rank : Scalar → Nat} {x y : Relation} (h : ¬ ranks rank y < ranks rank x)
    (hsource : x.source = y.source) (htarget : x.target = y.target) :
    rank x.relationshipId ≤ rank y.relationshipId := by
  by_contra hlt
  exact h (by simp [ranks, hsource, htarget, List.cons_lt_cons_iff, not_le.mp hlt])

end Tied

open Tied in
/-- A relation without a relationship comes before one with it, however they were recorded. -/
theorem listing_canonical_parallel :
    (graph parallel).Made ∧ (graph parallel).Textual ∧
      ∀ h : LineageGraph, h.Made → (graph parallel).SameRelations h → h.Lists parallel := by
  have hmade : (graph parallel).Made := .start _ _ _ _
  obtain ⟨htextual, hlists⟩ := lists_graph parallel
    (by simp [parallel, absent, textual_flow]) (by decide) (by decide)
  obtain ⟨rs, hrs, -, -, hcanonical⟩ := listing_canonical hmade htextual
  obtain rfl := hrs.unique hlists
  exact ⟨hmade, htextual, hcanonical.mpr (by decide)⟩

open Tied in
/-- **A missing id and an empty one are listed as they were recorded.** Two graphs with the same two
relations list them in different orders. Here relations are kept in the order in which they were
recorded; kept in a hash set, such relations are listed in the order of the set, which need not be
that one and can be another in each run. And where the processes tell such relations apart, the
missing id comes after the empty one here and before it there: a listing that no order of
relationship ids explains. -/
theorem ties_as_recorded :
    (∃ g h : LineageGraph, (g.Made ∧ h.Made) ∧ (g.Textual ∧ h.Textual) ∧ g.SameRelations h ∧
      g.writtenRelations .null ≠ h.writtenRelations .null) ∧
    (graph mixed).Made ∧ (graph mixed).Textual ∧ (graph mixed).Lists mixed ∧
      ∀ rank : Scalar → Nat, rank .null ≠ rank (.text "") →
        ¬ mixed.Pairwise fun x y => ¬ ranks rank y < ranks rank x := by
  constructor
  · obtain ⟨hg, hlists⟩ := lists_graph [absent, blank]
      (by simp [absent, blank, textual_flow]) (by decide) (by decide)
    obtain ⟨hh, hlists'⟩ := lists_graph [blank, absent]
      (by simp [absent, blank, textual_flow]) (by decide) (by decide)
    have hrelations : (graph [absent, blank]).relations = [absent, blank] := by decide
    have hrelations' : (graph [blank, absent]).relations = [blank, absent] := by decide
    refine ⟨graph [absent, blank], graph [blank, absent], ⟨.start _ _ _ _, .start _ _ _ _⟩,
      ⟨hg, hh⟩, fun x => ?_, ?_⟩
    · simp [hasRelation, hrelations, hrelations', Bool.or_comm]
    · rw [hlists, hlists']
      simp [Relation.toValue, absent, blank, flow, idOf]
  · obtain ⟨htextual, hlists⟩ := lists_graph mixed
      (by simp [mixed, textual_flow]) (by decide) (by decide)
    refine ⟨.start _ _ _ _, htextual, hlists, fun rank hne hsorted => ?_⟩
    obtain ⟨hfirst, hsorted⟩ := List.pairwise_cons.mp hsorted
    obtain ⟨-, hsorted⟩ := List.pairwise_cons.mp hsorted
    obtain ⟨hthird, -⟩ := List.pairwise_cons.mp hsorted
    have hab := ids_ranked (hfirst _ List.mem_cons_self) rfl rfl
    have hcd := ids_ranked (hthird _ List.mem_cons_self) rfl rfl
    exact hne (le_antisymm hcd hab)

end LineageGraph

end DataLineage
