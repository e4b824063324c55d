import DataLineage.Proofs.Recording.Closed
import Mathlib.Data.List.Pairwise

/-!
# When relations can be listed

The relations of a lineage graph are listed by their sort keys: source, target, relationship and
process. Two sort keys have an order if, at the first place where they differ, the two ids are of
one family; and a listing needs an order between every two relations.

* `LineageGraph.Distinct` -- no relation is recorded twice, whatever is added or merged;
* `compareAll?_isSome_iff` -- **two lists of scalars have an order** where the first two members
  that differ are of one family;
* `Relation.Comparable` -- two relations have an order;
* `LineageGraph.listing_iff` -- **which relations can be listed**, and that all others fail;
* `LineageGraph.comparable_of_families` -- relations alike in their families can be;
* `LineageGraph.written_iff`, `LineageGraph.written_lists` -- so which graphs can be written, and
  that all relations are, once each.
-/

namespace DataLineage

/-! ## 1. No relation twice -/

theorem Relation.same_comm (a b : Relation) : a.same b = b.same a := by
  rw [Bool.eq_iff_iff, same_iff, same_iff]
  simp only [eq_comm]

namespace LineageGraph

/-- **No relation is recorded twice.** -/
def Distinct (g : LineageGraph) : Prop := g.relations.Pairwise fun a b => a.same b = false

namespace Distinct

variable {g other : LineageGraph}

theorem empty (guid : Value) (direction : Direction) (depth : Value) :
    (LineageGraph.empty guid direction depth).Distinct := .nil

theorem addRelation (h : g.Distinct) (x : Relation) : (g.addRelation x).Distinct := by
  show (if g.hasRelation x then g.relations else g.relations ++ [x]).Pairwise _
  split
  · exact h
  · rename_i hnew
    refine List.pairwise_append.mpr ⟨h, List.pairwise_singleton _ _, fun y hy z hz => ?_⟩
    obtain rfl := List.mem_singleton.mp hz
    rw [Relation.same_comm, Bool.eq_false_iff]
    exact fun hsame => hnew (hasRelation_iff.mpr ⟨y, hy, hsame⟩)

theorem addRelations (h : g.Distinct) (rs : List Relation) : (g.addRelations rs).Distinct :=
  addRelations_keeps (fun _ x _ h => h.addRelation x) h

theorem ofRelations (guid : Value) (direction : Direction) (depth : Value) (rs : List Relation) :
    (ofRelations guid direction depth rs).Distinct :=
  (empty guid direction depth).addRelations rs

theorem merge (h : g.Distinct) (other : LineageGraph) : (g.merge other).Distinct :=
  merge_keeps (fun _ _ _ h => h) (fun _ x _ h => h.addRelation x) h

end Distinct

end LineageGraph

/-! ## 2. The order of sort keys -/

/-- The two scalars are of one family. -/
def Scalar.SameFamily (x y : Scalar) : Prop := x.family?.isSome = true ∧ y.family? = x.family?

/-- At the first place where two lists differ, the members are of one family. -/
def DifferInFamily (as bs : List Scalar) : Prop :=
  ∀ i, (as.take i).map Scalar.key = (bs.take i).map Scalar.key →
    ∀ x y, as[i]? = some x → bs[i]? = some y → x.key ≠ y.key → x.SameFamily y

/-- What is said of two lists, said of their heads and of their tails. -/
theorem differInFamily_cons (a b : Scalar) (as bs : List Scalar) :
    DifferInFamily (a :: as) (b :: bs) ↔
      if a.key = b.key then DifferInFamily as bs else a.SameFamily b := by
  constructor
  · intro h
    split
    · rename_i hkey
      exact fun i htake x y hx hy => h (i + 1) (by simp [hkey, htake]) x y (by simpa) (by simpa)
    · rename_i hkey
      exact h 0 rfl a b rfl rfl hkey
  · intro h i htake x y hx hy hne
    cases i with
    | zero =>
        cases hx
        cases hy
        rwa [if_neg hne] at h
    | succ i =>
        simp only [List.take_succ_cons, List.map_cons, List.cons.injEq] at htake
        rw [if_pos htake.1] at h
        exact h i htake.2 x y (by simpa using hx) (by simpa using hy) hne

/-- **Two lists of scalars have an order** where the first two members that differ are of one
family. -/
theorem compareAll?_isSome_iff (as bs : List Scalar) :
    (compareAll? as bs).isSome = true ↔ DifferInFamily as bs := by
  induction as generalizing bs with
  | nil => cases bs <;> simp [compareAll?, DifferInFamily]
  | cons a as ih =>
      cases bs with
      | nil => simp [compareAll?, DifferInFamily]
      | cons b bs =>
          rw [differInFamily_cons, compareAll?]
          split
          · exact ih bs
          · exact Key.compare?_isSome a.key b.key

/-- **The two relations have an order**: the first ids in which their sort keys differ are both
numbers, both texts, or both moments of one kind. -/
def Relation.Comparable (a b : Relation) : Prop := DifferInFamily a.sortKey b.sortKey

theorem Relation.Comparable.refl (a : Relation) : a.Comparable a := by
  intro i _ x y hx hy hne
  rw [hx] at hy
  cases hy
  exact absurd rfl hne

theorem Relation.Comparable.symm {a b : Relation} (h : a.Comparable b) : b.Comparable a := by
  intro i htake x y hx hy hne
  obtain ⟨hsome, hfamily⟩ := h i htake.symm y x hy hx hne.symm
  exact ⟨hfamily ▸ hsome, hfamily.symm⟩

/-! ## 3. Listings -/

/-- Every two members can be compared when each pair of them can, both ways. -/
theorem comparable_iff {α : Type} (order : α → α → Option Ordering) (xs : List α) :
    comparable order xs = true ↔
      xs.Pairwise fun x y => (order x y).isSome = true ∧ (order y x).isSome = true := by
  induction xs with
  | nil => exact iff_of_true rfl .nil
  | cons x rest ih => rw [comparable_cons, List.pairwise_cons, ih]

namespace LineageGraph

/-- **Relations can be listed exactly when every two of them have an order.** -/
theorem listing_iff (g : LineageGraph) :
    ((∃ rs, g.listing = .ok rs) ↔ ∀ a ∈ g.relations, ∀ b ∈ g.relations, a.Comparable b) ∧
      ((¬ ∃ rs, g.listing = .ok rs) → g.listing = .error .wrongKind) := by
  have hsorted := sortBy?_isSome (fun r : Relation => families? r.sortKey)
    (fun a b => compareAll? a.sortKey b.sortKey)
    (fun _ _ _ hx hy => compareAll?_isSome hx hy) g.relations
  have hok : (∃ rs, g.listing = .ok rs) ↔
      comparable (fun a b : Relation => compareAll? a.sortKey b.sortKey) g.relations = true := by
    rw [← hsorted]
    unfold listing
    split
    · rename_i rs hrs
      simp [hrs]
    · rename_i hrs
      simp [hrs]
  refine ⟨hok.trans ?_, ?_⟩
  · simp only [comparable_iff, compareAll?_isSome_iff]
    have : Std.Symm Relation.Comparable := ⟨fun _ _ h => h.symm⟩
    constructor
    · intro h a ha b hb
      exact List.Pairwise.forall_of_forall (fun x _ => Relation.Comparable.refl x)
        (h.imp fun hab => hab.1) ha hb
    · intro h
      exact List.pairwise_of_forall_mem_list fun a ha b hb => ⟨h a ha b hb, h b hb a ha⟩
  · intro hnone
    unfold listing at hnone ⊢
    split
    · rename_i rs hrs
      exact absurd ⟨rs, by rw [hrs]⟩ hnone
    · rfl

/-- **Relations whose sort keys are alike in their families can be listed.** -/
theorem comparable_of_families {g : LineageGraph} {fs : List Family}
    (h : ∀ x ∈ g.relations, families? x.sortKey = some fs) :
    ∀ a ∈ g.relations, ∀ b ∈ g.relations, a.Comparable b := fun a ha b hb =>
  (compareAll?_isSome_iff _ _).mp (compareAll?_isSome (h a ha) (h b hb))

/-- **A graph can be written exactly when every two of its relations have an order**, and writing it
fails otherwise. -/
theorem written_iff (g : LineageGraph) (entities : Value) :
    ((∃ v, g.written entities = .ok v) ↔
      ∀ a ∈ g.relations, ∀ b ∈ g.relations, a.Comparable b) ∧
    ((¬ ∃ v, g.written entities = .ok v) → g.written entities = .error .wrongKind) := by
  obtain ⟨hlists, hfails⟩ := g.listing_iff
  have hwritten : (∃ v, g.written entities = .ok v) ↔ ∃ rs, g.listing = .ok rs := by
    unfold written
    cases g.listing with
    | error e => exact iff_of_false (fun ⟨_, h⟩ => nomatch h) fun ⟨_, h⟩ => nomatch h
    | ok rs => exact iff_of_true ⟨_, rfl⟩ ⟨rs, rfl⟩
  refine ⟨hwritten.trans hlists, fun hnone => ?_⟩
  unfold written
  rw [hfails fun hrs => hnone (hwritten.mpr hrs)]
  rfl

/-- **What is written lists every relation once.** -/
theorem written_lists {g : LineageGraph} (hg : g.Distinct) {entities v : Value}
    (h : g.written entities = .ok v) :
    ∃ rs : List Relation, v.field "relations" = .ok (.list (rs.map Relation.toValue)) ∧
      rs.Perm g.relations ∧ rs.Pairwise fun a b => a.same b = false := by
  obtain ⟨rs, hrs, h⟩ := Outcome.bind_eq_ok.mp h
  cases h
  have hperm := listing_perm hrs
  exact ⟨rs, rfl, hperm,
    List.Pairwise.perm hg hperm.symm fun hab => (Relation.same_comm _ _).trans hab⟩

end LineageGraph

end DataLineage
