import DataLineage.Graph.Seed
import DataLineage.Proofs.Graph.Listing
import Mathlib.Data.List.Pairwise

/-!
# Graphs of seed data

The graph of accepted seed data gets all its vertices before its edges, and seed data that uses a
relationship id twice is not accepted. So such a graph is more than one that was built:

* `MemoryGraph.Seeded` -- edges end at the vertices that are found, their relationship ids are
  scalars, and no two edges share one that is not null;
* `MemoryGraph.ofSeed_seeded` -- **the graph of seed data is of this kind**;
* `DistinctIds.eq_of_key` -- an edge is told by its relationship id.
-/

namespace DataLineage

/-! ## 1. Edges told by their relationship ids -/

/-- Do the relationship ids of two edges differ, where they are ids at all? -/
def Edge.IdsDiffer (a b : Edge) : Prop :=
  ∀ s t : Scalar, a.relationshipId = .scalar s → b.relationshipId = .scalar t → s ≠ .null →
    s.key ≠ t.key

/-- **No two edges of the list share a relationship id**, but for the null one. -/
def DistinctIds (es : List Edge) : Prop := es.Pairwise Edge.IdsDiffer

theorem Edge.IdsDiffer.symm {a b : Edge} (h : a.IdsDiffer b) : b.IdsDiffer a := by
  intro t s ht hs hn hk
  refine h s t hs ht (fun hnull => hn ?_) hk.symm
  rw [hnull] at hk
  exact (Scalar.key_eq_null_iff t).mp hk

/-- **An edge is told by its relationship id**, if it has one. -/
theorem DistinctIds.eq_of_key {es : List Edge} (h : DistinctIds es) {a b : Edge} (ha : a ∈ es)
    (hb : b ∈ es) {s t : Scalar} (hs : a.relationshipId = .scalar s)
    (ht : b.relationshipId = .scalar t) (hn : s ≠ .null) (hk : s.key = t.key) : a = b := by
  refine Classical.byContradiction fun hab => ?_
  have : Std.Symm Edge.IdsDiffer := ⟨fun _ _ h => h.symm⟩
  exact h.forall ha hb hab s t hs ht hn hk

/-! ## 2. Distinct relationship ids of seed data -/

namespace Seed

/-- Do the ids of two relationships differ, where they are ids at all? -/
def IdsDiffer (a b : Value) : Prop :=
  ∀ s t : Scalar, a = .scalar s → b = .scalar t → s ≠ .null → s.key ≠ t.key

/-- An id that is accepted is a scalar, and none of those in use. -/
theorem checkUniqueId_ok {used used' : Std.HashSet Key} {id : Value}
    (h : checkUniqueId used id = .ok used') :
    ∃ s, id = .scalar s ∧ (s ≠ .null → used.contains s.key = false ∧
      used'.contains s.key = true) ∧ ∀ k, used.contains k = true → used'.contains k = true := by
  unfold checkUniqueId at h
  by_cases hn : id.isNull = true
  · rw [if_pos hn] at h
    cases h
    exact ⟨.null, (Value.isNull_iff id).mp hn, fun hs => absurd rfl hs, fun _ hk => hk⟩
  · rw [if_neg hn] at h
    obtain ⟨k, hk, h⟩ := Outcome.bind_eq_ok.mp h
    obtain ⟨s, rfl, rfl⟩ := (Value.key_eq_ok_iff _ _).mp hk
    cases hc : used.contains s.key with
    | true =>
        rw [hc] at h
        cases h
    | false =>
        rw [hc] at h
        cases h
        refine ⟨s, rfl, fun _ => ⟨hc, Std.HashSet.contains_insert_self⟩, fun k hk => ?_⟩
        rw [Std.HashSet.contains_insert, hk, Bool.or_true]

/-- An accepted relationship has the id that was checked. -/
theorem checkRelationship_ok {t : Taxonomy} {ids : TypesById} {used used' : Std.HashSet Key}
    {relationship : Value} {r : SeedRelationship}
    (h : checkRelationship t ids used relationship = .ok (r, used')) :
    checkUniqueId used r.id = .ok used' := by
  unfold checkRelationship at h
  cases relationship with
  | scalar s => cases h
  | list xs => cases h
  | set members => cases h
  | record fields =>
      simp only at h
      split at h
      · cases h
      · split at h
        · cases h
        · obtain ⟨st, _, h⟩ := Outcome.bind_eq_ok.mp h
          obtain ⟨tt, _, h⟩ := Outcome.bind_eq_ok.mp h
          obtain ⟨p, _, h⟩ := Outcome.bind_eq_ok.mp h
          split at h
          · cases h
          · obtain ⟨d, _, h⟩ := Outcome.bind_eq_ok.mp h
            split at h
            · cases h
            · obtain ⟨used₁, hu, h⟩ := Outcome.bind_eq_ok.mp h
              cases h
              exact hu

/-- **Accepted relationships have distinct ids**, none of those in use before. -/
theorem checkRelationships_distinct {t : Taxonomy} {ids : TypesById} {relationships : List Value}
    {used : Std.HashSet Key} {rs : List SeedRelationship}
    (h : checkRelationships t ids relationships used = .ok rs) :
    rs.Pairwise (fun a b => IdsDiffer a.id b.id) ∧
      ∀ r ∈ rs, ∃ s, r.id = .scalar s ∧ (s ≠ .null → used.contains s.key = false) := by
  induction relationships generalizing used rs with
  | nil =>
      cases h
      exact ⟨.nil, fun _ hr => absurd hr List.not_mem_nil⟩
  | cons x rest ih =>
      obtain ⟨⟨r, used'⟩, hr, h⟩ := Outcome.bind_eq_ok.mp h
      obtain ⟨rs', hrs, h⟩ := Outcome.bind_eq_ok.mp h
      cases h
      obtain ⟨hpair, hall⟩ := ih hrs
      obtain ⟨s, hs, hnew, hkeep⟩ := checkUniqueId_ok (checkRelationship_ok hr)
      refine ⟨List.pairwise_cons.mpr ⟨fun b hb s' u hs' hu hn hk => ?_, hpair⟩, fun b hb => ?_⟩
      · rw [hs] at hs'
        cases hs'
        obtain ⟨u', hu', hunused⟩ := hall b hb
        rw [hu] at hu'
        cases hu'
        have hun : u ≠ .null := fun hnull => hn ((Scalar.key_eq_null_iff s).mp (by rw [hk, hnull]; rfl))
        have hin := (hnew hn).2
        rw [hk, hunused hun] at hin
        cases hin
      · rcases List.mem_cons.mp hb with rfl | hb
        · exact ⟨s, hs, fun hn => (hnew hn).1⟩
        · obtain ⟨u, hu, hunused⟩ := hall b hb
          refine ⟨u, hu, fun hn => ?_⟩
          rw [Bool.eq_false_iff]
          intro hc
          have := hunused hn
          rw [hkeep _ hc] at this
          cases this

end Seed

/-! ## 3. Graphs of seed data -/

namespace MemoryGraph

/-- **A graph as seed data makes it.** -/
structure Seeded (g : MemoryGraph) : Prop where
  built : g.Built
  ends : ∀ e ∈ g.added.toList, ∀ side, ∃ k, (e.endAt side).id.key = .ok k ∧
    g.vertices[k]? = some (e.endAt side)
  ids : ∀ e ∈ g.added.toList, ∃ s, e.relationshipId = .scalar s
  distinct : DistinctIds g.added.toList

/-- Assets make a graph without edges. -/
theorem addAssets_built {g g' : MemoryGraph} {assets : List (Scalar × List Record)}
    (hg : g.Built ∧ g.added = #[]) (h : g.addAssets assets = .ok g') :
    g'.Built ∧ g'.added = #[] := by
  unfold addAssets at h
  refine Outcome.foldlM_keeps (P := fun g : MemoryGraph => g.Built ∧ g.added = #[])
    (fun g₁ p _ g₂ hg₁ hp => ?_) hg h
  obtain ⟨typeName, records⟩ := p
  refine Outcome.foldlM_keeps (P := fun g : MemoryGraph => g.Built ∧ g.added = #[])
    (fun g₃ asset _ g₄ hg₃ ha => ?_) hg₁ hp
  obtain ⟨⟨v, g₅⟩, hv, ha⟩ := Outcome.bind_eq_ok.mp ha
  cases ha
  refine ⟨.vertex hg₃.1 hv, ?_⟩
  obtain ⟨key, _, _, rfl⟩ := addVertex_vertices hv
  exact hg₃.2

/-- One more relationship makes one more edge, between vertices that are found. -/
theorem addRelationships_seeded {g g' : MemoryGraph} {rs : List SeedRelationship}
    (hb : g.Built) (hends : ∀ e ∈ g.added.toList, ∀ side, ∃ k, (e.endAt side).id.key = .ok k ∧
      g.vertices[k]? = some (e.endAt side))
    (h : g.addRelationships rs = .ok g') :
    g'.Built ∧ (∀ e ∈ g'.added.toList, ∀ side, ∃ k, (e.endAt side).id.key = .ok k ∧
      g'.vertices[k]? = some (e.endAt side)) ∧
      g'.added.toList.map Edge.relationshipId =
        g.added.toList.map Edge.relationshipId ++ rs.map SeedRelationship.id := by
  unfold addRelationships at h
  induction rs generalizing g with
  | nil =>
      cases h
      exact ⟨hb, hends, (List.append_nil _).symm⟩
  | cons r rest ih =>
      rw [List.foldlM_cons] at h
      obtain ⟨g₁, h₁, h⟩ := Outcome.bind_eq_ok.mp h
      obtain ⟨⟨e, g₂⟩, he, h₁⟩ := Outcome.bind_eq_ok.mp h₁
      cases h₁
      obtain ⟨k, _, hsk, htk, hs, ht, _, hid, hg₁⟩ := addEdge_ok he
      have hvertices : g₁.vertices = g.vertices := by rw [hg₁]
      have hadded : g₁.added.toList = g.added.toList ++ [e] := by rw [hg₁, Array.toList_push]
      have hstored := hb.indexed.stored
      have hends₁ : ∀ x ∈ g₁.added.toList, ∀ side, ∃ k, (x.endAt side).id.key = .ok k ∧
          g₁.vertices[k]? = some (x.endAt side) := fun x hx side => by
        rw [hvertices]
        rw [hadded, List.mem_append, List.mem_singleton] at hx
        rcases hx with hx | rfl
        · exact hends x hx side
        · cases side with
          | incoming => exact ⟨k.target, hstored _ _ ht, ht⟩
          | outgoing => exact ⟨k.source, hstored _ _ hs, hs⟩
      obtain ⟨hb', hends', hids⟩ := ih (.edge hb he) hends₁ h
      refine ⟨hb', hends', ?_⟩
      rw [hids, hadded, List.map_append, List.append_assoc, List.map_cons, List.map_nil, hid]
      rfl

/-- **The graph of seed data is as seed data makes it.** -/
theorem ofSeed_seeded {t : Taxonomy} {data : Value} {g : MemoryGraph} (h : ofSeed t data = .ok g) :
    g.Seeded := by
  obtain ⟨seed, hseed, h⟩ := Outcome.bind_eq_ok.mp h
  obtain ⟨g₁, hassets, hrel⟩ := Outcome.bind_eq_ok.mp h
  obtain ⟨hb₁, ha₁⟩ := addAssets_built ⟨.empty, rfl⟩ hassets
  have hnone : ∀ e ∈ g₁.added.toList, ∀ side, ∃ k, (e.endAt side).id.key = .ok k ∧
      g₁.vertices[k]? = some (e.endAt side) := fun e he => by
    rw [ha₁] at he
    exact absurd he List.not_mem_nil
  obtain ⟨hb, hends, hids⟩ := addRelationships_seeded hb₁ hnone hrel
  rw [ha₁] at hids
  have hids : g.added.toList.map Edge.relationshipId = seed.relationships.map SeedRelationship.id :=
    hids
  -- the relationships were accepted together
  have hrs : seed.relationships.Pairwise (fun a b => Seed.IdsDiffer a.id b.id) ∧
      ∀ r ∈ seed.relationships, ∃ s, r.id = .scalar s := by
    unfold Seed.validate at hseed
    obtain ⟨a, _, hseed⟩ := Outcome.bind_eq_ok.mp hseed
    split at hseed
    · obtain ⟨⟨assets, ids⟩, _, hseed⟩ := Outcome.bind_eq_ok.mp hseed
      obtain ⟨b, _, hseed⟩ := Outcome.bind_eq_ok.mp hseed
      split at hseed
      · obtain ⟨rs, hrs, hseed⟩ := Outcome.bind_eq_ok.mp hseed
        cases hseed
        obtain ⟨hpair, hall⟩ := Seed.checkRelationships_distinct hrs
        exact ⟨hpair, fun r hr => (hall r hr).imp fun _ h => h.1⟩
      · cases hseed
    · cases hseed
  refine ⟨hb, hends, fun e he => ?_, ?_⟩
  · have hmem : e.relationshipId ∈ seed.relationships.map SeedRelationship.id :=
      hids ▸ List.mem_map_of_mem he
    obtain ⟨r, hr, hre⟩ := List.mem_map.mp hmem
    exact hre ▸ hrs.2 r hr
  · have hpair : (g.added.toList.map Edge.relationshipId).Pairwise Seed.IdsDiffer := by
      rw [hids]
      exact List.pairwise_map.mpr hrs.1
    show g.added.toList.Pairwise fun a b => Seed.IdsDiffer a.relationshipId b.relationshipId
    exact List.pairwise_map.mp hpair

end MemoryGraph

end DataLineage
