import DataLineage.Proofs.Walk.Reference
import Mathlib.Data.Set.Card

/-!
# References within references

The relations of a lineage are said without a walk, so that the lineages of two requests can be
compared although the two walks visit their vertices in different orders:

* `Context.Narrows` -- a request that admits no more than another around the same root,
  `Context.Narrows.opens` -- opens no more pairs;
* `Deepens` -- a depth that goes at least as far as another, where 0 goes any far;
* `Terrain.Reference.mono` -- **the reference grows with the depth and with what is admitted**;
* `Nearest.lt_ncard` -- a nearest way has fewer hops than there is to hop to;
* `Terrain.Reference.saturates` -- so **a depth beyond the number of datasets goes any far**.
-/

namespace DataLineage

/-! ## 1. Requests that admit less -/

/-- **The request admits no more than the other**, around the same root and in the same mode. -/
structure Context.Narrows (c c' : Context) : Prop where
  root : c.root = c'.root
  isDataset : c.isDataset = c'.isDataset
  hides : c.hidesProcesses = c'.hidesProcesses
  admits : ∀ v, c.admits v = .ok true → c'.admits v = .ok true

namespace Context.Narrows

variable {c c' : Context}

theorem sees (h : c.Narrows c') {v : Vertex} (hv : c.Sees v) : c'.Sees v := by
  refine hv.imp (fun hroot => ?_) (h.admits v)
  unfold isRoot at hroot ⊢
  rw [← h.root]
  exact hroot

/-- **What is open to the narrower request** is open to the other. -/
theorem opens (h : c.Narrows c') {requireBoth : Bool} {into out : Edge}
    (ho : c.Opens requireBoth into out) : c'.Opens requireBoth into out := by
  unfold Opens at ho ⊢
  rw [← h.hides]
  cases hm : c.hidesProcesses with
  | true =>
      rw [hm] at ho
      exact ⟨h.admits _ ho.1, h.sees ho.2⟩
  | false =>
      rw [hm] at ho
      cases requireBoth with
      | true => exact ⟨h.sees ho.1, h.sees ho.2⟩
      | false => exact ho.imp h.sees h.sees

theorem pairFlow_iff (h : c.Narrows c') {labels : EdgeLabels} {into out : Edge} {x : Relation} :
    c.PairFlow labels into out x ↔ c'.PairFlow labels into out x := by
  unfold PairFlow
  rw [h.hides]

theorem rootEdges_eq (h : c.Narrows c') (t : Terrain) : t.rootEdges c = t.rootEdges c' := by
  unfold Terrain.rootEdges
  rw [h.root]

end Context.Narrows

/-! ## 2. Depths that go further -/

/-- **The second depth goes at least as far as the first**: it is 0, which goes any far, or no less
than the first, which is not 0. -/
def Deepens (n n' : Nat) : Prop := n' = 0 ∨ 0 < n ∧ n ≤ n'

theorem Deepens.refl (n : Nat) : Deepens n n := by
  unfold Deepens
  omega

theorem Deepens.allows {n n' j : Nat} (h : Deepens n n') (hj : n = 0 ∨ j < n) :
    n' = 0 ∨ j < n' := by
  unfold Deepens at h
  omega

namespace Terrain

variable {t : Terrain} {c c' : Context} {requireBoth : Bool} {n n' spare : Nat} {v : Vertex}
  {d : Key} {labels : EdgeLabels} {x : Relation}

theorem ReachedBy.mono (h : c.Narrows c') (hn : Deepens n n')
    (hd : t.ReachedBy c requireBoth n spare v d) : t.ReachedBy c' requireBoth n' spare v d := by
  obtain ⟨start, j, hstart, hj, hreach⟩ := hd
  refine ⟨start, j, hstart, hn.allows hj, hreach.mono fun a b hab => ?_⟩
  obtain ⟨into, out, hp, ho, hb⟩ := hab
  exact ⟨into, out, hp, h.opens ho, hb⟩

/-- **The reference grows with the depth and with what is admitted**: a relation that a request has
is one of every request that goes at least as far and admits no less. -/
theorem Reference.mono (h : c.Narrows c') (hn : Deepens n n')
    (hx : t.Reference labels c requireBoth n x) : t.Reference labels c' requireBoth n' x := by
  cases hx with
  | pair hc hd hp ho hx =>
      exact .pair (h.isDataset ▸ hc) (h.root ▸ hd.mono h hn) hp (h.opens ho) (h.pairFlow_iff.mp hx)
  | first hc he hx => exact .first (h.isDataset ▸ hc) (h.rootEdges_eq t ▸ he) hx
  | beyond hc he hd hp ho hx =>
      exact .beyond (h.isDataset ▸ hc) (h.rootEdges_eq t ▸ he) (hd.mono h hn) hp (h.opens ho)
        (h.pairFlow_iff.mp hx)

end Terrain

/-! ## 3. Depths that go any far -/

/-- **A nearest way has fewer hops than there are things to hop to**, with the start among them: it
meets a different one at each distance. -/
theorem Nearest.lt_ncard {α : Type} {hop : α → α → Prop} {S : Set α} {n : Nat} {a b : α}
    (hS : S.Finite) (ha : a ∈ S) (hhop : ∀ c d, hop c d → d ∈ S) (h : Nearest hop n a b) :
    n < S.ncard := by
  have hmet : ∃ met : Finset α, met.card = n + 1 ∧
      ∀ c ∈ met, c ∈ S ∧ ∃ i ≤ n, Nearest hop i a c := by
    induction n generalizing b with
    | zero =>
        refine ⟨{a}, Finset.card_singleton a, fun c hc => ?_⟩
        obtain rfl := Finset.mem_singleton.mp hc
        exact ⟨ha, 0, Nat.le_refl 0, .start c⟩
    | succ n ih =>
        obtain ⟨c, hc, hcb⟩ := h.last
        obtain ⟨met, hcard, hmet⟩ := ih hc
        -- what was met so far lies nearer than the end
        have hb : b ∉ met := by
          intro hb
          obtain ⟨_, i, hi, hnear⟩ := hmet b hb
          have := hnear.unique h
          omega
        refine ⟨met.cons b hb, by rw [Finset.card_cons, hcard], fun d hd => ?_⟩
        rcases Finset.mem_cons.mp hd with rfl | hd
        · exact ⟨hhop c d hcb, n + 1, Nat.le_refl _, h⟩
        · obtain ⟨hd, i, hi, hnear⟩ := hmet d hd
          exact ⟨hd, i, Nat.le_succ_of_le hi, hnear⟩
  obtain ⟨met, hcard, hmet⟩ := hmet
  have hle : (met : Set α).ncard ≤ S.ncard := Set.ncard_le_ncard (fun c hc => (hmet c hc).1) hS
  rw [Set.ncard_coe_finset, hcard] at hle
  exact hle

namespace Terrain

variable {t : Terrain} {c : Context} {requireBoth : Bool} {m n spare : Nat} {v : Vertex} {d : Key}
  {labels : EdgeLabels} {x : Relation} {S : Set Key}

/-- What is reached at all is reached by fewer hops than there are datasets. -/
theorem ReachedBy.saturates (hS : S.Finite) (hn : S.ncard < n) (hspare : spare ≤ 1)
    (hends : ∀ e ∈ t.edges, ∀ k, e.target.id.key = .ok k → k ∈ S)
    (hstart : ∀ k, v.id.key = .ok k → k ∈ S) (hd : t.ReachedBy c requireBoth m spare v d) :
    t.ReachedBy c requireBoth n spare v d := by
  obtain ⟨start, j, hk, _, hreach⟩ := hd
  obtain ⟨i, _, hnear⟩ := hreach.nearest
  have hi : i < S.ncard := by
    refine hnear.lt_ncard hS (hstart start hk) fun a b hab => ?_
    obtain ⟨_, out, hp, _, hb⟩ := hab
    exact hends out hp.out_mem b hb
  exact ⟨start, i, hk, .inr (by omega), hnear.1⟩

/-- **A depth beyond the number of datasets goes any far**: the relations of any depth are relations
of it. -/
theorem Reference.saturates (hS : S.Finite) (hn : S.ncard < n)
    (hends : ∀ e ∈ t.edges, ∀ k, e.target.id.key = .ok k → k ∈ S)
    (hroot : c.isDataset = true → ∀ k, c.root.id.key = .ok k → k ∈ S)
    (hx : t.Reference labels c requireBoth m x) : t.Reference labels c requireBoth n x := by
  cases hx with
  | pair hc hd hp ho hx =>
      exact .pair hc (hd.saturates hS hn (Nat.zero_le 1) hends (hroot hc)) hp ho hx
  | first hc he hx => exact .first hc he hx
  | @beyond e _ _ _ _ hc he hd hp ho hx =>
      -- the first hop of a process is spent on its edge, which leads to a dataset
      have he' : e ∈ t.edges := (mem_rootEdges.mp he).1
      exact .beyond hc he (hd.saturates hS hn (Nat.le_refl 1) hends (hends e he')) hp ho hx

end Terrain

end DataLineage
