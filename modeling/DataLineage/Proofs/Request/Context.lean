import DataLineage.Request
import DataLineage.Proofs.Graph.Listing

/-!
# What a context takes over from its request

A request that is accepted has a root that is found under its guid, and its context says the rest
word by word:

* `LineageRequest.context_ok` -- the context of an accepted request;
* `LineageRequest.root_key` -- the root of a graph in memory is kept under the key of the guid.
-/

namespace DataLineage

/-- An accepted depth is a whole number, and its budget is the one of that number. -/
theorem LineageRequest.checkDepth_ok {r : LineageRequest} {b : HopBudget}
    (h : r.checkDepth = .ok b) :
    ∃ n : Nat, r.depth.wholeNumber? = some (n : Int) ∧ b = .ofDepth n := by
  unfold checkDepth at h
  split at h
  · rename_i n hn
    cases h
    exact ⟨n, hn, rfl⟩
  · cases h

/-- The checked parts of a request are its own. -/
theorem LineageRequest.terms_ok {r : LineageRequest} {t : Terms} (h : r.terms = .ok t) :
    t.guid = r.guid ∧ t.requestedDepth = r.depth ∧
      ∃ n : Nat, r.depth.wholeNumber? = some (n : Int) ∧ t.budget = .ofDepth n := by
  obtain ⟨direction, _, h⟩ := Outcome.bind_eq_ok.mp h
  obtain ⟨budget, hb, h⟩ := Outcome.bind_eq_ok.mp h
  obtain ⟨criteria, _, h⟩ := Outcome.bind_eq_ok.mp h
  obtain ⟨items, _, h⟩ := Outcome.bind_eq_ok.mp h
  obtain ⟨attributes, _, h⟩ := Outcome.bind_eq_ok.mp h
  cases h
  exact ⟨rfl, rfl, checkDepth_ok hb⟩

/-- An admitted root is the one that was found, and a process only where it is no dataset. -/
theorem Terms.contextFor_ok {t : Terms} {p : Policy} {root? : Option Vertex} {c : Context}
    (h : t.contextFor p root? = .ok c) :
    ∃ root, root? = some root ∧ c.root = root ∧ c.guid = t.guid ∧ c.budget = t.budget ∧
      c.requestedDepth = t.requestedDepth ∧ c.projector = p.projector ∧
      (c.isDataset = false → c.hidesProcesses = false) := by
  cases root? with
  | none => cases h
  | some root =>
      refine ⟨root, rfl, ?_⟩
      unfold contextFor at h
      obtain ⟨header, _, h⟩ := Outcome.bind_eq_ok.mp h
      obtain ⟨permitted, _, h⟩ := Outcome.bind_eq_ok.mp h
      cases permitted with
      | false => cases h
      | true =>
          obtain ⟨isDataset, _, h⟩ := Outcome.bind_eq_ok.mp h
          cases isDataset with
          | true =>
              cases h
              exact ⟨rfl, rfl, rfl, rfl, rfl, fun h => nomatch h⟩
          | false =>
              obtain ⟨isProcess, _, h⟩ := Outcome.bind_eq_ok.mp h
              cases isProcess with
              | false => cases h
              | true =>
                  cases hm : t.hideProcess.truth with
                  | true =>
                      simp only [Bool.not_false, Bool.not_true, hm] at h
                      cases h
                  | false =>
                      simp only [Bool.not_false, Bool.not_true, hm] at h
                      cases h
                      exact ⟨rfl, rfl, rfl, rfl, rfl, fun _ => hm⟩

/-- **The context of an accepted request**: its root is found under its guid, and its budget is that
of the requested depth. -/
theorem LineageRequest.context_ok {r : LineageRequest} {p : Policy} {g : GraphAccess Outcome}
    {c : Context} (h : r.context p g = .ok c) :
    g.find r.guid = .ok (some c.root) ∧ c.guid = r.guid ∧ c.requestedDepth = r.depth ∧
      c.projector = p.projector ∧ (c.isDataset = false → c.hidesProcesses = false) ∧
      ∃ n : Nat, r.depth.wholeNumber? = some (n : Int) ∧ c.budget = .ofDepth n := by
  have h : (MonadExcept.ofExcept r.terms >>= fun terms => g.find r.guid >>= fun root? =>
      (MonadExcept.ofExcept (terms.contextFor p root?) : Outcome Context)) = .ok c := h
  obtain ⟨terms, ht, h⟩ := Outcome.bind_eq_ok.mp h
  obtain ⟨root?, hfound, h⟩ := Outcome.bind_eq_ok.mp h
  have ht : r.terms = .ok terms := by
    cases hr : r.terms with
    | error e =>
        rw [hr] at ht
        cases ht
    | ok a =>
        rw [hr] at ht
        exact ht
  have hc : terms.contextFor p root? = .ok c := by
    cases hr : terms.contextFor p root? with
    | error e =>
        rw [hr] at h
        cases h
    | ok a =>
        rw [hr] at h
        exact h
  obtain ⟨hguid, hdepth, n, hn, hbudget⟩ := terms_ok ht
  obtain ⟨root, hroot, hr, hg, hb, hd, hp, hm⟩ := Terms.contextFor_ok hc
  refine ⟨?_, hg.trans hguid, hd.trans hdepth, hp, hm, n, hn, hb.trans hbudget⟩
  rw [hfound, hroot, hr]

/-- **The root of a graph in memory is kept under the key of the guid.** -/
theorem LineageRequest.root_key {g : MemoryGraph} (hg : g.Built) {r : LineageRequest} {root : Vertex}
    (h : g.find r.guid = .ok (some root)) :
    ∃ k, r.guid.key = .ok k ∧ root.id.key = .ok k ∧ g.vertices[k]? = some root := by
  obtain ⟨k, hk, h⟩ := Outcome.bind_eq_ok.mp h
  have hv : g.vertices[k]? = some root := Except.ok.inj h
  exact ⟨k, hk, hg.indexed.stored k root hv, hv⟩

/-- A guid that is not what is not a number has another key. -/
theorem Value.key_ne_nan {v : Value} {k : Key} (hk : v.key = .ok k) (h : v ≠ .float .nan) :
    k ≠ .nan := by
  obtain ⟨s, rfl, rfl⟩ := (Value.key_eq_ok_iff _ _).mp hk
  exact fun hn => h (congrArg Value.scalar ((Scalar.key_eq_nan_iff s).mp hn))

end DataLineage
