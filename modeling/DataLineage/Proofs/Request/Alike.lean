import DataLineage.Proofs.Lineage.Twin
import DataLineage.Proofs.Request.Admitted

/-!
# Requests with matching outcomes

Two requests, made to two services, have matching outcomes when everything on the way to the answer
matches: their parts, the roots that are found, and the lineages of their contexts.

* `Outcome.Alike.map_eq`, `Outcome.Alike.eq_map` -- what outcomes that match have in common;
* `Terms.contextFor_alike` -- **a root is accepted by the one as by the other**, if both have the
  same guid, attributes, mode, types and authorizer;
* `Terms.contextFor_twin` -- and so is a root as a twin of it, if neither projector nor authorizer
  nor filters look at the property `id`;
* `LineageRequest.context_alike`, `Service.info_alike`, `Service.resolve_alike` -- the way from the
  parts of two requests to their answers.
-/

namespace DataLineage

/-- Outcomes that match in what is asked for are equal in it. -/
theorem Outcome.Alike.map_eq {α β γ : Type} {f : α → γ} {g : β → γ} {x : Outcome α} {y : Outcome β}
    (h : Alike (fun a b => f a = g b) x y) : x.map f = y.map g := by
  cases h with
  | ok h => exact congrArg Except.ok h
  | error e => rfl

/-- Outcomes of which one is made from the other are told by it. -/
theorem Outcome.Alike.eq_map {α β : Type} {f : α → β} {x : Outcome α} {y : Outcome β}
    (h : Alike (fun a b => b = f a) x y) : y = x.map f := by
  cases h with
  | ok h => exact congrArg Except.ok h
  | error e => rfl

/-- The parts of two requests and what the two services know match as far as the root is
concerned. -/
structure Terms.Matches (t t' : Terms) (p p' : Policy) : Prop where
  guid : t.guid = t'.guid
  attributes : t.attributes = t'.attributes
  hideProcess : t.hideProcess = t'.hideProcess
  taxonomy : p.taxonomy = p'.taxonomy
  authorizer : p.authorizer = p'.authorizer

/-- **A root is accepted by the one as by the other**, or refused with the same fault. -/
theorem Terms.contextFor_alike {t t' : Terms} {p p' : Policy} (h : t.Matches t' p p')
    (root? : Option Vertex) :
    Outcome.Alike (fun k k' => ∃ root isDataset,
        k = t.contextOf p root isDataset ∧ k' = t'.contextOf p' root isDataset)
      (t.contextFor p root?) (t'.contextFor p' root?) := by
  obtain ⟨guid, direction, budget, requestedDepth, hideProcess, criteria, attributes⟩ := t
  obtain ⟨guid', direction', budget', requestedDepth', hideProcess', criteria', attributes'⟩ := t'
  obtain ⟨taxonomy, projector, authorizer⟩ := p
  obtain ⟨taxonomy', projector', authorizer'⟩ := p'
  obtain ⟨rfl, rfl, rfl, rfl, rfl⟩ := h
  unfold contextFor
  cases root? with
  | none => exact .error _
  | some root =>
      refine .bind_self _ fun header => .bind_self _ fun permitted => ?_
      cases permitted with
      | false => exact .error _
      | true =>
          refine .bind_self _ fun isDataset => ?_
          cases isDataset with
          | true => exact .ok ⟨root, true, rfl, rfl⟩
          | false =>
              refine .bind_self _ fun isProcess => ?_
              cases isProcess with
              | false => exact .error _
              | true =>
                  show Outcome.Alike _ (if Value.truth _ then throw _ else _)
                    (if Value.truth _ then throw _ else _)
                  split
                  · exact .error _
                  · exact .ok ⟨root, false, rfl, rfl⟩

/-- **The filters of the request do not look at the property `id`.** -/
def LineageRequest.Blind (r : LineageRequest) : Prop :=
  ∀ cs, r.filters.criteria = .ok cs → CriteriaBlind cs

/-- **Requests with matching parts have matching contexts**, where the same root is found. -/
theorem LineageRequest.context_alike {r r' : LineageRequest} {p p' : Policy}
    {g g' : GraphAccess Outcome} {T : Terms → Terms → Prop}
    (hterms : Outcome.Alike T r.terms r'.terms) (hT : ∀ t t', T t t' → t.Matches t' p p')
    (hfind : g.find r.guid = g'.find r'.guid) :
    Outcome.Alike (fun k k' => ∃ t t' root isDataset, T t t' ∧
        k = t.contextOf p root isDataset ∧ k' = t'.contextOf p' root isDataset)
      (r.context p g) (r'.context p' g') := by
  rw [context_eq, context_eq, hfind]
  refine hterms.bind fun t t' ht => .bind_self _ fun root? => ?_
  refine (Terms.contextFor_alike (hT t t' ht) root?).imp fun k k' hk => ?_
  obtain ⟨root, isDataset, hk, hk'⟩ := hk
  exact ⟨t, t', root, isDataset, ht, hk, hk'⟩

namespace Service

variable {s s' : Service Outcome} {r r' : LineageRequest} {R : Context → Context → Prop}
  {S : LineageGraph → LineageGraph → Prop}

/-- The answer to a request is the lineage of its context. -/
theorem info_bind (s : Service Outcome) (r : LineageRequest) :
    s.info r = s.context r >>= fun c => s.lineageOf c >>= fun lineage => .ok ⟨c, lineage⟩ := by
  cases h : s.context r with
  | error e =>
      unfold info
      rw [h]
      rfl
  | ok c => exact info_eq h

/-- **Matching contexts with matching lineages make matching answers.** -/
theorem info_alike (hcontext : Outcome.Alike R (s.context r) (s'.context r'))
    (hlineage : ∀ k k', R k k' → Outcome.Alike S (s.lineageOf k) (s'.lineageOf k')) :
    Outcome.Alike (fun a b => R a.context b.context ∧ S a.lineage b.lineage) (s.info r)
      (s'.info r') := by
  rw [info_bind, info_bind]
  exact hcontext.bind fun k k' hk => (hlineage k k' hk).bind fun l l' hl => .ok ⟨hk, hl⟩

/-- **Requests that match once their collections are read have matching answers.** -/
theorem resolve_alike {Q : LineageRequest → LineageRequest → Prop}
    (hcollected : Outcome.Alike Q r.collected r'.collected)
    {P : Resolution → Resolution → Prop}
    (hinfo : ∀ q q', Q q q' → Outcome.Alike P (s.info q) (s'.info q')) :
    Outcome.Alike P (s.resolve r) (s'.resolve r') := by
  rw [resolve_eq, resolve_eq]
  exact hcollected.bind hinfo

end Service

end DataLineage
