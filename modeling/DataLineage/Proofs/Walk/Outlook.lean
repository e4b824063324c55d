import DataLineage.Proofs.Recording.Passing
import DataLineage.Proofs.Walk.Pairs

/-!
# Walks in any monad, over edges in any order

A walk is written for any monad, and a graph may list its edges in one order today and in another
tomorrow. What becomes of a walk is then not one outcome, but it can be said what all its outcomes
have in common:

* `Outlook` -- a way to say this, with a rule for each construct of a walk;
  `Outlook.direct` -- in the monad of outcomes there is just the outcome itself;
* `Walker.Surveys` -- **the graph lists the edges of a terrain**, in any order;
* `Walker.expand_ends` -- an expansion is one fold over the pairs at its dataset, in some order;
* `Walker.takePairs_error` -- such a fold fails only where a call fails.
-/

namespace DataLineage

/-! ## 1. Outlooks -/

/-- **A way to say what becomes of computations in a monad**: `ends x Q` says that every outcome of
`x` meets `Q`. -/
structure Outlook (m : Type → Type) [Monad m] [MonadExceptOf Fault m] where
  ends : {α : Type} → m α → (Outcome α → Prop) → Prop
  imp : ∀ {α : Type} {x : m α} {P Q : Outcome α → Prop}, ends x P → (∀ o, P o → Q o) → ends x Q
  ofExcept : ∀ {α : Type} {o : Outcome α} {Q : Outcome α → Prop}, Q o →
    ends (MonadExcept.ofExcept o) Q
  bind : ∀ {α β : Type} {x : m α} {f : α → m β} {P : Outcome α → Prop} {Q : Outcome β → Prop},
    ends x P → (∀ a, P (.ok a) → ends (f a) Q) → (∀ e, P (.error e) → Q (.error e)) →
    ends (x >>= f) Q

namespace Outlook

variable {m : Type → Type} [Monad m] [MonadExceptOf Fault m] {α β : Type}

theorem pure (O : Outlook m) {a : α} {Q : Outcome α → Prop} (h : Q (.ok a)) :
    O.ends (pure a) Q := O.ofExcept (o := .ok a) h

/-- What is worked out without the monad comes first. -/
theorem ofExcept_bind (O : Outlook m) {x : Outcome α} {f : α → m β} {Q : Outcome β → Prop}
    (hok : ∀ a, x = .ok a → O.ends (f a) Q) (herror : ∀ e, x = .error e → Q (.error e)) :
    O.ends (MonadExcept.ofExcept x >>= f) Q :=
  O.bind (P := (· = x)) (O.ofExcept rfl) (fun a h => hok a h.symm) fun e h => herror e h.symm

/-- **In the monad of outcomes** a computation has one outcome, which is itself. -/
def direct : Outlook Outcome where
  ends x Q := Q x
  imp h hPQ := hPQ _ h
  ofExcept {_ o _} h := by
    rw [Walker.ofExcept_eq]
    exact h
  bind {_ _ x _ _ _} h hok herror := by
    cases x with
    | ok a => exact hok a h
    | error e => exact herror e h

end Outlook

/-! ## 2. Graphs that list their edges in any order -/

section

variable {m : Type → Type} [Monad m] [MonadExceptOf Fault m]

/-- **The walker surveys the terrain**: its graph lists, in any order, the edges of the terrain at
every vertex that is known, and the ends of these edges are known. -/
structure Walker.Surveys (w : Walker m) (O : Outlook m) (known : Vertex → Prop) (backward : Bool)
    (t : Terrain) : Prop where
  edges : ∀ {v : Vertex} {k : Key} (side : Side) {label : Value} {l : Key}, known v →
    v.id.key = .ok k → label.key = .ok l → O.ends (w.graph.edges v side label) fun o =>
      ∃ found, o = .ok found ∧ found.Perm (listed t.edges side k l)
  ends : ∀ e ∈ t.edges, ∀ side, known (e.endAt side)
  keyed : ∀ e ∈ t.edges, ∃ k, e.keys = .ok k
  bounded : ∃ ks : List Key, ks.length ≤ w.graph.order ∧
    ∀ e ∈ t.edges, ∀ k, e.target.id.key = .ok k → k ∈ ks
  into : (w.taxonomy.labels.forDirection backward).1.key = .ok t.into
  out : (w.taxonomy.labels.forDirection backward).2.key = .ok t.out

/-- A walker over edges in a fixed order surveys them. -/
theorem Walker.Over.surveys {w : Walker Outcome} {backward : Bool} {t : Terrain}
    (h : w.Over backward t) : w.Surveys .direct (fun _ => True) backward t where
  edges side _ _ _ hk hl := ⟨_, h.shows.edges_eq hk hl side, .refl _⟩
  ends _ _ _ := trivial
  keyed := h.shows.keyed
  bounded := h.shows.bounded
  into := h.into
  out := h.out

namespace Walker

variable {w : Walker m} {O : Outlook m} {known : Vertex → Prop} {backward : Bool} {t : Terrain}
  {r : Recorder}

theorem Surveys.end_key (h : w.Surveys O known backward t) {e : Edge} (he : e ∈ t.edges)
    (side : Side) : ∃ k, (e.endAt side).id.key = .ok k := by
  obtain ⟨k, hk⟩ := h.keyed e he
  exact ⟨_, EdgeKeys.endAt_key hk side⟩

/-! ## 3. Expansions -/

theorem takeProcess_ends (hs : w.Surveys O known backward t) (visited : List Key)
    (budget : HopBudget) (h : Harvest) {into : Edge} (hi : into ∈ t.edges) :
    O.ends (w.takeProcess r visited budget (w.taxonomy.labels.forDirection backward).2 h into)
      fun o => ∃ ps : List (Edge × Edge), ps.Perm (t.pairsOver into) ∧
        o = ps.foldlM (takeOne r visited budget) h := by
  obtain ⟨p, hp⟩ := hs.end_key hi .outgoing
  have hp : into.source.id.key = .ok p := hp
  have hover : t.pairsOver into = (listed t.edges .outgoing p t.out).map (into, ·) := by
    unfold Terrain.pairsOver
    rw [hp]
  refine O.bind (hs.edges .outgoing (hs.ends into hi .outgoing) hp hs.out) ?_
    fun e ⟨_, he, _⟩ => nomatch he
  rintro outs ⟨found, hfound, hperm⟩
  obtain rfl := Except.ok.inj hfound
  refine O.ofExcept ⟨outs.map (into, ·), hover ▸ hperm.map _, ?_⟩
  rw [List.foldlM_map]
  rfl

/-- **An expansion takes the pairs of its dataset one after the other**, in some order. -/
theorem expand_ends (hs : w.Surveys O known backward t) (visited : List Key) {p : Pending}
    {d : Key} (hknown : known p.vertex) (hd : p.vertex.id.key = .ok d) (lineage : LineageGraph) :
    O.ends (w.expand r backward visited p lineage) fun o =>
      ∃ ps : List (Edge × Edge), ps.Perm (t.pairsAt d) ∧
        o = ps.foldlM (takeOne r visited p.budget.next) ⟨lineage, []⟩ := by
  have fold (ins : List Edge) (hins : ∀ e ∈ ins, e ∈ t.edges) (h : Harvest) :
      O.ends (ins.foldlM (w.takeProcess r visited p.budget.next
        (w.taxonomy.labels.forDirection backward).2) h) fun o =>
          ∃ ps : List (Edge × Edge), ps.Perm (ins.flatMap t.pairsOver) ∧
            o = ps.foldlM (takeOne r visited p.budget.next) h := by
    induction ins generalizing h with
    | nil => exact O.pure ⟨[], .refl _, rfl⟩
    | cons e rest ih =>
        rw [List.foldlM_cons, List.flatMap_cons]
        refine O.bind (takeProcess_ends hs visited _ h (hins e List.mem_cons_self)) ?_ ?_
        · rintro h₁ ⟨ps, hps, hh₁⟩
          refine O.imp (ih (fun e he => hins e (List.mem_cons_of_mem _ he)) h₁) ?_
          rintro o ⟨qs, hqs, rfl⟩
          refine ⟨ps ++ qs, hps.append hqs, ?_⟩
          rw [List.foldlM_append, ← hh₁]
          rfl
        · -- what would have come later does not matter
          rintro f ⟨ps, hps, hf⟩
          refine ⟨ps ++ rest.flatMap t.pairsOver, hps.append_right _, ?_⟩
          rw [List.foldlM_append, ← hf]
          rfl
  have he : w.expand r backward visited p lineage =
      w.graph.edges p.vertex .incoming (w.taxonomy.labels.forDirection backward).1 >>= fun ins =>
        ins.foldlM (w.takeProcess r visited p.budget.next
          (w.taxonomy.labels.forDirection backward).2) ⟨lineage, []⟩ := by
    cases backward <;> rfl
  rw [he]
  refine O.bind (hs.edges .incoming hknown hd hs.into) ?_ fun e ⟨_, he, _⟩ => nomatch he
  rintro ins ⟨found, hfound, hperm⟩
  obtain rfl := Except.ok.inj hfound
  refine O.imp (fold ins (fun e he => (mem_listed.mp (hperm.mem_iff.mp he)).1) _) ?_
  rintro o ⟨ps, hps, rfl⟩
  exact ⟨ps, hps.trans (hperm.flatMap_right _), rfl⟩

end Walker

end

namespace Walker

variable {r : Recorder}

/-- **A fold over pairs fails only where the call for one of them fails**, if their far datasets can
be identified. -/
theorem takePairs_error {visited : List Key} {budget : HopBudget} {ps : List (Edge × Edge)}
    (hps : ∀ p ∈ ps, ∃ k, p.2.target.id.key = .ok k) {h : Harvest} {e : Fault}
    (he : ps.foldlM (takeOne r visited budget) h = .error e) :
    ∃ p ∈ ps, r.Fails (.pair p.1 p.2) e := by
  induction ps generalizing h with
  | nil => cases he
  | cons p rest ih =>
      rw [List.foldlM_cons] at he
      cases hone : takeOne r visited budget h p with
      | ok h₁ =>
          rw [hone] at he
          obtain ⟨q, hq, hfails⟩ := ih (fun p hp => hps p (List.mem_cons_of_mem _ hp)) he
          exact ⟨q, List.mem_cons_of_mem _ hq, hfails⟩
      | error f =>
          rw [hone] at he
          obtain rfl : f = e := Except.error.inj he
          refine ⟨p, List.mem_cons_self, h.lineage, ?_⟩
          obtain ⟨k, hk⟩ := hps p List.mem_cons_self
          unfold takeOne takePair at hone
          cases hcall : Recording.on (r.addPair p.1 p.2) h.lineage with
          | error f' =>
              rw [hcall] at hone
              exact hcall.trans (congrArg Except.error (Except.error.inj hone))
          | ok a =>
              -- an answered call is followed by nothing that can fail
              obtain ⟨skipped, g⟩ := a
              rw [hcall, Outcome.ok_bind] at hone
              cases skipped with
              | true => cases hone
              | false =>
                  dsimp only at hone
                  rw [hk, if_neg Bool.false_ne_true, Outcome.ok_bind] at hone
                  split at hone <;> cases hone

/-- What a fold finds are far datasets of its pairs. -/
theorem takePairs_found {visited : List Key} {budget : HopBudget} {ps : List (Edge × Edge)}
    {h h' : Harvest} (ht : ps.foldlM (takeOne r visited budget) h = .ok h') {q : Pending}
    (hq : q ∈ h'.found) : q ∈ h.found ∨ ∃ p ∈ ps, q.vertex = p.2.target := by
  induction ps generalizing h with
  | nil =>
      cases ht
      exact .inl hq
  | cons p rest ih =>
      obtain ⟨h₁, hone, ht⟩ := Outcome.bind_eq_ok.mp ht
      rcases ih ht with hq | ⟨p', hp', hv⟩
      · obtain ⟨_, ⟨hsame, _⟩ | ⟨x, _, _, _, hmore⟩⟩ := takeOne_ok hone
        · exact .inl (hsame ▸ hq)
        · rw [hmore, List.mem_append, List.mem_singleton] at hq
          exact hq.imp_right fun hq => ⟨p, List.mem_cons_self, congrArg Pending.vertex hq⟩
      · exact .inr ⟨p', List.mem_cons_of_mem _ hp', hv⟩

end Walker

end DataLineage
