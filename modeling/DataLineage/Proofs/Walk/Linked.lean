import DataLineage.Proofs.Walk.Traverse
import Mathlib.Logic.Relation

/-!
# A walk hangs together

What a walk records is reached from its root by hops over open pairs, and an open pair leaves
relations from its near dataset to its far one. So every entity of the walk is linked to the root
by a chain of relations, in whatever direction the data flow:

* `LineageGraph.Linked` -- a relation lies between two entities, `Links` -- one of a set does;
* `Recorder.Took.leaves` -- a call that does not fail leaves a relation for each edge that is open;
* `Walker.walk_links` -- **the ends of what a walk brings in are linked to its root**, and its root
  is one of them unless there are none.
-/

open Relation (ReflTransGen)

namespace DataLineage

/-! ## 1. Links -/

/-- One of the relations lies between the two entities. -/
def Links (R : DataLineage.Relation → Prop) (a b : Key) : Prop :=
  ∃ x, R x ∧ (x.source.key = a ∧ x.target.key = b ∨ x.source.key = b ∧ x.target.key = a)

/-- A recorded relation lies between the two entities. -/
def LineageGraph.Linked (g : LineageGraph) : Key → Key → Prop := Links fun x => x ∈ g.relations

theorem Links.symm {R : DataLineage.Relation → Prop} {a b : Key} (h : Links R a b) :
    Links R b a := by
  obtain ⟨x, hx, hab⟩ := h
  exact ⟨x, hx, hab.symm⟩

theorem Links.end_left {R : DataLineage.Relation → Prop} {a b : Key} (h : Links R a b) :
    LineageGraph.Ends R a := by
  obtain ⟨x, hx, ⟨hs, _⟩ | ⟨_, ht⟩⟩ := h
  · exact ⟨x, hx, .inl hs⟩
  · exact ⟨x, hx, .inr ht⟩

/-- What is recorded under the same ids links the same entities. -/
theorem LineageGraph.linked_of_links {g : LineageGraph} {R : DataLineage.Relation → Prop}
    (h : ∀ x, R x → g.hasRelation x = true) {a b : Key} (hl : Links R a b) : g.Linked a b := by
  obtain ⟨x, hx, hab⟩ := hl
  obtain ⟨y, hy, hxy⟩ := LineageGraph.hasRelation_iff.mp (h x hx)
  obtain ⟨hs, ht, _⟩ := (Relation.same_iff x y).mp hxy
  rw [hs, ht] at hab
  exact ⟨y, hy, hab⟩

/-- A chain of relations stays one where more is recorded. -/
theorem LineageGraph.chain_mono {g g' : LineageGraph}
    (h : ∀ x, g.hasRelation x = true → g'.hasRelation x = true) {a b : Key}
    (hc : ReflTransGen g.Linked a b) : ReflTransGen g'.Linked a b :=
  ReflTransGen.mono
    (fun _ _ hab => linked_of_links (fun x hx => h x (hasRelation_of_mem hx)) hab) _ _ hc

/-! ## 2. What calls leave -/

namespace Recorder

variable {r : Recorder} {g g' : LineageGraph}

/-- The relations that an open pair leaves are there to be left. -/
def LeavesPair (r : Recorder) (into out : Edge) : Prop :=
  if r.context.hidesProcesses then ∃ x, r.relationThrough into out = .ok x
  else (∃ x, r.relationOf into = .ok x) ∧ ∃ x, r.relationOf out = .ok x

/-- A call leaves relations for what is open. -/
def Leaves (r : Recorder) : Call → Prop
  | .pair into out => r.opensPair into out = .ok true → r.LeavesPair into out
  | .edge e => ∃ x, r.relationOf e = .ok x

/-- The ends of an edge that can be identified are scalars. -/
theorem ends_scalar {e : Edge} (h : ∃ k, e.keys = .ok k) :
    ∃ s t, e.source.id = .scalar s ∧ e.target.id = .scalar t := by
  obtain ⟨k, hk⟩ := h
  obtain ⟨_, hs, ht⟩ := (Edge.keys_eq_ok_iff e k).mp hk
  obtain ⟨s, hs, _⟩ := (Value.key_eq_ok_iff _ _).mp hs
  obtain ⟨t, ht, _⟩ := (Value.key_eq_ok_iff _ _).mp ht
  exact ⟨s, t, hs, ht⟩

theorem pairEntered_leaves {into out : Edge} (hi : ∃ k, into.keys = .ok k)
    (ho : ∃ k, out.keys = .ok k) (h : r.pairEntered into out g = .ok g') :
    r.LeavesPair into out := by
  obtain ⟨s, t, hs, ht⟩ := ends_scalar hi
  obtain ⟨s', t', hs', ht'⟩ := ends_scalar ho
  unfold pairEntered at h
  unfold LeavesPair
  by_cases hm : r.context.hidesProcesses = true
  · rw [if_pos hm] at h ⊢
    obtain ⟨g₁, _, h⟩ := Outcome.bind_eq_ok.mp h
    obtain ⟨g₂, _, h⟩ := Outcome.bind_eq_ok.mp h
    obtain ⟨x, hx, _⟩ := Outcome.bind_eq_ok.mp h
    exact ⟨x, hx⟩
  · rw [if_neg hm] at h ⊢
    obtain ⟨g₁, _, h⟩ := Outcome.bind_eq_ok.mp h
    obtain ⟨g₂, _, h⟩ := Outcome.bind_eq_ok.mp h
    obtain ⟨g₃, _, h⟩ := Outcome.bind_eq_ok.mp h
    obtain ⟨g₄, h₄, h₅⟩ := Outcome.bind_eq_ok.mp h
    exact ⟨edgeEntered_relation hs ht h₄, edgeEntered_relation hs' ht' h₅⟩

/-- **Calls that do not fail leave relations for what is open.** -/
theorem Took.leaves {cs : List Call} (hT : r.Took cs g g')
    (hk : ∀ c ∈ cs, ∀ e ∈ c.edges, ∃ k, e.keys = .ok k)
    (ho : ∀ e, .edge e ∈ cs → r.opensEdge e = .ok true) : ∀ c ∈ cs, r.Leaves c := by
  induction hT with
  | nil g => exact fun c hc => absurd hc List.not_mem_nil
  | @cons c cs g g₁ g₂ skipped h rest ih =>
      have hrest := ih (fun c hc => hk c (List.mem_cons_of_mem _ hc))
        (fun e he => ho e (List.mem_cons_of_mem _ he))
      intro c' hc'
      rcases List.mem_cons.mp hc' with rfl | hc'
      · cases c' with
        | pair into out =>
            intro hopen
            obtain ⟨hskip, ⟨hs, _⟩ | ⟨_, hp⟩⟩ := addPair_ok h
            · rw [hopen, hs] at hskip
              cases hskip
            · have hke := hk _ List.mem_cons_self
              exact pairEntered_leaves (hke into List.mem_cons_self)
                (hke out (List.mem_cons_of_mem _ List.mem_cons_self)) hp
        | edge e =>
            obtain ⟨s, t, hs, ht⟩ :=
              ends_scalar (hk _ List.mem_cons_self e (List.mem_singleton.mpr rfl))
            rcases addEdge_ok h with ⟨hknown, _⟩ | ⟨hclosed, _⟩ | ⟨_, hsingle⟩
            · obtain ⟨i, hi, _⟩ := LineageGraph.containsRelationship_ok hknown
              exact relationOf_isOk hs ht hi
            · rw [ho e List.mem_cons_self] at hclosed
              cases hclosed
            · obtain ⟨g₃, _, hsingle⟩ := Outcome.bind_eq_ok.mp hsingle
              obtain ⟨g₄, _, hsingle⟩ := Outcome.bind_eq_ok.mp hsingle
              exact edgeEntered_relation hs ht hsingle
      · exact hrest c' hc'

/-- The relation of an edge links its two ends. -/
theorem relationOf_links {R : DataLineage.Relation → Prop} {e : Edge} {x : DataLineage.Relation}
    (h : r.relationOf e = .ok x) (hR : R x) {s t : Key} (hs : e.source.id.key = .ok s)
    (ht : e.target.id.key = .ok t) : Links R s t := by
  refine ⟨x, hR, ?_⟩
  obtain ⟨_, _, ⟨_, hxs, hxt⟩ | ⟨_, hxs, hxt⟩⟩ := relationOf_ok h
  · rw [hxs] at ht
    rw [hxt] at hs
    exact .inr ⟨Except.ok.inj ht, Except.ok.inj hs⟩
  · rw [hxs] at hs
    rw [hxt] at ht
    exact .inl ⟨Except.ok.inj hs, Except.ok.inj ht⟩

/-- The relation through a hidden process links the two datasets. -/
theorem relationThrough_links {R : DataLineage.Relation → Prop} {into out : Edge}
    {x : DataLineage.Relation} (h : r.relationThrough into out = .ok x) (hR : R x) {d d' : Key}
    (hd : into.target.id.key = .ok d) (hd' : out.target.id.key = .ok d') : Links R d d' := by
  refine ⟨x, hR, ?_⟩
  obtain ⟨_, _, ⟨_, hxs, hxt⟩ | ⟨_, hxs, hxt⟩⟩ := relationThrough_ok h
  · rw [hxs] at hd
    rw [hxt] at hd'
    exact .inl ⟨Except.ok.inj hd, Except.ok.inj hd'⟩
  · rw [hxs] at hd'
    rw [hxt] at hd
    exact .inr ⟨Except.ok.inj hd', Except.ok.inj hd⟩

end Recorder

/-! ## 3. Chains along hops -/

namespace Terrain

variable {t : Terrain} {r : Recorder} {R : DataLineage.Relation → Prop} {d : Key} {into out : Edge}

/-- **An open pair links its near dataset** to its far one, and to every end of what it yields. -/
theorem PairAt.links (hp : t.PairAt d into out) (hl : r.LeavesPair into out)
    (hR : ∀ x, r.PairYields into out x → R x) :
    (∀ d', out.target.id.key = .ok d' → ReflTransGen (Links R) d d') ∧
      ∀ k, LineageGraph.Ends (r.PairYields into out) k → ReflTransGen (Links R) d k := by
  unfold Recorder.LeavesPair at hl
  by_cases hm : r.context.hidesProcesses = true
  · rw [if_pos hm] at hl
    obtain ⟨x, hx⟩ := hl
    have hy : r.PairYields into out = fun y => r.relationThrough into out = .ok y := by
      funext y
      unfold Recorder.PairYields
      rw [if_pos hm]
    have hfar (d' : Key) (hd' : out.target.id.key = .ok d') : ReflTransGen (Links R) d d' :=
      .single (Recorder.relationThrough_links hx (hR x (hy ▸ hx)) hp.near hd')
    refine ⟨hfar, fun k hk => ?_⟩
    rw [hy, Recorder.ends_through hx] at hk
    rcases hk with hk | hk
    · rw [hp.near] at hk
      cases hk
      exact .refl
    · exact hfar k hk
  · rw [if_neg hm] at hl
    obtain ⟨⟨x, hx⟩, y, hy⟩ := hl
    have hyields : r.PairYields into out =
        fun z => r.relationOf into = .ok z ∨ r.relationOf out = .ok z := by
      funext z
      unfold Recorder.PairYields
      rw [if_neg hm]
    obtain ⟨p, hpi, hpo⟩ := hp.process
    have hprocess : Links R d p :=
      (Recorder.relationOf_links hx (hR x (hyields ▸ .inl hx)) hpi hp.near).symm
    have hfar (d' : Key) (hd' : out.target.id.key = .ok d') : ReflTransGen (Links R) d d' :=
      .tail (.single hprocess) (Recorder.relationOf_links hy (hR y (hyields ▸ .inr hy)) hpo hd')
    refine ⟨hfar, fun k hk => ?_⟩
    rw [hyields, LineageGraph.ends_or, Recorder.ends_edge hx, Recorder.ends_edge hy, hpi, hp.near,
      hpo] at hk
    rcases hk with (hk | hk) | (hk | hk)
    · cases hk
      exact .single hprocess
    · cases hk
      exact .refl
    · cases hk
      exact .single hprocess
    · exact hfar k hk

/-- **What lies within the budget is linked to the start.** -/
theorem Within.links {b : HopBudget} {v : Vertex} {start : Key} (hv : v.id.key = .ok start)
    (hl : ∀ d into out, t.Within r b v d → t.PairAt d into out →
      r.opensPair into out = .ok true → r.LeavesPair into out)
    (hR : ∀ d into out, t.Within r b v d → t.PairAt d into out →
      r.opensPair into out = .ok true → ∀ x, r.PairYields into out x → R x)
    (h : t.Within r b v d) : ReflTransGen (Links R) start d := by
  obtain ⟨start', n, hv', ha, hr⟩ := h
  rw [hv] at hv'
  cases hv'
  induction hr with
  | here => exact .refl
  | @step n a d d' hr hop ih =>
      have ha' : b.Allows n := HopBudget.Allows.mono n (n + 1) (Nat.le_succ n) ha
      have hd : t.Within r b v d := ⟨a, n, hv, ha', hr⟩
      obtain ⟨into, out, hp, hopen, hd'⟩ := hop
      exact (ih hv ha').trans
        ((hp.links (hl d into out hd hp hopen) (hR d into out hd hp hopen)).1 d' hd')

/-- The ends of what the open pairs within the budget yield are linked to the start. -/
theorem Within.links_ends {b : HopBudget} {v : Vertex} {start : Key} (hv : v.id.key = .ok start)
    (hl : ∀ d into out, t.Within r b v d → t.PairAt d into out →
      r.opensPair into out = .ok true → r.LeavesPair into out)
    (hR : ∀ d into out, t.Within r b v d → t.PairAt d into out →
      r.opensPair into out = .ok true → ∀ x, r.PairYields into out x → R x)
    (h : t.Within r b v d) (hp : t.PairAt d into out) (ho : r.opensPair into out = .ok true)
    {k : Key} (hk : LineageGraph.Ends (r.PairYields into out) k) : ReflTransGen (Links R) start k :=
  (h.links hv hl hR).trans ((hp.links (hl d into out h hp ho) (hR d into out h hp ho)).2 k hk)

end Terrain

/-! ## 4. A walk hangs together -/

namespace Walker

variable {w : Walker Outcome} {t : Terrain} {c : Context} {direction : Direction} {k : Key}
  {x₀ x : VertexBudget} {l : LineageGraph}

/-- **The ends of what a walk brings in are linked to its root**, and the root is one of them. -/
theorem walk_links (ho : w.Over (direction == .input) t) (hk : c.root.id.key = .ok k)
    (hn : k ≠ .nan) (h : w.walk c direction x₀ = .ok (l, x)) {a : Key}
    (ha : LineageGraph.Ends (t.Yields (w.recorder c)) a) :
    ReflTransGen (Links (t.Yields (w.recorder c))) k a ∧
      LineageGraph.Ends (t.Yields (w.recorder c)) k := by
  obtain ⟨⟨cs, hT, hcs⟩, _⟩ := walk_ok ho hk h
  have hroot (e : Edge) (he : e ∈ t.rootEdges c) : (w.recorder c).opensEdge e = .ok true := by
    obtain ⟨_, _, k', hk', hs⟩ := Terrain.mem_rootEdges.mp he
    rw [hk] at hk'
    cases hk'
    exact Recorder.opensEdge_root (isRoot_of_key hk hn hs)
  have hleaves : ∀ call, t.Called (w.recorder c) call → (w.recorder c).Leaves call := by
    intro call hcall
    refine hT.leaves (fun call hc e he => ?_) (fun e he => ?_) call ((hcs call).mpr hcall)
    · exact ho.shows.keyed e (((hcs call).mp hc).edges_mem.1 e he)
    · cases (hcs _).mp he with
      | first _ he => exact hroot e he
  have hchain : ReflTransGen (Links (t.Yields (w.recorder c))) k a := by
    obtain ⟨y, ⟨call, hcall, hy⟩, hya⟩ := ha
    cases hcall with
    | dataset hd hw hp =>
        exact hw.links_ends hk (fun _ _ _ hw hp => hleaves _ (.dataset hd hw hp))
          (fun _ _ _ hw hp ho _ hx => ⟨_, .dataset hd hw hp, ho, hx⟩) hp hy.1 ⟨y, hy.2, hya⟩
    | @first e hd he =>
        obtain ⟨_, _, k', hk', hs⟩ := Terrain.mem_rootEdges.mp he
        obtain rfl : k = k' := Except.ok.inj (hk.symm.trans hk')
        rcases (Recorder.relationOf_ends hy.2 a).mp hya with hend | hend
        · obtain rfl : k = a := Except.ok.inj (hs.symm.trans hend)
          exact .refl
        · exact .single (Recorder.relationOf_links hy.2 ⟨_, .first hd he, hy⟩ hs hend)
    | @beyond e d into out hd he hw hp =>
        obtain ⟨hm, _, k', hk', hs⟩ := Terrain.mem_rootEdges.mp he
        obtain rfl : k = k' := Except.ok.inj (hk.symm.trans hk')
        obtain ⟨start, hstart⟩ := ho.shows.end_key hm .incoming
        have hstart : e.target.id.key = .ok start := hstart
        obtain ⟨z, hz⟩ := hleaves _ (.first hd he)
        have hfirst : Links (t.Yields (w.recorder c)) k start :=
          Recorder.relationOf_links hz ⟨_, .first hd he, hroot e he, hz⟩ hs hstart
        exact (ReflTransGen.single hfirst).trans
          (hw.links_ends hstart (fun _ _ _ hw hp => hleaves _ (.beyond hd he hw hp))
            (fun _ _ _ hw hp ho _ hx => ⟨_, .beyond hd he hw hp, ho, hx⟩) hp hy.1 ⟨y, hy.2, hya⟩)
  refine ⟨hchain, ?_⟩
  -- the chain is empty, or its first link ends at the root
  rcases hchain.cases_head with rfl | ⟨b, hlink, _⟩
  · exact ha
  · exact hlink.end_left

end Walker

end DataLineage
