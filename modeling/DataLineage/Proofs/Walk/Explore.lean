import DataLineage.Proofs.Search.Breadth
import DataLineage.Proofs.Walk.Outlook
import Mathlib.Data.Set.Card

/-!
# What a walk from one dataset does

A walk from a dataset is a breadth-first search over hops: what waits in its queue are keys of
datasets, and the budget that is left tells how many hops led to them. So it expands exactly the
datasets within its budget, each once, and calls the recorder for the pairs at these and no others,
in whatever order the graph lists its edges:

* `Terrain.Within` -- the datasets that so many hops lead to as the budget allows, and
  `Terrain.cost` -- how many there are;
* `VertexBudget.charges` -- so many vertices charged to a vertex budget;
* `Walker.Tracks` -- the invariant of a walk: its state is that of a search;
* `Recorder.Goes` -- what becomes of a walk that makes some calls and expands so many vertices;
* `Walker.runFrom_ends` -- **a walk makes the calls for what lies within its budget** and charges
  each dataset once, unless a call fails or the vertex budget is exceeded;
* `Walker.expand_isOk` -- no call fails where every edge can be looked at;
* `Walker.run_limited` -- with a vertex budget it ends in the same way, or in the fault that the
  budget is exceeded.
-/

namespace DataLineage

/-! ## 1. Budgets -/

namespace HopBudget

/-- What is left of the budget so many hops further out. -/
def after (b : HopBudget) : Nat → HopBudget
  | 0 => b
  | n + 1 => (b.after n).next

/-- **May a dataset so many hops out be expanded?** -/
def Allows (b : HopBudget) (n : Nat) : Prop := (b.after n).spent = false

theorem after_unbounded (n : Nat) : unbounded.after n = unbounded := by
  induction n with
  | zero => rfl
  | succ n ih =>
      rw [after, ih]
      rfl

theorem after_hops (m n : Nat) : (hops m).after n = hops (m - n) := by
  induction n with
  | zero => rfl
  | succ n ih =>
      rw [after, ih]
      rfl

theorem allows_unbounded (n : Nat) : unbounded.Allows n := by
  unfold Allows
  rw [after_unbounded]
  rfl

/-- **A budget of some hops allows fewer of them.** -/
theorem allows_hops {m n : Nat} : (hops m).Allows n ↔ n < m := by
  unfold Allows
  rw [after_hops]
  show ((m - n) == 0) = false ↔ n < m
  rw [beq_eq_false_iff_ne]
  omega

theorem Allows.mono {b : HopBudget} (i j : Nat) (hij : i ≤ j) (h : b.Allows j) : b.Allows i := by
  cases b with
  | unbounded => exact allows_unbounded i
  | hops m => exact allows_hops.mpr (Nat.lt_of_le_of_lt hij (allows_hops.mp h))

end HopBudget

/-- What is charged is one more vertex. -/
theorem VertexBudget.charge_ok {b b' : VertexBudget} {guid : Value} (h : b.charge guid = .ok b') :
    b' = ⟨b.limit, b.expanded + 1⟩ := by
  obtain ⟨exceeded, _, h⟩ := Outcome.bind_eq_ok.mp h
  cases exceeded with
  | true => cases h
  | false =>
      cases h
      rfl

/-- Without a limit every vertex may be expanded. -/
theorem VertexBudget.charge_isOk {b : VertexBudget} (h : b.limit.truth = false) (guid : Value) :
    b.charge guid = .ok ⟨b.limit, b.expanded + 1⟩ := by
  have he : exceeded ⟨b.limit, b.expanded + 1⟩ = .ok false := by
    unfold exceeded
    rw [if_neg]
    · rfl
    · rw [h]
      exact Bool.false_ne_true
  unfold charge
  show (exceeded _ >>= _) = _
  rw [he]
  rfl

namespace VertexBudget

/-- **Charges so many vertices** to the request of the guid, one after the other. -/
def charges (b : VertexBudget) (guid : Value) : Nat → Outcome VertexBudget
  | 0 => .ok b
  | n + 1 => do (← b.charges guid n).charge guid

theorem charges_ok {b b' : VertexBudget} {guid : Value} {n : Nat}
    (h : b.charges guid n = .ok b') : b' = ⟨b.limit, b.expanded + n⟩ := by
  induction n generalizing b' with
  | zero =>
      cases h
      rfl
  | succ n ih =>
      obtain ⟨b₁, h₁, h⟩ := Outcome.bind_eq_ok.mp h
      rw [charge_ok h, ih h₁]
      rfl

/-- Without a limit any number of vertices may be expanded. -/
theorem charges_isOk {b : VertexBudget} (h : b.limit.truth = false) (guid : Value) (n : Nat) :
    b.charges guid n = .ok ⟨b.limit, b.expanded + n⟩ := by
  induction n with
  | zero => rfl
  | succ n ih =>
      have hlimit : (⟨b.limit, b.expanded + n⟩ : VertexBudget).limit.truth = false := h
      unfold charges
      rw [ih, Outcome.ok_bind, charge_isOk hlimit]
      rfl

/-- One part of the vertices is charged after the other. -/
theorem charges_add (b : VertexBudget) (guid : Value) (m n : Nat) :
    b.charges guid (m + n) = b.charges guid m >>= fun b' => b'.charges guid n := by
  induction n with
  | zero => cases b.charges guid m <;> rfl
  | succ n ih =>
      show (b.charges guid (m + n) >>= fun b' => b'.charge guid) = _
      rw [ih, bind_assoc]
      rfl

/-- **A budget that is exceeded stays so.** -/
theorem charges_error {b : VertexBudget} {guid : Value} {m n : Nat} {e : Fault}
    (h : b.charges guid m = .error e) (hmn : m ≤ n) : b.charges guid n = .error e := by
  obtain ⟨k, rfl⟩ := Nat.exists_eq_add_of_le hmn
  rw [charges_add, h]
  rfl

end VertexBudget

namespace Terrain

/-- **The dataset lies within the budget from the vertex.** -/
def Within (t : Terrain) (r : Recorder) (b : HopBudget) (v : Vertex) (d : Key) : Prop :=
  ∃ start n, v.id.key = .ok start ∧ b.Allows n ∧ ReachesIn (t.Hop r) n start d

/-- How many datasets lie within the budget. -/
noncomputable def cost (t : Terrain) (r : Recorder) (b : HopBudget) (v : Vertex) : Nat :=
  {d | t.Within r b v d}.ncard

/-- The calls for the pairs at the datasets within the budget from the vertex. -/
def CallsFrom (t : Terrain) (r : Recorder) (b : HopBudget) (v : Vertex) (c : Call) : Prop :=
  ∃ d, t.Within r b v d ∧ ∃ into out, t.PairAt d into out ∧ c = .pair into out

/-- The calls for what was expanded, the latest first. -/
def callsOf (t : Terrain) : List (Key × Nat) → List Call
  | [] => []
  | d :: rest => t.callsOf rest ++ (t.pairsAt d.1).map fun p => .pair p.1 p.2

theorem mem_callsOf {t : Terrain} {reached : List (Key × Nat)} {c : Call} :
    c ∈ t.callsOf reached ↔
      ∃ d, (∃ i, (d, i) ∈ reached) ∧ ∃ into out, t.PairAt d into out ∧ c = .pair into out := by
  induction reached with
  | nil => simp [callsOf]
  | cons d rest ih =>
      rw [callsOf, List.mem_append, ih, List.mem_map]
      constructor
      · intro h
        rcases h with ⟨d', ⟨i, hi⟩, hc⟩ | ⟨p, hp, rfl⟩
        · exact ⟨d', ⟨i, List.mem_cons_of_mem _ hi⟩, hc⟩
        · exact ⟨d.1, ⟨d.2, List.mem_cons_self⟩, p.1, p.2, mem_pairsAt.mp hp, rfl⟩
      · intro h
        obtain ⟨d', ⟨i, hi⟩, into, out, hp, rfl⟩ := h
        rcases List.mem_cons.mp hi with rfl | hi
        · exact .inr ⟨(into, out), mem_pairsAt.mpr hp, rfl⟩
        · exact .inl ⟨d', ⟨i, hi⟩, into, out, hp, rfl⟩

end Terrain

/-! ## 2. The invariant of a walk -/

namespace Walker

/-- What waits in a queue: datasets with their keys, and with what is left of the budget after the
hops that led to them. -/
inductive Queued (b : HopBudget) : List Pending → List (Key × Nat) → Prop where
  | nil : Queued b [] []
  | cons {p : Pending} {k : Key} {j : Nat} {ps : List Pending} {ks : List (Key × Nat)}
      (hk : p.vertex.id.key = .ok k) (hb : p.budget = b.after j) (rest : Queued b ps ks) :
      Queued b (p :: ps) ((k, j) :: ks)

theorem Queued.append {b : HopBudget} {ps qs : List Pending} {ks ls : List (Key × Nat)}
    (h : Queued b ps ks) (h' : Queued b qs ls) : Queued b (ps ++ qs) (ks ++ ls) := by
  induction h with
  | nil => exact h'
  | cons hk hb _ ih => exact .cons hk hb ih

theorem Queued.of_found {b : HopBudget} {j : Nat} {ps : List Pending} {ks : List Key}
    (h : Found (b.after j) ps ks) : Queued b ps (ks.map (·, j)) := by
  induction h with
  | nil => exact .nil
  | cons hk _ ih => exact .cons hk rfl ih

/-- **The state of the walk is that of a search** that started with the dataset `start` and the
budget `b`, the lineage graph `g₀` and the vertex budget `x₀`. -/
structure Tracks (t : Terrain) (r : Recorder) (b : HopBudget) (start : Key) (g₀ : LineageGraph)
    (x₀ : VertexBudget) (s : WalkState) (F : Frontier Key) : Prop where
  queued : Queued b s.queue F.waiting
  visited : s.visited = F.reached.map Prod.fst
  took : r.TookAll (· ∈ t.callsOf F.reached) g₀ s.lineage
  charged : x₀.charges r.context.guid F.reached.length = .ok s.budget
  sound : F.Sound (t.Hop r) b.Allows start

variable {t : Terrain} {r : Recorder} {b : HopBudget} {start : Key} {g₀ : LineageGraph}
  {x₀ : VertexBudget}

/-- **What is taken from the queue**: nothing, if all that waits is spent or was expanded, or else
something that the search may expand. -/
theorem nextPending_cases {hop : Key → Key → Prop} {queue : List Pending}
    {waiting reached : List (Key × Nat)} (hq : Queued b queue waiting)
    (hs : Frontier.Sound hop b.Allows start ⟨waiting, reached⟩) :
    (nextPending (reached.map Prod.fst) queue = .ok none ∧
        Frontier.Sound hop b.Allows start ⟨[], reached⟩) ∨
      ∃ p key rest j waiting', nextPending (reached.map Prod.fst) queue = .ok (some (p, key, rest)) ∧
        p.vertex.id.key = .ok key ∧ p.budget = b.after j ∧ b.Allows j ∧
        key ∉ reached.map Prod.fst ∧ Queued b rest waiting' ∧
        Frontier.Sound hop b.Allows start ⟨(key, j) :: waiting', reached⟩ := by
  induction hq with
  | nil => exact .inl ⟨rfl, hs⟩
  | @cons p k j ps ks hk hb rest ih =>
      unfold nextPending
      by_cases hspent : p.budget.spent = true
      · rw [if_pos hspent]
        have hna : ¬ b.Allows j := fun ha => by
          unfold HopBudget.Allows at ha
          rw [← hb, hspent] at ha
          cases ha
        exact ih (hs.drop HopBudget.Allows.mono (.inl hna))
      · rw [if_neg hspent, hk, Outcome.ok_bind]
        by_cases hv : k ∈ reached.map Prod.fst
        · rw [if_pos (List.contains_iff_mem.mpr hv)]
          obtain ⟨⟨k', i⟩, hi, rfl⟩ := List.mem_map.mp hv
          exact ih (hs.drop HopBudget.Allows.mono (.inr ⟨i, hi⟩))
        · rw [if_neg fun hc => hv (List.contains_iff_mem.mp hc)]
          have ha : b.Allows j := by
            unfold HopBudget.Allows
            rw [← hb]
            exact Bool.eq_false_iff.mpr hspent
          exact .inr ⟨p, k, ps, j, ks, rfl, hk, hb, ha, hv, rest, hs⟩

/-- What is taken from the queue waited there, and so did what waits behind it. -/
theorem nextPending_mem {visited : List Key} {queue : List Pending} {p : Pending} {key : Key}
    {rest : List Pending} (h : nextPending visited queue = .ok (some (p, key, rest))) :
    p ∈ queue ∧ ∀ q ∈ rest, q ∈ queue := by
  induction queue with
  | nil => cases h
  | cons p' queue ih =>
      have later (h : nextPending visited queue = .ok (some (p, key, rest))) :
          p ∈ p' :: queue ∧ ∀ q ∈ rest, q ∈ p' :: queue :=
        ⟨List.mem_cons_of_mem _ (ih h).1, fun q hq => List.mem_cons_of_mem _ ((ih h).2 q hq)⟩
      unfold nextPending at h
      split at h
      · exact later h
      · obtain ⟨k, _, h⟩ := Outcome.bind_eq_ok.mp h
        split at h
        · exact later h
        · cases h
          exact ⟨List.mem_cons_self, fun q hq => List.mem_cons_of_mem _ hq⟩

/-- **One round keeps the invariant.** -/
theorem Tracks.round {s : WalkState} {p : Pending} {key : Key} {rest : List Pending} {j : Nat}
    {waiting reached : List (Key × Nat)} {budget : VertexBudget} {h : Harvest}
    {ps : List (Edge × Edge)} (hv : s.visited = reached.map Prod.fst)
    (htook : r.TookAll (· ∈ t.callsOf reached) g₀ s.lineage)
    (hcharged : x₀.charges r.context.guid reached.length = .ok s.budget)
    (hb : p.budget = b.after j) (ha : b.Allows j)
    (hnew : key ∉ reached.map Prod.fst) (hq : Queued b rest waiting)
    (hs : Frontier.Sound (t.Hop r) b.Allows start ⟨(key, j) :: waiting, reached⟩)
    (hc : s.budget.charge r.context.guid = .ok budget) (hps : ps.Perm (t.pairsAt key))
    (he : ps.foldlM (takeOne r (key :: s.visited) p.budget.next) ⟨s.lineage, []⟩ = .ok h) :
    ∃ found : List Key,
      Tracks t r b start g₀ x₀ ⟨rest ++ h.found, key :: s.visited, budget, h.lineage⟩
        ⟨waiting ++ found.map (·, j + 1), (key, j) :: reached⟩ := by
  obtain ⟨hT, pending, ks, hfound, hF, hks⟩ := takePairs_ok he
  have hfound : h.found = pending := hfound
  have hnext : p.budget.next = b.after (j + 1) := by
    rw [hb]
    rfl
  rw [hnext] at hF
  refine ⟨ks, hq.append (hfound ▸ Queued.of_found hF), ?_, ?_, ?_, ?_⟩
  · rw [hv]
    rfl
  · refine (htook.append ⟨_, hT, fun c => Iff.rfl⟩).congr fun c => ?_
    show _ ↔ c ∈ t.callsOf reached ++ (t.pairsAt key).map fun q => Call.pair q.1 q.2
    rw [List.mem_append, (hps.map _).mem_iff]
  · show (x₀.charges r.context.guid reached.length >>= fun b' => b'.charge r.context.guid) = _
    rw [hcharged]
    exact hc
  · refine hs.expand ha hnew fun x => ?_
    rw [hks x, hv]
    refine and_congr ⟨?_, ?_⟩ Iff.rfl
    · intro h'
      obtain ⟨q, hq, hx, hopen⟩ := h'
      exact ⟨q.1, q.2, Terrain.mem_pairsAt.mp (hps.mem_iff.mp hq), hopen, hx⟩
    · intro h'
      obtain ⟨into, out, hp, hopen, hx⟩ := h'
      exact ⟨(into, out), hps.mem_iff.mpr (Terrain.mem_pairsAt.mpr hp), hx, hopen⟩

/-- **What becomes of a run**: a search of which nothing waits any more, unless so many rounds were
used up; or a fault at something that the search may expand, as a call for it fails or the vertex
budget is exceeded. -/
def Ran (t : Terrain) (r : Recorder) (b : HopBudget) (start : Key) (g₀ : LineageGraph)
    (x₀ : VertexBudget) (rounds : Nat) : Outcome WalkState → Prop
  | .ok s => ∃ F : Frontier Key, F.Sound (t.Hop r) b.Allows start ∧
      r.TookAll (· ∈ t.callsOf F.reached) g₀ s.lineage ∧
      x₀.charges r.context.guid F.reached.length = .ok s.budget ∧
      (F.waiting = [] ∨ F.reached.length = rounds)
  | .error e => ∃ (key : Key) (j : Nat) (waiting reached : List (Key × Nat)),
      Frontier.Sound (t.Hop r) b.Allows start ⟨(key, j) :: waiting, reached⟩ ∧ b.Allows j ∧
      key ∉ reached.map Prod.fst ∧
      ((∃ into out, t.PairAt key into out ∧ r.Fails (.pair into out) e) ∨
        x₀.charges r.context.guid (reached.length + 1) = .error e)

section

variable {m : Type → Type} [Monad m] [MonadExceptOf Fault m] {w : Walker m} {O : Outlook m}
  {known : Vertex → Prop} {backward : Bool}

/-- **A run is a search**, in any monad and over edges in any order. -/
theorem run_ends (ho : w.Surveys O known backward t) {n : Nat} {s : WalkState} {F : Frontier Key}
    (hs : Tracks t r b start g₀ x₀ s F) (hknown : ∀ p ∈ s.queue, known p.vertex) :
    O.ends (w.run r backward n s) (Ran t r b start g₀ x₀ (F.reached.length + n)) := by
  induction n generalizing s F with
  | zero => exact O.pure ⟨F, hs.sound, hs.took, hs.charged, .inr rfl⟩
  | succ n ih =>
      show O.ends (MonadExcept.ofExcept (nextPending s.visited s.queue) >>= _) _
      rw [hs.visited]
      rcases nextPending_cases hs.queued hs.sound with
        ⟨hnext, hdone⟩ | ⟨p, key, rest, j, waiting, hnext, hk, hb, ha, hnew, hq, hsound⟩
      · refine O.ofExcept_bind (fun next h => ?_) fun e h => nomatch hnext.symm.trans h
        obtain rfl := Except.ok.inj (hnext.symm.trans h)
        exact O.pure ⟨⟨[], F.reached⟩, hdone, hs.took, hs.charged, .inl rfl⟩
      · refine O.ofExcept_bind (fun next h => ?_) fun e h => nomatch hnext.symm.trans h
        obtain rfl := Except.ok.inj (hnext.symm.trans h)
        obtain ⟨hp, hrest⟩ := nextPending_mem hnext
        refine O.ofExcept_bind (fun budget hc => ?_) fun e hc => ?_
        · refine O.bind (expand_ends ho _ (hknown p hp) hk s.lineage) ?_ ?_
          · rintro h ⟨ps, hps, he⟩
            have he := he.symm
            rw [← hs.visited] at he
            obtain ⟨found, htracks⟩ :=
              Tracks.round hs.visited hs.took hs.charged hb ha hnew hq hsound hc hps he
            rw [hs.visited] at htracks
            refine O.imp (ih htracks fun q hq => ?_) fun o ho => ?_
            · rcases List.mem_append.mp hq with hq | hq
              · exact hknown q (hrest q hq)
              · obtain ⟨pair, hpair, hv⟩ := (takePairs_found he hq).resolve_left List.not_mem_nil
                rw [hv]
                have hout := (Terrain.mem_pairsAt.mp (hps.mem_iff.mp hpair)).out_mem
                exact ho.ends pair.2 hout .incoming
            · have hrounds : F.reached.length + (n + 1) =
                  ((key, j) :: F.reached).length + n := by
                rw [List.length_cons]
                omega
              rw [hrounds]
              exact ho
          · rintro e ⟨ps, hps, he⟩
            have htargets : ∀ q ∈ ps, ∃ k, q.2.target.id.key = .ok k := fun q hq =>
              ho.end_key (Terrain.mem_pairsAt.mp (hps.mem_iff.mp hq)).out_mem .incoming
            obtain ⟨q, hq, hfails⟩ := takePairs_error htargets he.symm
            exact ⟨key, j, waiting, F.reached, hsound, ha, hnew,
              .inl ⟨q.1, q.2, Terrain.mem_pairsAt.mp (hps.mem_iff.mp hq), hfails⟩⟩
        · refine ⟨key, j, waiting, F.reached, hsound, ha, hnew, .inr ?_⟩
          show (x₀.charges r.context.guid F.reached.length >>= fun b' =>
            b'.charge r.context.guid) = _
          rw [hs.charged]
          exact hc

end

/-! ## 3. Walks from one dataset -/

/-- A search leads to its start and to targets of edges. -/
theorem reached_mem {ks : List Key}
    (hks : ∀ e ∈ t.edges, ∀ k, e.target.id.key = .ok k → k ∈ ks) {n : Nat} {d : Key}
    (h : ReachesIn (t.Hop r) n start d) : d ∈ start :: ks := by
  rcases h.eq_or_hop with hstart | ⟨c, into, out, hpair, _, hx⟩
  · rw [hstart]
    exact List.mem_cons_self
  · exact List.mem_cons_of_mem _ (hks out hpair.out_mem _ hx)

/-- The vertices that a search can lead to are the start and what bounds the targets of edges. -/
theorem reached_length_le {n : Nat} (hbounded : ∃ ks : List Key, ks.length ≤ n ∧
    ∀ e ∈ t.edges, ∀ k, e.target.id.key = .ok k → k ∈ ks) {F : Frontier Key}
    (hs : F.Sound (t.Hop r) b.Allows start) : F.reached.length ≤ n + 1 := by
  obtain ⟨ks, hlen, hks⟩ := hbounded
  have hsub : F.reached.map Prod.fst ⊆ start :: ks := fun d hd => by
    obtain ⟨p, hp, rfl⟩ := List.mem_map.mp hd
    exact reached_mem hks (hs.reached p hp).2
  have := hs.once.length_le_of_subset hsub
  rw [List.length_map, List.length_cons] at this
  omega

/-- A walk starts with its dataset alone. -/
theorem Tracks.init (t : Terrain) (r : Recorder) {p : Pending} (hk : p.vertex.id.key = .ok start)
    (x₀ : VertexBudget) (g₀ : LineageGraph) :
    Tracks t r p.budget start g₀ x₀ ⟨[p], [], x₀, g₀⟩ ⟨[(start, 0)], []⟩ where
  queued := .cons hk rfl .nil
  visited := rfl
  took := (Recorder.TookAll.none g₀).congr fun _ => by simp [Terrain.callsOf]
  charged := rfl
  sound := Frontier.Sound.init _ _ _

/-- The datasets that a finished search expanded are those within the budget. -/
theorem reached_iff_within {v : Vertex} (hk : v.id.key = .ok start) {reached : List (Key × Nat)}
    (hs : Frontier.Sound (t.Hop r) b.Allows start ⟨[], reached⟩) (d : Key) :
    (∃ i, (d, i) ∈ reached) ↔ t.Within r b v d := by
  rw [hs.reached_iff HopBudget.Allows.mono]
  constructor
  · intro h
    obtain ⟨n, ha, hr⟩ := h
    exact ⟨start, n, hk, ha, hr⟩
  · intro h
    obtain ⟨start', n, hk', ha, hr⟩ := h
    rw [hk] at hk'
    cases hk'
    exact ⟨n, ha, hr⟩

theorem reached_length {v : Vertex} (hk : v.id.key = .ok start) {reached : List (Key × Nat)}
    (hs : Frontier.Sound (t.Hop r) b.Allows start ⟨[], reached⟩) :
    reached.length = t.cost r b v := by
  have hset : {d | t.Within r b v d} = ((reached.map Prod.fst).toFinset : Set Key) := by
    ext d
    rw [Set.mem_ofPred_eq, ← reached_iff_within hk hs, List.coe_toFinset, Set.mem_ofPred_eq,
      List.mem_map]
    exact ⟨fun ⟨i, hi⟩ => ⟨(d, i), hi, rfl⟩, fun ⟨p, hp, hd⟩ => ⟨p.2, hd ▸ hp⟩⟩
  unfold Terrain.cost
  rw [hset, Set.ncard_coe_finset, List.toFinset_card_of_nodup hs.once, List.length_map]

/-- Different datasets within the budget are no more than there are. -/
theorem length_le_cost {ks : List Key}
    (hks : ∀ e ∈ t.edges, ∀ k, e.target.id.key = .ok k → k ∈ ks) {v : Vertex} {ds : List Key}
    (hnodup : ds.Nodup) (hds : ∀ d ∈ ds, t.Within r b v d) : ds.length ≤ t.cost r b v := by
  have hfinite : {d | t.Within r b v d}.Finite := by
    cases hk : v.id.key with
    | error e =>
        refine Set.Finite.subset Set.finite_empty fun d hd => ?_
        obtain ⟨_, _, hstart, _⟩ := hd
        cases hk.symm.trans hstart
    | ok start =>
        refine (List.finite_toSet (start :: ks)).subset fun d hd => ?_
        obtain ⟨start', n, hstart, _, hreach⟩ := hd
        obtain rfl := Except.ok.inj (hk.symm.trans hstart)
        exact reached_mem hks hreach
  have hsub : (ds.toFinset : Set Key) ⊆ {d | t.Within r b v d} := fun d hd =>
    hds d (List.mem_toFinset.mp (Finset.mem_coe.mp hd))
  have hcard := Set.ncard_le_ncard hsub hfinite
  rwa [Set.ncard_coe_finset, List.toFinset_card_of_nodup hnodup] at hcard

end Walker

namespace Recorder

/-- **What becomes of a walk that makes the calls and expands so many vertices**: a lineage graph
that was called for all of them, with as much charged; or a fault, as one of the calls fails or the
vertex budget is exceeded. -/
def Goes (r : Recorder) (calls : Call → Prop) (cost : Nat) (g : LineageGraph)
    (x : VertexBudget) : Outcome (LineageGraph × VertexBudget) → Prop
  | .ok (g', x') => r.TookAll calls g g' ∧ x.charges r.context.guid cost = .ok x'
  | .error e => (∃ c, calls c ∧ r.Fails c e) ∨ x.charges r.context.guid cost = .error e

namespace Goes

variable {r : Recorder} {calls calls' : Call → Prop} {cost cost' : Nat} {g g₁ : LineageGraph}
  {x x₁ : VertexBudget} {o : Outcome (LineageGraph × VertexBudget)}

theorem congr (h : r.Goes calls cost g x o) (hcalls : ∀ c, calls c ↔ calls' c)
    (hcost : cost = cost') : r.Goes calls' cost' g x o := by
  obtain rfl : calls = calls' := funext fun c => propext (hcalls c)
  exact hcost ▸ h

/-- A walk that goes on where another ended. -/
theorem append (h : r.Goes calls cost g x (.ok (g₁, x₁))) (h' : r.Goes calls' cost' g₁ x₁ o) :
    r.Goes (fun c => calls c ∨ calls' c) (cost + cost') g x o := by
  obtain ⟨hT, hx⟩ := h
  have hadd (y : Outcome VertexBudget) (hy : x₁.charges r.context.guid cost' = y) :
      x.charges r.context.guid (cost + cost') = y := by
    rw [VertexBudget.charges_add, hx]
    exact hy
  cases o with
  | ok a => exact ⟨hT.append h'.1, hadd _ h'.2⟩
  | error e => exact h'.imp (fun ⟨c, hc, hf⟩ => ⟨c, .inr hc, hf⟩) (hadd _)

/-- A walk that does not go on after a fault. -/
theorem fault {e : Fault} (h : r.Goes calls cost g x (.error e)) (calls' : Call → Prop)
    (cost' : Nat) : r.Goes (fun c => calls c ∨ calls' c) (cost + cost') g x (.error e) :=
  h.imp (fun ⟨c, hc, hf⟩ => ⟨c, .inl hc, hf⟩)
    fun hx => VertexBudget.charges_error hx (Nat.le_add_right _ _)

/-- **A walk of which no call fails ends**, if it has no vertex budget. -/
theorem isOk (h : r.Goes calls cost g x o) (hfails : ∀ c, calls c → ∀ e, ¬r.Fails c e)
    (hx : x.limit.truth = false) : ∃ a, o = .ok a := by
  cases o with
  | ok a => exact ⟨a, rfl⟩
  | error e =>
      rcases h with ⟨c, hc, hf⟩ | hcharges
      · exact absurd hf (hfails c hc e)
      · cases (VertexBudget.charges_isOk hx r.context.guid cost).symm.trans hcharges

end Goes

end Recorder

namespace Walker

variable {t : Terrain} {r : Recorder} {b : HopBudget} {start : Key}

section

variable {m : Type → Type} [Monad m] [MonadExceptOf Fault m] {w : Walker m} {O : Outlook m}
  {known : Vertex → Prop} {backward : Bool}

/-- **A walk from a dataset makes the calls for what lies within its budget**, and charges each
dataset once. -/
theorem runFrom_ends (ho : w.Surveys O known backward t) {p : Pending} (hknown : known p.vertex)
    (hk : p.vertex.id.key = .ok start) (r : Recorder) (x₀ : VertexBudget) (g₀ : LineageGraph) :
    O.ends (w.runFrom r backward p x₀ g₀) fun o =>
      r.Goes (t.CallsFrom r p.budget p.vertex) (t.cost r p.budget p.vertex) g₀ x₀
        (o.map fun s => (s.lineage, s.budget)) := by
  have hqueue : ∀ q ∈ [p], known q.vertex := fun q hq => List.mem_singleton.mp hq ▸ hknown
  refine O.imp (run_ends ho (Tracks.init t r hk x₀ g₀) hqueue) fun o hran => ?_
  cases o with
  | ok s =>
      obtain ⟨⟨waiting, reached⟩, hs, hT, hx, hend⟩ := hran
      -- the rounds are one more than there are things to expand
      have hlen : reached.length ≤ w.graph.order + 1 := reached_length_le ho.bounded hs
      obtain rfl : waiting = [] := by
        refine hend.resolve_right fun hl => ?_
        have hl : reached.length = 0 + (w.graph.order + 2) := hl
        omega
      refine ⟨hT.congr fun c => ?_, reached_length hk hs ▸ hx⟩
      rw [Terrain.mem_callsOf]
      exact exists_congr fun d => and_congr (reached_iff_within hk hs d) Iff.rfl
  | error e =>
      obtain ⟨key, j, waiting, reached, hs, ha, hnew, hfault⟩ := hran
      have hwithin : t.Within r p.budget p.vertex key :=
        ⟨start, j, hk, ha, hs.found (key, j) List.mem_cons_self⟩
      refine hfault.imp (fun ⟨into, out, hp, hf⟩ => ⟨_, ⟨key, hwithin, into, out, hp, rfl⟩, hf⟩)
        fun hx => VertexBudget.charges_error hx ?_
      -- what was expanded and what would have been next are all within the budget
      obtain ⟨ks, _, hks⟩ := ho.bounded
      have hle := length_le_cost hks (List.nodup_cons.mpr ⟨hnew, hs.once⟩) fun d hd => by
        rcases List.mem_cons.mp hd with rfl | hd
        · exact hwithin
        · obtain ⟨q, hq, rfl⟩ := List.mem_map.mp hd
          exact ⟨start, q.2, hk, (hs.reached q hq).1, (hs.reached q hq).2⟩
      rwa [List.length_cons, List.length_map] at hle

end

/-! ## 4. Rounds of a walk -/

variable {w : Walker Outcome} {backward : Bool}

/-- One round of a walk, as a chain of steps that can fail. -/
theorem run_succ (n : Nat) (s : WalkState) :
    w.run r backward (n + 1) s = nextPending s.visited s.queue >>= fun next =>
      match next with
      | none => .ok s
      | some (p, key, rest) =>
        s.budget.charge r.context.guid >>= fun budget =>
          w.expand r backward (key :: s.visited) p s.lineage >>= fun h =>
            w.run r backward n ⟨rest ++ h.found, key :: s.visited, budget, h.lineage⟩ := by
  show (MonadExcept.ofExcept _ >>= _) = _
  rw [ofExcept_eq]
  refine congrArg _ (funext fun next => ?_)
  match next with
  | none => rfl
  | some (p, key, rest) =>
      show (MonadExcept.ofExcept _ >>= _) = _
      rw [ofExcept_eq]

/-- The call for a pair of edges that can be looked at does not fail. -/
theorem pair_not_fails (hr : ∀ e ∈ t.edges, r.ReadsEdge e) {d : Key} {into out : Edge}
    (hp : t.PairAt d into out) (f : Fault) : ¬r.Fails (.pair into out) f := by
  have hi := hr into hp.into_mem
  have ho := hr out hp.out_mem
  refine (Recorder.pair_passes hi ho).not_fails (fun e he => ?_) f
  rcases List.mem_cons.mp he with rfl | he
  · exact hi.named
  · exact List.mem_singleton.mp he ▸ ho.named

/-- An expansion over edges that can be looked at does not fail. -/
theorem expand_isOk (ho : w.Over backward t) (hr : ∀ e ∈ t.edges, r.ReadsEdge e)
    (visited : List Key) {p : Pending} {d : Key} (hd : p.vertex.id.key = .ok d)
    (lineage : LineageGraph) : ∃ h, w.expand r backward visited p lineage = .ok h := by
  rw [expand_eq ho visited hd]
  cases he : (t.pairsAt d).foldlM (takeOne r visited p.budget.next) ⟨lineage, []⟩ with
  | ok h => exact ⟨h, rfl⟩
  | error e =>
      obtain ⟨q, hq, hfails⟩ := takePairs_error
        (fun q hq => ho.shows.end_key (Terrain.mem_pairsAt.mp hq).out_mem .incoming) he
      exact absurd hfails (pair_not_fails hr (Terrain.mem_pairsAt.mp hq) e)

/-! ## 5. Walks with a vertex budget -/

/-- The fault that more vertices would have to be expanded than may be. -/
def tooMany (m : Nat) (guid : Value) : Fault := .lineage (.budgetExceeded (.int m)) guid

/-- Charging a limit that is a number. -/
theorem charge_int (m x : Nat) (guid : Value) :
    VertexBudget.charge ⟨.int m, x⟩ guid =
      if m = 0 ∨ x + 1 ≤ m then .ok ⟨.int m, x + 1⟩ else .error (tooMany m guid) := by
  unfold VertexBudget.charge
  show (VertexBudget.exceeded ⟨.int m, x + 1⟩ >>= _) = _
  rw [VertexBudget.exceeded_int, Outcome.ok_bind]
  by_cases h : m = 0 ∨ x + 1 ≤ m
  · have hb : ((m : Int) != 0 && decide ((m : Int) < ((x + 1 : Nat) : Int))) = false := by
      rw [Bool.and_eq_false_iff, bne_eq_false_iff_eq, decide_eq_false_iff_not]
      omega
    rw [if_pos h, hb]
    rfl
  · have hb : ((m : Int) != 0 && decide ((m : Int) < ((x + 1 : Nat) : Int))) = true := by
      rw [Bool.and_eq_true, bne_iff_ne, decide_eq_true_eq]
      omega
    rw [if_neg h, hb]
    rfl

/-- **With a vertex budget a run ends as it would without one**, or in the fault that the budget is
exceeded, when it would expand more vertices than are left. -/
theorem run_limited {n : Nat} {s s' : WalkState} (h : w.run r backward n s = .ok s')
    {m x : Nat} (hx : m = 0 ∨ x ≤ m) :
    ∃ k, s'.budget = ⟨s.budget.limit, s.budget.expanded + k⟩ ∧
      w.run r backward n { s with budget := ⟨.int m, x⟩ } =
        if m = 0 ∨ x + k ≤ m then .ok { s' with budget := ⟨.int m, x + k⟩ }
        else .error (tooMany m r.context.guid) := by
  induction n generalizing s x with
  | zero =>
      cases h
      refine ⟨0, rfl, ?_⟩
      rw [Nat.add_zero, if_pos hx]
      rfl
  | succ n ih =>
      rw [run_succ] at h ⊢
      obtain ⟨next, hnext, h⟩ := Outcome.bind_eq_ok.mp h
      show ∃ k, _ ∧ (nextPending s.visited s.queue >>= _) = _
      rw [hnext]
      match next with
      | none =>
          cases h
          refine ⟨0, rfl, ?_⟩
          rw [Nat.add_zero, if_pos hx]
          rfl
      | some (p, key, rest) =>
          obtain ⟨budget, hc, h⟩ := Outcome.bind_eq_ok.mp h
          obtain ⟨hv, he, h⟩ := Outcome.bind_eq_ok.mp h
          have hb := VertexBudget.charge_ok hc
          by_cases hx' : m = 0 ∨ x + 1 ≤ m
          · obtain ⟨k, hk, hrun⟩ := ih h hx'
            refine ⟨k + 1, ?_, ?_⟩
            · rw [hk, hb, Nat.add_assoc, Nat.add_comm 1 k]
            · show (VertexBudget.charge ⟨.int m, x⟩ r.context.guid >>= _) = _
              rw [charge_int, if_pos hx', Outcome.ok_bind]
              show (w.expand r backward (key :: s.visited) p s.lineage >>= _) = _
              rw [he, Outcome.ok_bind, hrun, Nat.add_assoc, Nat.add_comm 1 k]
          · obtain ⟨k, hk, _⟩ := ih (x := 0) h (Nat.eq_zero_or_pos m |>.imp id fun h => Nat.zero_le m)
            refine ⟨k + 1, ?_, ?_⟩
            · rw [hk, hb, Nat.add_assoc, Nat.add_comm 1 k]
            · show (VertexBudget.charge ⟨.int m, x⟩ r.context.guid >>= _) = _
              rw [charge_int, if_neg hx', if_neg (by omega)]
              rfl

end Walker

end DataLineage
