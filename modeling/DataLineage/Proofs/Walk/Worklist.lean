import DataLineage.Proofs.Lineage.Exact
import DataLineage.Proofs.Walk.Explore

/-!
# How long a walk goes on

The loop of a walk takes one entry of its queue after the other. An entry that is spent, or whose
dataset was expanded before, is dropped; any other is expanded, and what it finds waits at the end.
A run of the loop is told by its log: one note for each entry, which names the dataset and the hop
budget it was expanded with, or nothing where the entry was dropped.

* `Walker.handle`, `Walker.Drains` -- one entry, and the loop until nothing waits;
* `Walker.Drains.unique`, `Walker.Drains.run` -- the log is determined, and the loop ends where a
  walk of as many rounds as there are expansions ends;
* `Walker.Tracks.handle` -- **one turn keeps the invariant of the search**, and adds at most one
  entry for each pair at the expanded dataset;
* `Walker.worklist_ends` -- **over a graph in memory the loop ends**: each dataset is expanded at
  most once, with what is left after the least number of open hops, and no more entries are taken
  than the first and one for each pair at an expanded dataset.
-/

namespace DataLineage

/-! ## 1. Turns of the loop -/

namespace Walker

/-- What a turn notes: the dataset that it expands with the budget left there, or nothing. -/
abbrev Note := Option (Key × HopBudget)

/-- **One turn of the loop**, for the first entry of the queue and what waits behind it. -/
def handle (w : Walker Outcome) (r : Recorder) (backward : Bool) (p : Pending) (rest : List Pending)
    (s : WalkState) : Outcome (Note × WalkState) :=
  if p.budget.spent then return (none, { s with queue := rest })
  else do
    let key ← p.vertex.id.key
    if s.visited.contains key then return (none, { s with queue := rest })
    else do
      let budget ← s.budget.charge r.context.guid
      let h ← w.expand r backward (key :: s.visited) p s.lineage
      return (some (key, p.budget), ⟨rest ++ h.found, key :: s.visited, budget, h.lineage⟩)

/-- **The loop**, from a state to the one in which nothing waits any more, with its log. -/
inductive Drains (w : Walker Outcome) (r : Recorder) (backward : Bool) :
    WalkState → List Note → WalkState → Prop where
  | done {s : WalkState} (empty : s.queue = []) : Drains w r backward s [] s
  | entry {s s₁ s' : WalkState} {p : Pending} {rest : List Pending} {note : Note} {log : List Note}
      (first : s.queue = p :: rest) (step : w.handle r backward p rest s = .ok (note, s₁))
      (more : Drains w r backward s₁ log s') : Drains w r backward s (note :: log) s'

variable {w : Walker Outcome} {backward : Bool} {r : Recorder}

/-- **The loop has one log and one end.** -/
theorem Drains.unique {s s₁ s₂ : WalkState} {log₁ log₂ : List Note}
    (h₁ : w.Drains r backward s log₁ s₁) (h₂ : w.Drains r backward s log₂ s₂) :
    log₂ = log₁ ∧ s₂ = s₁ := by
  induction h₁ generalizing log₂ with
  | done empty =>
      cases h₂ with
      | done _ => exact ⟨rfl, rfl⟩
      | entry first _ _ => cases empty.symm.trans first
  | entry first step _ ih =>
      cases h₂ with
      | done empty => cases empty.symm.trans first
      | entry first' step' more =>
          cases first.symm.trans first'
          cases step.symm.trans step'
          obtain ⟨hlog, hs⟩ := ih more
          exact ⟨congrArg _ hlog, hs⟩

/-- Of two runs whose next dataset is the same, one leaves what the other does, but for entries that
wait in vain. -/
theorem run_dropped {n : Nat} {s s' : WalkState} {q : List Pending}
    (hq : nextPending s.visited s.queue = nextPending s.visited q)
    (h : w.run r backward (n + 1) { s with queue := q } = .ok s') :
    ∃ q', w.run r backward (n + 1) s = .ok { s' with queue := q' } := by
  rw [run_succ] at h ⊢
  rw [hq]
  obtain ⟨next, hnext, h⟩ := Outcome.bind_eq_ok.mp h
  have hnext : nextPending s.visited q = .ok next := hnext
  rw [hnext, Outcome.ok_bind]
  match next with
  | none =>
      cases h
      exact ⟨s.queue, rfl⟩
  | some _ => exact ⟨s'.queue, h⟩

/-- **The loop ends where a walk ends** that has a round left for each expansion: nothing but
entries that wait in vain is left in the queue of the walk. -/
theorem Drains.run {s s' : WalkState} {log : List Note} (h : w.Drains r backward s log s') {n : Nat}
    (hn : log.reduceOption.length < n) :
    ∃ q, w.run r backward n s = .ok { s' with queue := q } := by
  induction h generalizing n with
  | @done s empty =>
      obtain ⟨n, rfl⟩ : ∃ m, n = m + 1 := ⟨n - 1, by omega⟩
      rw [run_succ, empty]
      exact ⟨s.queue, rfl⟩
  | @entry s s₁ s' p rest note log first step more ih =>
      obtain ⟨n, rfl⟩ : ∃ m, n = m + 1 := ⟨n - 1, by omega⟩
      unfold Walker.handle at step
      split at step
      · rename_i hspent
        cases step
        obtain ⟨q, hq⟩ := ih hn
        obtain ⟨q', hq'⟩ := run_dropped (by rw [first, nextPending_spent _ _ _ hspent]) hq
        exact ⟨q', hq'⟩
      · rename_i hspent
        obtain ⟨key, hkey, step⟩ := Outcome.bind_eq_ok.mp step
        have hnext : nextPending s.visited s.queue =
            if s.visited.contains key then nextPending s.visited rest
            else .ok (some (p, key, rest)) := by
          rw [first, nextPending, if_neg hspent, hkey]
          rfl
        split at step
        · rename_i hvisited
          cases step
          rw [if_pos hvisited] at hnext
          obtain ⟨q, hq⟩ := ih hn
          obtain ⟨q', hq'⟩ := run_dropped hnext hq
          exact ⟨q', hq'⟩
        · rename_i hvisited
          rw [if_neg hvisited] at hnext
          obtain ⟨budget, hbudget, step⟩ := Outcome.bind_eq_ok.mp step
          obtain ⟨found, hfound, step⟩ := Outcome.bind_eq_ok.mp step
          cases step
          have hlog : (some (key, p.budget) :: log).reduceOption.length =
              log.reduceOption.length + 1 := by
            rw [List.reduceOption_cons_of_some, List.length_cons]
          obtain ⟨q, hq⟩ := ih (n := n) (by omega)
          refine ⟨q, ?_⟩
          rw [run_succ, hnext, Outcome.ok_bind]
          show (s.budget.charge r.context.guid >>= _) = _
          rw [hbudget, Outcome.ok_bind, hfound, Outcome.ok_bind]
          exact hq

/-! ## 2. One turn of a search -/

variable {t : Terrain} {b : HopBudget} {start : Key} {g₀ : LineageGraph} {x₀ : VertexBudget}

/-- A fold over pairs finds at most one dataset for each. -/
theorem takePairs_length {visited : List Key} {budget : HopBudget} {ps : List (Edge × Edge)}
    {h h' : Harvest} (ht : ps.foldlM (takeOne r visited budget) h = .ok h') :
    h'.found.length ≤ h.found.length + ps.length := by
  induction ps generalizing h with
  | nil =>
      cases ht
      exact Nat.le_refl _
  | cons p rest ih =>
      obtain ⟨h₁, hone, ht⟩ := Outcome.bind_eq_ok.mp ht
      have hrest := ih ht
      obtain ⟨_, ⟨hfound, _⟩ | ⟨x, _, _, _, hfound⟩⟩ := takeOne_ok hone
      all_goals
        rw [hfound] at hrest
        simp only [List.length_cons, List.length_append, List.length_nil] at hrest ⊢
        omega

/-- How many pairs lie at the datasets that a log names. -/
def pairsIn (t : Terrain) (log : List Note) : Nat :=
  (log.reduceOption.map fun d => (t.pairsAt d.1).length).sum

/-- What a search knows of a turn: nothing of a dropped entry, of an expansion the dataset and the
number of hops to it. -/
inductive Noted (b : HopBudget) : Note → List (Key × Nat) → Prop where
  | dropped : Noted b none []
  | expanded (k : Key) (j : Nat) : Noted b (some (k, b.after j)) [(k, j)]

/-- **One turn keeps the invariant of the search.** It does not fail, it takes one entry off the
queue, and adds at most one for each pair at the dataset that it expands. -/
theorem Tracks.handle (ho : w.Over backward t) (hr : ∀ e ∈ t.edges, r.ReadsEdge e)
    (hx : x₀.limit.truth = false) {s : WalkState} {F : Frontier Key}
    (hs : Tracks t r b start g₀ x₀ s F) {p : Pending} {rest : List Pending}
    (hfirst : s.queue = p :: rest) :
    ∃ note s₁ F₁ new, w.handle r backward p rest s = .ok (note, s₁) ∧
      Tracks t r b start g₀ x₀ s₁ F₁ ∧ Noted b note new ∧ F₁.reached = new ++ F.reached ∧
      s₁.queue.length ≤ rest.length + pairsIn t [note] := by
  obtain ⟨queued, visited, took, charged, sound⟩ := hs
  obtain ⟨waiting, reached⟩ := F
  rw [hfirst] at queued
  obtain _ | @⟨_, k, j, _, ks, hk, hb, hrest⟩ := queued
  unfold Walker.handle
  by_cases hspent : p.budget.spent = true
  · have hna : ¬ b.Allows j := by
      intro ha
      rw [HopBudget.Allows, ← hb, hspent] at ha
      cases ha
    rw [if_pos hspent]
    exact ⟨none, _, ⟨ks, reached⟩, [], rfl,
      ⟨hrest, visited, took, charged, sound.drop HopBudget.Allows.mono (.inl hna)⟩, .dropped, rfl,
      Nat.le_add_right _ _⟩
  · rw [if_neg hspent, hk, Outcome.ok_bind]
    by_cases hv : k ∈ reached.map Prod.fst
    · obtain ⟨⟨k', i⟩, hi, rfl⟩ := List.mem_map.mp hv
      rw [if_pos (List.contains_iff_mem.mpr (visited ▸ hv))]
      exact ⟨none, _, ⟨ks, reached⟩, [], rfl,
        ⟨hrest, visited, took, charged, sound.drop HopBudget.Allows.mono (.inr ⟨i, hi⟩)⟩,
        .dropped, rfl, Nat.le_add_right _ _⟩
    · have ha : b.Allows j := by
        rw [HopBudget.Allows, ← hb]
        exact Bool.eq_false_iff.mpr hspent
      rw [if_neg fun hc => hv (visited ▸ List.contains_iff_mem.mp hc)]
      have hlimit : s.budget.limit.truth = false := by rw [VertexBudget.charges_ok charged, hx]
      have hc := VertexBudget.charge_isOk hlimit r.context.guid
      obtain ⟨h, he⟩ := expand_isOk ho hr (k :: s.visited) hk s.lineage
      have hpairs := (expand_eq ho (k :: s.visited) hk s.lineage).symm.trans he
      obtain ⟨found, htracks⟩ :=
        Tracks.round visited took charged hb ha hv hrest sound hc (.refl _) hpairs
      have hlength : h.found.length ≤ (t.pairsAt k).length := by
        simpa using takePairs_length hpairs
      refine ⟨some (k, b.after j), _, _, [(k, j)], ?_, htracks, .expanded k j, rfl, ?_⟩
      · rw [hc, Outcome.ok_bind, he, Outcome.ok_bind, hb]
        rfl
      · simp only [pairsIn, List.length_append]
        simpa using hlength

/-! ## 3. The loop of a search -/

/-- What a search knows of a log, the latest first. -/
inductive Logged (b : HopBudget) : List Note → List (Key × Nat) → Prop where
  | nil : Logged b [] []
  | cons {note : Note} {log : List Note} {new later : List (Key × Nat)} (first : Noted b note new)
      (rest : Logged b log later) : Logged b (note :: log) (later ++ new)

/-- What a log names was expanded, with what is left after the hops to it. -/
theorem Logged.reduceOption {log : List Note} {reached : List (Key × Nat)}
    (h : Logged b log reached) :
    log.reduceOption = (reached.map fun d => (d.1, b.after d.2)).reverse := by
  induction h with
  | nil => rfl
  | cons first rest ih =>
      cases first with
      | dropped => rw [List.append_nil, List.reduceOption_cons_of_none, ih]
      | expanded k j =>
          rw [List.reduceOption_cons_of_some, ih, List.map_append, List.reverse_append]
          rfl

/-- **The loop ends**: there are no more datasets to expand than the graph bounds, and between two
expansions the queue only gets shorter. -/
theorem Tracks.drains (ho : w.Over backward t) (hr : ∀ e ∈ t.edges, r.ReadsEdge e)
    (hx : x₀.limit.truth = false) {s : WalkState} {F : Frontier Key}
    (hs : Tracks t r b start g₀ x₀ s F) :
    ∃ log s' F' new, w.Drains r backward s log s' ∧ Tracks t r b start g₀ x₀ s' F' ∧
      s'.queue = [] ∧ Logged b log new ∧ F'.reached = new ++ F.reached ∧
      log.length ≤ s.queue.length + pairsIn t log := by
  match hqueue : s.queue with
  | [] => exact ⟨[], s, F, [], .done hqueue, hs, hqueue, .nil, rfl, Nat.zero_le _⟩
  | p :: rest =>
    obtain ⟨note, s₁, F₁, new₁, hhandle, hs₁, hnoted, hreached₁, hlength₁⟩ :=
      hs.handle ho hr hx hqueue
    obtain ⟨log, s', F', new, hdrains, hs', hempty, hlogged, hreached, hlength⟩ :=
      Tracks.drains ho hr hx hs₁
    refine ⟨note :: log, s', F', new ++ new₁, .entry hqueue hhandle hdrains, hs', hempty,
      .cons hnoted hlogged, ?_, ?_⟩
    · rw [hreached, hreached₁, List.append_assoc]
    · have hsum : pairsIn t (note :: log) = pairsIn t [note] + pairsIn t log := by
        cases note <;>
          simp [pairsIn, List.reduceOption_cons_of_none, List.reduceOption_cons_of_some]
      simp only [List.length_cons, hsum]
      omega
termination_by (w.graph.order + 1 - F.reached.length, s.queue.length)
decreasing_by
  have hbound := reached_length_le ho.shows.bounded hs₁.sound
  rw [hreached₁, List.length_append] at hbound ⊢
  cases hnoted with
  | dropped =>
      rw [List.length_nil, Nat.zero_add]
      have hnone : pairsIn t [none] = 0 := rfl
      refine Prod.Lex.right _ ?_
      rw [hqueue, List.length_cons]
      omega
  | expanded k j =>
      refine Prod.Lex.left _ _ ?_
      rw [List.length_singleton] at hbound ⊢
      omega

end Walker

/-- **What a finished search expanded** lies the noted number of hops from the start and no fewer,
and is all that the budget allows. -/
theorem Frontier.Sound.reached_nearest {α : Type} {hop : α → α → Prop} {allows : Nat → Prop}
    {start : α} (mono : ∀ i j, i ≤ j → allows j → allows i) {reached : List (α × Nat)}
    (h : Sound hop allows start ⟨[], reached⟩) (k : α) (j : Nat) :
    (k, j) ∈ reached ↔ Nearest hop j start k ∧ allows j := by
  constructor
  · intro hj
    obtain ⟨ha, hr⟩ := h.reached _ hj
    exact ⟨⟨hr, fun n hn => h.least mono hj hn⟩, ha⟩
  · rintro ⟨hnear, ha⟩
    obtain ⟨i, hi, hk⟩ := h.complete mono hnear.1 ha
    have hij : i = j := Nat.le_antisymm hi (hnear.2 i (h.reached _ hk).2)
    exact hij ▸ hk

/-! ## 4. Over a graph in memory -/

/-- **Over a graph in memory the loop ends**, whatever its cycles, from every dataset and under
every hop budget, if every edge can be looked at and no vertex budget is set. It has one log, and
ends where the walk ends. It expands no dataset twice, and just those that open hops lead to and the
budget allows; what is left there is the budget after the least number of these hops
(`HopBudget.after_hops`, `HopBudget.after_unbounded`). And it takes no more entries off its queue
than the first and one for each pair at an expanded dataset. -/
theorem Walker.worklist_ends {g : MemoryGraph} (hg : g.Built)
    {answer : Script → Outcome (List Edge)} {w : Walker Outcome}
    (hw : w.graph = g.accessWith answer) {backward : Bool} {T : Terrain}
    (hT : T.For g.added.toList w.taxonomy.labels backward) {r : Recorder}
    (hr : ∀ e ∈ g.added.toList, r.ReadsEdge e) {p : Pending} {start : Key}
    (hstart : p.vertex.id.key = .ok start) {x₀ : VertexBudget} (hx : x₀.limit.truth = false)
    (g₀ : LineageGraph) :
    ∃ log s, w.Drains r backward ⟨[p], [], x₀, g₀⟩ log s ∧
      (∀ log' s', w.Drains r backward ⟨[p], [], x₀, g₀⟩ log' s' → log' = log ∧ s' = s) ∧
      (∃ q, w.runFrom r backward p x₀ g₀ = .ok { s with queue := q }) ∧
      (log.reduceOption.map Prod.fst).Nodup ∧
      (∀ k b, some (k, b) ∈ log ↔
        ∃ m, Nearest (T.Hop r) m start k ∧ p.budget.Allows m ∧ b = p.budget.after m) ∧
      log.length ≤ 1 + (log.reduceOption.map fun d => (T.pairsAt d.1).length).sum := by
  have ho : w.Over backward T := ⟨by rw [hw, hT.edges]; exact hg.shows answer, hT.into, hT.out⟩
  have hreads : ∀ e ∈ T.edges, r.ReadsEdge e := fun e he => hr e (hT.edges ▸ he)
  obtain ⟨log, s, ⟨waiting, reached⟩, new, hdrains, htracks, hempty, hlogged, hreached, hlength⟩ :=
    Walker.Tracks.drains ho hreads hx (Walker.Tracks.init T r hstart x₀ g₀)
  obtain rfl : reached = new := hreached.trans (List.append_nil _)
  have hwaiting : waiting = [] := by
    have hq := htracks.queued
    rw [hempty] at hq
    cases hq
    rfl
  subst hwaiting
  have hsound := htracks.sound
  have hlog := hlogged.reduceOption
  refine ⟨log, s, hdrains, fun _ _ h => hdrains.unique h, ?_, ?_, fun k b => ?_, hlength⟩
  · refine hdrains.run ?_
    have hbound := Walker.reached_length_le ho.shows.bounded hsound
    have hbound : reached.length ≤ w.graph.order + 1 := hbound
    rw [hlog, List.length_reverse, List.length_map]
    omega
  · rw [hlog, List.map_reverse, List.map_map, List.nodup_reverse]
    exact hsound.once
  · rw [← List.reduceOption_mem_iff, hlog, List.mem_reverse, List.mem_map]
    constructor
    · rintro ⟨⟨k', m⟩, hm, heq⟩
      cases heq
      obtain ⟨hnear, hallows⟩ := (hsound.reached_nearest HopBudget.Allows.mono k' m).mp hm
      exact ⟨m, hnear, hallows, rfl⟩
    · rintro ⟨m, hnear, hallows, rfl⟩
      exact ⟨(k, m), (hsound.reached_nearest HopBudget.Allows.mono k m).mpr ⟨hnear, hallows⟩, rfl⟩

namespace Loop

/-- Walks over the catalogue, without a vertex budget. -/
def walker : Walker Outcome := ⟨graph.access, taxonomy, false, .int 0⟩

/-- The walk from `y` over all hops, before anything is taken from its queue. -/
def beginning : WalkState :=
  ⟨[⟨table "y", .unbounded⟩], [], .start (.int 0), .empty (.text "y") .output (.int 0)⟩

end Loop

/-- Around the loop the walk from `y` ends: every edge of the catalogue can be looked at. -/
theorem Walker.worklist_ends_loop :
    Loop.graph.Built ∧ Loop.terrain.For Loop.graph.added.toList Loop.taxonomy.labels false ∧
    (∀ e ∈ Loop.graph.added.toList, (Loop.walker.recorder Loop.context).ReadsEdge e) ∧
    ∃ log s, Loop.walker.Drains (Loop.walker.recorder Loop.context) false Loop.beginning log s ∧
      (∀ k b, some (k, b) ∈ log ↔
        ∃ m, Nearest (Loop.terrain.Hop (Loop.walker.recorder Loop.context)) m (.text "y") k ∧
          HopBudget.unbounded.Allows m ∧ b = HopBudget.unbounded.after m) ∧
      log.length ≤
        1 + (log.reduceOption.map fun d => (Loop.terrain.pairsAt d.1).length).sum := by
  have hreads : ∀ e ∈ Loop.graph.added.toList,
      (Loop.walker.recorder Loop.context).ReadsEdge e :=
    fun e he => Loop.graphRequest.readsEdge Loop.seeded rfl he
  obtain ⟨log, s, hdrains, -, -, -, hexpanded, hlength⟩ :=
    Walker.worklist_ends (w := Loop.walker) (p := ⟨Loop.table "y", .unbounded⟩)
      Loop.seeded.built rfl Loop.terrain_for hreads rfl
      (show (VertexBudget.start (.int 0)).limit.truth = false from rfl)
      (.empty (.text "y") .output (.int 0))
  exact ⟨Loop.seeded.built, Loop.terrain_for, hreads, log, s, hdrains, hexpanded, hlength⟩

end DataLineage
