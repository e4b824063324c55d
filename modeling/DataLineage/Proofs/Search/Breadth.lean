import Mathlib.Data.List.Nodup

/-!
# Searching breadth first

A search takes the first of what waits, expands it unless it is spent or was expanded before, and
lets what it finds wait at the end. Nothing here knows about graphs: there are hops from one thing
to another, and `allows` says how many hops from the start may be expanded.

* `ReachesIn hop n a b` -- `n` hops lead from `a` to `b`, `Nearest hop n a b` -- and no fewer do;
* `Frontier.Sound` -- **the invariant of a search**: what waits is in the order of the hops that led
  to it and spans at most two numbers of them, nothing that was expanded lies further out than what
  waits, and whatever is one hop from an expanded thing is taken care of;
* `Frontier.Sound.drop`, `Frontier.Sound.expand` -- the two steps keep it;
* `Frontier.Sound.complete`, `Frontier.Sound.least` -- when nothing waits any more, everything
  within the allowed hops was expanded, once, and under the least number of hops that lead to it.
-/

namespace DataLineage

variable {α : Type}

/-! ## 1. Hops -/

/-- **So many hops lead from the one to the other.** -/
inductive ReachesIn (hop : α → α → Prop) : Nat → α → α → Prop where
  | here (a : α) : ReachesIn hop 0 a a
  | step {n : Nat} {a b c : α} (h : ReachesIn hop n a b) (hb : hop b c) : ReachesIn hop (n + 1) a c

theorem ReachesIn.mono {hop hop' : α → α → Prop} (hh : ∀ a b, hop a b → hop' a b) {n : Nat}
    {a b : α} (h : ReachesIn hop n a b) : ReachesIn hop' n a b := by
  induction h with
  | here a => exact .here a
  | step _ hb ih => exact .step ih (hh _ _ hb)

/-- What is reached is the start, or one hop from something. -/
theorem ReachesIn.eq_or_hop {hop : α → α → Prop} {n : Nat} {a b : α} (h : ReachesIn hop n a b) :
    b = a ∨ ∃ c, hop c b := by
  cases h with
  | here => exact .inl rfl
  | step _ hb => exact .inr ⟨_, hb⟩

/-- A hop more at the start. -/
theorem ReachesIn.head {hop : α → α → Prop} {n : Nat} {a b c : α} (ha : hop a b)
    (h : ReachesIn hop n b c) : ReachesIn hop (n + 1) a c := by
  induction h with
  | here b => exact .step (.here a) ha
  | step _ hb ih => exact .step (ih ha) hb

/-- **The way back**: where every hop can be taken back, as many hops lead back. -/
theorem ReachesIn.reverse {hop hop' : α → α → Prop} (hh : ∀ a b, hop a b → hop' b a) {n : Nat}
    {a b : α} (h : ReachesIn hop n a b) : ReachesIn hop' n b a := by
  induction h with
  | here a => exact .here a
  | step _ hb ih => exact ih.head (hh _ _ hb)

/-- **The least number of hops** that lead from the one to the other. -/
def Nearest (hop : α → α → Prop) (n : Nat) (a b : α) : Prop :=
  ReachesIn hop n a b ∧ ∀ m, ReachesIn hop m a b → n ≤ m

/-- There is a least number of hops to what is reached. -/
theorem ReachesIn.nearest {hop : α → α → Prop} {n : Nat} {a b : α} (h : ReachesIn hop n a b) :
    ∃ m, m ≤ n ∧ Nearest hop m a b := by
  induction n using Nat.strongRecOn with
  | ind n ih =>
      by_cases hless : ∃ m, m < n ∧ ReachesIn hop m a b
      · obtain ⟨m, hm, hr⟩ := hless
        obtain ⟨i, hi, hnear⟩ := ih m hm hr
        exact ⟨i, by omega, hnear⟩
      · refine ⟨n, Nat.le_refl n, h, fun m hm => ?_⟩
        exact Nat.le_of_not_lt fun hlt => hless ⟨m, hlt, hm⟩

namespace Nearest

variable {hop : α → α → Prop} {n m : Nat} {a b : α}

theorem start (a : α) : Nearest hop 0 a a := ⟨.here a, fun m _ => Nat.zero_le m⟩

theorem unique (h : Nearest hop n a b) (h' : Nearest hop m a b) : n = m :=
  Nat.le_antisymm (h.2 m h'.1) (h'.2 n h.1)

theorem eq_start (h : Nearest hop 0 a b) : b = a := by
  cases h.1 with
  | here => rfl

/-- **Before the last of the hops** there is something one hop nearer. -/
theorem last (h : Nearest hop (n + 1) a b) : ∃ c, Nearest hop n a c ∧ hop c b := by
  cases h.1 with
  | @step _ _ c _ hr hb =>
      refine ⟨c, ⟨hr, fun m hm => ?_⟩, hb⟩
      have := h.2 (m + 1) (.step hm hb)
      omega

end Nearest

/-! ## 2. The invariant -/

/-- A search that is under way: what waits and what was expanded, the latest first, each with the
number of hops that led to it. -/
structure Frontier (α : Type) where
  waiting : List (α × Nat)
  reached : List (α × Nat)

namespace Frontier

/-- Is the thing taken care of, as one that lies at most `n` hops out? -/
def Settled (F : Frontier α) (allows : Nat → Prop) (x : α) (n : Nat) : Prop :=
  ¬ allows n ∨ (∃ i ≤ n, (x, i) ∈ F.waiting) ∨ ∃ i ≤ n, (x, i) ∈ F.reached

/-- **The invariant of a search** from `start`. -/
structure Sound (hop : α → α → Prop) (allows : Nat → Prop) (start : α) (F : Frontier α) :
    Prop where
  found : ∀ p ∈ F.waiting, ReachesIn hop p.2 start p.1
  reached : ∀ p ∈ F.reached, allows p.2 ∧ ReachesIn hop p.2 start p.1
  once : (F.reached.map Prod.fst).Nodup
  ordered : F.waiting.Pairwise fun p q => p.2 ≤ q.2
  narrow : ∀ p ∈ F.waiting, ∀ q ∈ F.waiting, q.2 ≤ p.2 + 1
  behind : ∀ p ∈ F.reached, ∀ q ∈ F.waiting, p.2 ≤ q.2
  closed : ∀ p ∈ F.reached, ∀ x, hop p.1 x → F.Settled allows x (p.2 + 1)
  begun : F.Settled allows start 0

variable {hop : α → α → Prop} {allows : Nat → Prop} {start : α}

/-- The search starts with the start alone. -/
theorem Sound.init (hop : α → α → Prop) (allows : Nat → Prop) (start : α) :
    Sound hop allows start ⟨[(start, 0)], []⟩ where
  found p hp := by
    rw [List.mem_singleton] at hp
    subst hp
    exact .here start
  reached _ hp := absurd hp List.not_mem_nil
  once := List.nodup_nil
  ordered := List.pairwise_singleton _ _
  narrow p hp q hq := by
    rw [List.mem_singleton] at hp hq
    subst hp hq
    exact Nat.le_succ _
  behind _ hp := absurd hp List.not_mem_nil
  closed _ hp := absurd hp List.not_mem_nil
  begun := .inr (.inl ⟨0, Nat.le_refl 0, List.mem_singleton.mpr rfl⟩)

/-- **What is spent or was expanded before need not wait.** -/
theorem Sound.drop (mono : ∀ i j, i ≤ j → allows j → allows i) {p : α × Nat}
    {rest reached : List (α × Nat)} (h : Sound hop allows start ⟨p :: rest, reached⟩)
    (hp : ¬ allows p.2 ∨ ∃ i, (p.1, i) ∈ reached) : Sound hop allows start ⟨rest, reached⟩ := by
  have settled (x : α) (n : Nat) (hx : Settled ⟨p :: rest, reached⟩ allows x n) :
      Settled ⟨rest, reached⟩ allows x n := by
    rcases hx with hx | ⟨i, hi, hx⟩ | hx
    · exact .inl hx
    · rcases List.mem_cons.mp hx with hx | hx
      · subst hx
        rcases hp with hp | ⟨j, hj⟩
        · exact .inl fun hn => hp (mono i n hi hn)
        · -- it was expanded, and then no further out than where it waited
          have hji : j ≤ i := h.behind (x, j) hj (x, i) List.mem_cons_self
          exact .inr (.inr ⟨j, Nat.le_trans hji hi, hj⟩)
      · exact .inr (.inl ⟨i, hi, hx⟩)
    · exact .inr (.inr hx)
  exact {
    found := fun q hq => h.found q (List.mem_cons_of_mem _ hq)
    reached := h.reached
    once := h.once
    ordered := (List.pairwise_cons.mp h.ordered).2
    narrow := fun q hq q' hq' =>
      h.narrow q (List.mem_cons_of_mem _ hq) q' (List.mem_cons_of_mem _ hq')
    behind := fun q hq q' hq' => h.behind q hq q' (List.mem_cons_of_mem _ hq')
    closed := fun q hq x hx => settled x _ (h.closed q hq x hx)
    begun := settled start 0 h.begun }

/-- What was taken care of stays so when the first of what waits is expanded. -/
theorem Settled.expand {p : α × Nat} {rest reached found : List (α × Nat)} {x : α} {n : Nat}
    (h : Settled ⟨p :: rest, reached⟩ allows x n) :
    Settled ⟨rest ++ found, p :: reached⟩ allows x n := by
  rcases h with hx | ⟨i, hi, hx⟩ | ⟨i, hi, hx⟩
  · exact .inl hx
  · rcases List.mem_cons.mp hx with hx | hx
    · exact .inr (.inr ⟨i, hi, hx ▸ List.mem_cons_self⟩)
    · exact .inr (.inl ⟨i, hi, List.mem_append_left _ hx⟩)
  · exact .inr (.inr ⟨i, hi, List.mem_cons_of_mem _ hx⟩)

/-- What is one hop from the expanded thing is taken care of: it was expanded before, or it was
found. -/
theorem Sound.settled_hop {k : α} {j : Nat} {rest reached : List (α × Nat)} {found : List α}
    (h : Sound hop allows start ⟨(k, j) :: rest, reached⟩)
    (hf : ∀ x, x ∈ found ↔ hop k x ∧ x ∉ ((k, j) :: reached).map Prod.fst) {x : α} (hx : hop k x) :
    Settled ⟨rest ++ found.map (·, j + 1), (k, j) :: reached⟩ allows x (j + 1) := by
  by_cases hxr : x ∈ ((k, j) :: reached).map Prod.fst
  · -- it was expanded before, at most as far out as `k`
    obtain ⟨⟨x', i⟩, hi, rfl⟩ := List.mem_map.mp hxr
    refine .inr (.inr ⟨i, ?_, hi⟩)
    rcases List.mem_cons.mp hi with hi | hi
    · cases hi
      exact Nat.le_succ j
    · exact Nat.le_succ_of_le (h.behind _ hi (k, j) List.mem_cons_self)
  · have hxf : x ∈ found := (hf x).mpr ⟨hx, hxr⟩
    exact .inr (.inl ⟨j + 1, Nat.le_refl _,
      List.mem_append_right _ (List.mem_map.mpr ⟨x, hxf, rfl⟩)⟩)

/-- **What is expanded moves to what was expanded**, and what it finds waits at the end. -/
theorem Sound.expand {k : α} {j : Nat} {rest reached : List (α × Nat)} {found : List α}
    (h : Sound hop allows start ⟨(k, j) :: rest, reached⟩) (ha : allows j)
    (hk : k ∉ reached.map Prod.fst)
    (hf : ∀ x, x ∈ found ↔ hop k x ∧ x ∉ ((k, j) :: reached).map Prod.fst) :
    Sound hop allows start ⟨rest ++ found.map (·, j + 1), (k, j) :: reached⟩ := by
  have hr : ReachesIn hop j start k := h.found (k, j) List.mem_cons_self
  have hrest (q : α × Nat) (hq : q ∈ rest) : j ≤ q.2 ∧ q.2 ≤ j + 1 :=
    ⟨(List.pairwise_cons.mp h.ordered).1 q hq,
      h.narrow (k, j) List.mem_cons_self q (List.mem_cons_of_mem _ hq)⟩
  have hwaits (q : α × Nat) (hq : q ∈ rest ++ found.map (·, j + 1)) :
      q ∈ rest ∨ q.2 = j + 1 ∧ q.1 ∈ found := by
    rcases List.mem_append.mp hq with hq | hq
    · exact .inl hq
    · obtain ⟨x, hx, rfl⟩ := List.mem_map.mp hq
      exact .inr ⟨rfl, hx⟩
  have hspan (q : α × Nat) (hq : q ∈ rest ++ found.map (·, j + 1)) : j ≤ q.2 ∧ q.2 ≤ j + 1 := by
    rcases hwaits q hq with hq | ⟨hq, _⟩
    · exact hrest q hq
    · omega
  refine ⟨?_, ?_, ?_, ?_, ?_, ?_, ?_, h.begun.expand⟩
  · intro q hq
    rcases hwaits q hq with hq | ⟨hq, hx⟩
    · exact h.found q (List.mem_cons_of_mem _ hq)
    · rw [hq]
      exact .step hr ((hf q.1).mp hx).1
  · intro q hq
    rcases List.mem_cons.mp hq with rfl | hq
    · exact ⟨ha, hr⟩
    · exact h.reached q hq
  · exact List.nodup_cons.mpr ⟨hk, h.once⟩
  · refine List.pairwise_append.mpr ⟨(List.pairwise_cons.mp h.ordered).2, ?_, fun p hp q hq => ?_⟩
    · exact List.pairwise_map.mpr (List.pairwise_of_forall fun _ _ => Nat.le_refl _)
    · obtain ⟨x, _, rfl⟩ := List.mem_map.mp hq
      exact (hrest p hp).2
  · intro p hp q hq
    have := hspan p hp
    have := hspan q hq
    omega
  · intro p hp q hq
    have hq := hspan q hq
    rcases List.mem_cons.mp hp with rfl | hp
    · exact hq.1
    · exact Nat.le_trans (h.behind p hp (k, j) List.mem_cons_self) hq.1
  · intro p hp x hx
    rcases List.mem_cons.mp hp with rfl | hp
    · exact h.settled_hop hf hx
    · exact (h.closed p hp x hx).expand

/-! ## 3. When nothing waits any more -/

/-- **Everything within the allowed hops was expanded.** -/
theorem Sound.complete (mono : ∀ i j, i ≤ j → allows j → allows i) {reached : List (α × Nat)}
    (h : Sound hop allows start ⟨[], reached⟩) {n : Nat} {k : α} (hr : ReachesIn hop n start k)
    (ha : allows n) : ∃ i ≤ n, (k, i) ∈ reached := by
  have settled {x : α} {n : Nat} (hx : Settled ⟨[], reached⟩ allows x n) (hn : allows n) :
      ∃ i ≤ n, (x, i) ∈ reached := by
    rcases hx with hx | ⟨i, _, hx⟩ | hx
    · exact absurd hn hx
    · exact absurd hx List.not_mem_nil
    · exact hx
  induction hr with
  | here => exact settled h.begun ha
  | @step n a b c _ hb ih =>
      obtain ⟨i, hi, hbr⟩ := ih h (mono n (n + 1) (Nat.le_succ n) ha)
      have hi' : i + 1 ≤ n + 1 := Nat.succ_le_succ hi
      obtain ⟨i', hi'', hc⟩ := settled (h.closed _ hbr c hb) (mono _ _ hi' ha)
      exact ⟨i', Nat.le_trans hi'' hi', hc⟩

/-- What was expanded is what lies within the allowed hops. -/
theorem Sound.reached_iff (mono : ∀ i j, i ≤ j → allows j → allows i) {reached : List (α × Nat)}
    (h : Sound hop allows start ⟨[], reached⟩) (k : α) :
    (∃ i, (k, i) ∈ reached) ↔ ∃ n, allows n ∧ ReachesIn hop n start k := by
  constructor
  · intro h'
    obtain ⟨i, hi⟩ := h'
    exact ⟨i, h.reached _ hi⟩
  · intro h'
    obtain ⟨n, ha, hr⟩ := h'
    obtain ⟨i, _, hi⟩ := h.complete mono hr ha
    exact ⟨i, hi⟩

/-- **What was expanded is noted under the least number of hops that lead to it.** -/
theorem Sound.least (mono : ∀ i j, i ≤ j → allows j → allows i) {reached : List (α × Nat)}
    (h : Sound hop allows start ⟨[], reached⟩) {k : α} {j n : Nat} (hj : (k, j) ∈ reached)
    (hr : ReachesIn hop n start k) : j ≤ n := by
  by_cases hn : n ≤ j
  · obtain ⟨i, hi, hk⟩ := h.complete mono hr (mono n j hn (h.reached _ hj).1)
    have hij : i = j := by
      have he : ((k, i) : α × Nat) = (k, j) := List.inj_on_of_nodup_map h.once hk hj rfl
      exact congrArg Prod.snd he
    exact hij ▸ hi
  · omega

end Frontier

end DataLineage
