import DataLineage.Proofs.Pattern.Trails
import DataLineage.Proofs.Walk.Reference
import DataLineage.Pattern.Query

/-!
# What a pattern means

A database matches a pattern by paths: from the root, so many steps as the bounds of the pattern
allow, where a path from a process starts by one edge to a dataset. One path never goes over the
same relationship twice. What is answered are the edges on all paths that match:

* `LineagePattern.Matches` -- **the paths that match a pattern**, `LineagePattern.Finds` -- the edges
  on them;
* `LineagePattern.make_ok` -- the pattern of a request, part by part;
* `LineagePattern.allows_succ` -- it allows one step more than the hops that lead to a dataset to
  be expanded;
* `LineagePattern.make_isOk` -- every depth has a pattern, if it can be written.
-/

namespace DataLineage

/-! ## 1. Paths that match -/

namespace LineagePattern

/-- Does the pattern allow so many steps? From a dataset there has to be one. -/
def Allows (p : LineagePattern) (n : Nat) : Prop :=
  (p.fromProcess = false → 0 < n) ∧ ∀ m, p.hops = some m → (n : Int) ≤ m

/-- **The pattern matches the path** over some of the edges, none of them twice. -/
inductive Matches (p : LineagePattern) (es : List Edge) : List Edge → Prop where
  | dataset {into out root last : Key} {n : Nat} {path : List Edge} (hf : p.fromProcess = false)
      (hi : p.incoming.key = .ok into) (ho : p.outgoing.key = .ok out)
      (hr : p.guid.key = .ok root) (hs : Terrain.Steps ⟨es, into, out⟩ n root path last)
      (hn : p.Allows n) (once : path.Nodup) : Matches p es path
  | process {into out root start last : Key} {n : Nat} {first : Edge} {path : List Edge}
      (hf : p.fromProcess = true) (hi : p.incoming.key = .ok into)
      (ho : p.outgoing.key = .ok out) (hr : p.guid.key = .ok root) (hfirst : first ∈ es)
      (hlabel : first.label.key = .ok out) (hsource : first.source.id.key = .ok root)
      (htarget : first.target.id.key = .ok start)
      (hs : Terrain.Steps ⟨es, into, out⟩ n start path last) (hn : p.Allows n)
      (once : (first :: path).Nodup) : Matches p es (first :: path)

/-- **The edge lies on a path that the pattern matches.** -/
def Finds (p : LineagePattern) (es : List Edge) (e : Edge) : Prop :=
  ∃ path, p.Matches es path ∧ e ∈ path

end LineagePattern

/-- The edges of steps are edges of the terrain. -/
theorem Terrain.Steps.mem {t : Terrain} {n : Nat} {d d' : Key} {path : List Edge}
    (h : t.Steps n d path d') : ∀ e ∈ path, e ∈ t.edges := by
  induction h with
  | none => exact fun e he => absurd he List.not_mem_nil
  | more h hp hd ih =>
      intro e he
      rcases List.mem_append.mp he with he | he
      · exact ih e he
      · rcases List.mem_cons.mp he with rfl | he
        · exact hp.into_mem
        · exact List.mem_singleton.mp he ▸ hp.out_mem

namespace LineagePattern

theorem Finds.mem {p : LineagePattern} {es : List Edge} {e : Edge} (h : p.Finds es e) : e ∈ es := by
  obtain ⟨path, hpath, he⟩ := h
  cases hpath with
  | dataset _ _ _ _ hs _ _ => exact hs.mem e he
  | process _ _ _ _ hfirst _ _ _ hs _ _ =>
      rcases List.mem_cons.mp he with rfl | he
      · exact hfirst
      · exact hs.mem e he

end LineagePattern

/-! ## 2. Depths -/

/-- A whole number that is not negative is not the depth that stands for an unbounded budget. -/
theorem isUnbounded_whole {v : Value} {n : Nat} (h : v.wholeNumber? = some (n : Int)) :
    isUnbounded v = false := by
  unfold Value.wholeNumber? at h
  split at h
  · cases h
    have hne : ((n : Int) : Rat) ≠ -1 := by
      intro hq
      have : (n : Int) = -1 := Rat.intCast_inj.mp (by simpa using hq)
      omega
    simpa [isUnbounded, HopBudget.unboundedDepth, Value.same, Scalar.key] using hne
  · rename_i b
    cases b <;> rfl
  · cases h

/-- **One hop further out there is one hop less.** -/
theorem hopCount_whole {v : Value} {n : Nat} (h : v.wholeNumber? = some (n : Int)) :
    hopCount v = .ok n ∧ ∃ v', nextDepth v = .ok v' ∧ hopCount v' = .ok ((n : Int) - 1) := by
  have hb := isUnbounded_whole h
  unfold nextDepth
  rw [hb]
  unfold Value.wholeNumber? at h
  split at h
  · cases h
    exact ⟨rfl, _, rfl, rfl⟩
  · rename_i b
    have hn := Option.some.inj h
    cases b with
    | true =>
        obtain rfl : n = 1 := by simpa using hn.symm
        exact ⟨rfl, _, rfl, rfl⟩
    | false =>
        obtain rfl : n = 0 := by simpa using hn.symm
        exact ⟨rfl, _, rfl, rfl⟩
  · cases h

namespace LineagePattern

variable {t : Taxonomy} {c : Context} {direction : Direction} {p : LineagePattern} {n : Nat}

/-! ## 3. The pattern of a request -/

/-- The bound of the number of steps. -/
def bound (depth processDepth : Value) (isDataset : Bool) : Outcome (Option Int) :=
  if isUnbounded depth then .ok none
  else some <$> hopCount (if isDataset then depth else processDepth)

/-- A pattern in one direction is made step by step. -/
theorem make_eq {guid depth : Value} {isDataset : Bool} (hd : direction ≠ .both) :
    make t guid direction depth isDataset =
      nextDepth depth >>= fun processDepth => bound depth processDepth isDataset >>= fun hops =>
        if hops.any fun n => !(Scalar.int n).isWritable then .error .badValue
        else .ok ⟨guid, !isDataset, (t.labels.forDirection (direction == .input)).1,
          (t.labels.forDirection (direction == .input)).2, depth, processDepth, hops⟩ := by
  have hb : (direction == .both) = false := by
    cases direction with
    | both => exact absurd rfl hd
    | input => rfl
    | output => rfl
  unfold make bound
  rw [hb]
  cases nextDepth depth with
  | error f => rfl
  | ok v =>
      cases isUnbounded depth with
      | true => rfl
      | false => cases hopCount (if isDataset = true then depth else v) <;> rfl

/-- **The pattern of a request**, part by part. -/
theorem make_ok {guid depth : Value} {isDataset : Bool}
    (h : make t guid direction depth isDataset = .ok p) :
    p.guid = guid ∧ p.fromProcess = !isDataset ∧
      p.incoming = (t.labels.forDirection (direction == .input)).1 ∧
      p.outgoing = (t.labels.forDirection (direction == .input)).2 ∧
      ∃ processDepth, nextDepth depth = .ok processDepth ∧
        bound depth processDepth isDataset = .ok p.hops := by
  by_cases hd : direction = .both
  · rw [hd, make_both] at h
    cases h
  · rw [make_eq hd] at h
    obtain ⟨processDepth, hnext, h⟩ := Outcome.bind_eq_ok.mp h
    obtain ⟨hops, hbound, h⟩ := Outcome.bind_eq_ok.mp h
    split at h
    · cases h
    · cases h
      exact ⟨rfl, rfl, rfl, rfl, processDepth, hnext, hbound⟩

/-- The bound of the steps is the depth of the request, less the one hop out of a process. -/
theorem bound_eq (hb : c.budget = .ofDepth n) (hd : c.requestedDepth.wholeNumber? = some (n : Int)) :
    ∃ processDepth, nextDepth c.depth = .ok processDepth ∧
      bound c.depth processDepth c.isDataset =
        .ok (if n = 0 then none else some (if c.isDataset then (n : Int) else n - 1)) := by
  by_cases hn : n = 0
  · have hdepth : c.depth = HopBudget.unboundedDepth := by
      unfold Context.depth
      rw [hb, hn]
      rfl
    rw [hdepth, if_pos hn]
    exact ⟨HopBudget.unboundedDepth, by rfl, by rfl⟩
  · have hdepth : c.depth = c.requestedDepth := by
      unfold Context.depth HopBudget.ofDepth at *
      rw [hb, if_neg hn]
    obtain ⟨hcount, v', hnext, hcount'⟩ := hopCount_whole hd
    refine ⟨v', hdepth ▸ hnext, ?_⟩
    unfold bound
    rw [hdepth, isUnbounded_whole hd, if_neg hn]
    cases c.isDataset with
    | true =>
        show some <$> hopCount c.requestedDepth = _
        rw [hcount]
        rfl
    | false =>
        show some <$> hopCount v' = _
        rw [hcount']
        rfl

theorem hops_eq (h : make t c.guid direction c.depth c.isDataset = .ok p)
    (hb : c.budget = .ofDepth n) (hd : c.requestedDepth.wholeNumber? = some (n : Int)) :
    p.hops = if n = 0 then none else some (if c.isDataset then (n : Int) else n - 1) := by
  obtain ⟨_, _, _, _, processDepth, hnext, hbound⟩ := make_ok h
  obtain ⟨v', hnext', hbound'⟩ := bound_eq hb hd
  rw [hnext] at hnext'
  cases hnext'
  exact Except.ok.inj (hbound.symm.trans hbound')

/-- **The pattern allows one step more than the hops to a dataset that is expanded.** -/
theorem allows_succ (h : make t c.guid direction c.depth c.isDataset = .ok p)
    (hb : c.budget = .ofDepth n) (hd : c.requestedDepth.wholeNumber? = some (n : Int)) (j : Nat) :
    p.Allows (j + 1) ↔
      if c.isDataset then c.budget.Allows j else c.budget.next.Allows j := by
  have hbounds : p.Allows (j + 1) ↔
      n = 0 ∨ ((j + 1 : Nat) : Int) ≤ if c.isDataset then (n : Int) else n - 1 := by
    unfold Allows
    rw [hops_eq h hb hd]
    by_cases hn : n = 0
    · simp [hn]
    · simp [hn]
  rw [hbounds, hb, HopBudget.allows_ofDepth, HopBudget.allows_next_ofDepth]
  cases c.isDataset with
  | true =>
      show n = 0 ∨ ((j + 1 : Nat) : Int) ≤ (n : Int) ↔ n = 0 ∨ j < n
      omega
  | false =>
      show n = 0 ∨ ((j + 1 : Nat) : Int) ≤ (n : Int) - 1 ↔ n = 0 ∨ j + 1 < n
      omega

/-- A path from a process may end where its first edge ends. -/
theorem allows_zero (h : make t c.guid direction c.depth c.isDataset = .ok p)
    (hb : c.budget = .ofDepth n) (hd : c.requestedDepth.wholeNumber? = some (n : Int))
    (hprocess : c.isDataset = false) : p.Allows 0 := by
  have hfrom : p.fromProcess = true := by
    rw [(make_ok h).2.1, hprocess]
    rfl
  have hhops := hops_eq h hb hd
  rw [hprocess] at hhops
  refine ⟨fun hf => absurd (hfrom.symm.trans hf) (by decide), fun m hm => ?_⟩
  by_cases hn : n = 0
  · rw [hhops, if_pos hn] at hm
    cases hm
  · rw [hhops, if_neg hn] at hm
    have hm : (n : Int) - 1 = m := Option.some.inj hm
    omega

/-- **Every depth that can be written has a pattern**; the first hop of a process is not counted. -/
theorem make_isOk (hdirection : direction ≠ .both) (hb : c.budget = .ofDepth n)
    (hd : c.requestedDepth.wholeNumber? = some (n : Int))
    (hn : (if c.isDataset then n else n - 1) < Text.firstTooLong) :
    ∃ p, make t c.guid direction c.depth c.isDataset = .ok p := by
  obtain ⟨v', hnext, hbound⟩ := bound_eq hb hd
  rw [make_eq hdirection, hnext, Outcome.ok_bind, hbound, Outcome.ok_bind, if_neg]
  · exact ⟨_, rfl⟩
  · intro hlong
    by_cases hzero : n = 0
    · rw [if_pos hzero] at hlong
      cases hlong
    · rw [if_neg hzero] at hlong
      have hwritable : (Scalar.int (if c.isDataset then (n : Int) else n - 1)).isWritable = true := by
        simp only [Scalar.isWritable, decide_eq_true_eq]
        cases hdataset : c.isDataset with
        | true =>
            rw [hdataset, if_pos rfl] at hn
            exact hn
        | false =>
            rw [hdataset, if_neg Bool.false_ne_true] at hn
            rw [if_neg Bool.false_ne_true]
            omega
      rw [Option.any_some, hwritable] at hlong
      cases hlong

end LineagePattern

end DataLineage
