import DataLineage.Taxonomy.Closure
import Mathlib.Data.List.Chain
import Mathlib.Data.List.Perm.Subperm
import Mathlib.Data.List.TakeWhile

/-!
# What the closures of types hold

A step leads from a type to one that it lists as a direct supertype. The closures are computed depth
first: the chain of types that wait for their closure leads up by steps, and what is known so far is
exact, closed under steps and free of cycles.

* `Closure.Exact` -- **the invariant**: a known closure holds just what zero or more steps reach.
* `Closure.resolve_answers` -- resolving a type keeps it, or reports a chain that is a real cycle.
* `Closure.all_answers` -- so do all declared types in their order.
* `Closure.all_ok_iff` -- **all closures are found exactly when no type is above itself.**
-/

open Relation (ReflTransGen TransGen)

namespace DataLineage

/-! ## 1. Steps and rounds -/

namespace Declarations

/-- **The one type lists the other as a direct supertype.** -/
def Step (ds : Declarations) (k k' : Key) : Prop := ∃ s ∈ ds.superTypes k, s.key = k'

/-- Is a type of that name declared? -/
def Declares (ds : Declarations) (k : Key) : Prop := ∃ d ∈ ds, d.1.key = k

/-- Every supertype that is listed is declared. -/
def Complete (ds : Declarations) : Prop := ∀ d ∈ ds, ∀ s ∈ d.2, ds.Declares s.key

/-- What a type lists is listed by one of the declarations under its name. -/
theorem mem_superTypes {ds : Declarations} {k : Key} {s : Scalar} (h : s ∈ ds.superTypes k) :
    ∃ d ∈ ds, d.1.key = k ∧ s ∈ d.2 := by
  unfold superTypes at h
  cases hf : ds.find? fun d => d.1.key == k with
  | none => simp [hf] at h
  | some d =>
    have hk : d.1.key = k := by simpa using List.find?_some hf
    exact ⟨d, List.mem_of_find?_eq_some hf, hk, by simpa [hf] using h⟩

theorem Step.declares {ds : Declarations} {k k' : Key} (h : ds.Step k k') : ds.Declares k := by
  obtain ⟨s, hs, -⟩ := h
  obtain ⟨d, hd, hk, -⟩ := mem_superTypes hs
  exact ⟨d, hd, hk⟩

theorem Complete.step {ds : Declarations} (hc : ds.Complete) {k k' : Key} (h : ds.Step k k') :
    ds.Declares k' := by
  obtain ⟨s, hs, rfl⟩ := h
  obtain ⟨d, hd, -, hsd⟩ := mem_superTypes hs
  exact hc d hd s hsd

/-- **A chain of types that comes back**: each lists the next, and the last is the first. -/
def Round (ds : Declarations) (chain : List Scalar) : Prop :=
  chain.IsChain (fun s t => ds.Step s.key t.key) ∧
    ∃ first middle last, chain = first :: (middle ++ [last]) ∧ first.key = last.key

/-- The first type of a round is above itself. -/
theorem Round.above {ds : Declarations} {chain : List Scalar} (h : ds.Round chain) :
    ∃ k, TransGen ds.Step k k := by
  obtain ⟨hchain, first, middle, last, rfl, hk⟩ := h
  have hkeys := List.isChain_map_of_isChain (S := ds.Step) Scalar.key (fun _ _ h => h) hchain
  rw [List.map_cons, List.map_append] at hkeys
  refine ⟨first.key, ?_⟩
  cases middle with
  | nil =>
    rw [hk]
    exact .single (by simpa [hk] using hkeys)
  | cons next middle =>
    rw [List.map_cons, List.cons_append, List.isChain_cons_cons] at hkeys
    refine TransGen.head' hkeys.1 ?_
    exact List.relationReflTransGen_of_exists_isChain_cons _ hkeys.2 (by simp [hk])

end Declarations

namespace Closure

variable {ds : Declarations}

/-! ## 2. What is known -/

theorem has_iff (xs : List Scalar) (k : Key) : has xs k = true ↔ ∃ x ∈ xs, x.key = k := by
  simp [has]

/-- **What is known is exact**: a closure holds just what the type reaches, the supertypes of a
known type are known, and no known type is above itself. -/
structure Exact (ds : Declarations) (known : Known) : Prop where
  reaches : ∀ k c, known.lookup k = some c → ∀ k', has c k' = true ↔ ReflTransGen ds.Step k k'
  closed : ∀ k, (known.lookup k).isSome → ∀ k', ds.Step k k' → (known.lookup k').isSome
  acyclic : ∀ k, (known.lookup k).isSome → ¬ TransGen ds.Step k k

theorem Exact.nil (ds : Declarations) : Exact ds [] where
  reaches := by simp
  closed := by simp
  acyclic := by simp

/-- A type whose supertypes are all known can be added with the closure that it has. -/
theorem Exact.cons {known : Known} (h : Exact ds known) {k : Key} {c : List Scalar}
    (hc : ∀ k', has c k' = true ↔ ReflTransGen ds.Step k k')
    (hs : ∀ k', ds.Step k k' → (known.lookup k').isSome) : Exact ds ((k, c) :: known) where
  reaches k₁ c₁ h₁ := by
    rw [List.lookup_cons] at h₁
    split at h₁
    · rename_i hk
      rw [beq_iff_eq] at hk
      cases h₁
      exact hk ▸ hc
    · exact h.reaches k₁ c₁ h₁
  closed k₁ h₁ k₂ h₂ := by
    rw [List.lookup_cons]
    split
    · rfl
    · rename_i hk₂
      rw [List.lookup_cons] at h₁
      split at h₁
      · rename_i hk
        exact hs k₂ (beq_iff_eq.mp hk ▸ h₂)
      · exact h.closed k₁ h₁ k₂ h₂
  acyclic k₁ h₁ hup := by
    -- the first step of the way back leads to a known type, which would be above itself too
    obtain ⟨k₂, hstep, hback⟩ := TransGen.head'_iff.mp hup
    have known₂ : (known.lookup k₂).isSome := by
      rw [List.lookup_cons] at h₁
      split at h₁
      · rename_i hk
        exact hs k₂ (beq_iff_eq.mp hk ▸ hstep)
      · exact h.closed k₁ h₁ k₂ hstep
    exact h.acyclic k₂ known₂ (TransGen.tail' hback hstep)

/-- No type that is known is forgotten. -/
def Grows (known known' : Known) : Prop :=
  ∀ k, (known.lookup k).isSome → (known'.lookup k).isSome

theorem Grows.trans {a b c : Known} (h : Grows a b) (h' : Grows b c) : Grows a c :=
  fun k hk => h' k (h k hk)

theorem Grows.cons (known : Known) (k : Key) (c : List Scalar) : Grows known ((k, c) :: known) := by
  intro k₁ h₁
  rw [List.lookup_cons]
  split
  · rfl
  · exact h₁

/-! ## 3. One type -/

/-- The types that wait for their closure, nearest first: each is listed by the next one, and none
waits twice. -/
structure Waiting (ds : Declarations) (path : List Scalar) : Prop where
  chain : path.IsChain fun s t => ds.Step t.key s.key
  declared : ∀ s ∈ path, ds.Declares s.key
  distinct : (path.map Scalar.key).Nodup

theorem Waiting.nil (ds : Declarations) : Waiting ds [] := ⟨.nil, by simp, by simp⟩

/-- There are no more of them than declarations. -/
theorem Waiting.length_le {path : List Scalar} (h : Waiting ds path) : path.length ≤ ds.length := by
  have hsub : path.map Scalar.key ⊆ ds.map fun d => d.1.key := by
    intro k hk
    obtain ⟨s, hs, rfl⟩ := List.mem_map.mp hk
    obtain ⟨d, hd, he⟩ := h.declared s hs
    exact List.mem_map.mpr ⟨d, hd, he⟩
  simpa using (List.subperm_of_subset h.distinct hsub).length_le

/-- The type is listed by the nearest of those that wait, if any does. -/
def Next (ds : Declarations) (path : List Scalar) (name : Scalar) : Prop :=
  ∀ below ∈ path.head?, ds.Step below.key name.key

theorem Waiting.cons {path : List Scalar} (h : Waiting ds path) {name : Scalar}
    (hnext : Next ds path name) (hd : ds.Declares name.key) (hnew : has path name.key = false) :
    Waiting ds (name :: path) where
  chain := List.isChain_cons.mpr ⟨hnext, h.chain⟩
  declared := by
    intro s hs
    rcases List.mem_cons.mp hs with rfl | hs
    · exact hd
    · exact h.declared s hs
  distinct := by
    rw [List.map_cons, List.nodup_cons]
    refine ⟨?_, h.distinct⟩
    intro hmem
    obtain ⟨s, hs, hk⟩ := List.mem_map.mp hmem
    exact Bool.false_ne_true (hnew ▸ (has_iff path name.key).mpr ⟨s, hs, hk⟩)

/-- **A type that is met while it waits closes a round**: those after its first place, and it. -/
theorem Waiting.round {path : List Scalar} (h : Waiting ds path) {name : Scalar}
    (hnext : Next ds path name) (hmet : has path name.key = true) :
    ds.Round ((path.reverse.dropWhile fun s => s.key != name.key) ++ [name]) := by
  have hchain : (path.reverse ++ [name]).IsChain fun s t => ds.Step s.key t.key := by
    rw [← List.reverse_cons, List.isChain_reverse]
    exact List.isChain_cons.mpr ⟨hnext, h.chain⟩
  refine ⟨hchain.suffix ?_, ?_⟩
  · exact List.suffix_append_self_iff.mpr (List.dropWhile_suffix _)
  cases hrest : path.reverse.dropWhile fun s => s.key != name.key with
  | nil =>
    obtain ⟨s, hs, hk⟩ := (has_iff path name.key).mp hmet
    have := List.dropWhile_eq_nil_iff.mp hrest s (List.mem_reverse.mpr hs)
    simp [hk] at this
  | cons first middle =>
    refine ⟨first, middle, name, rfl, ?_⟩
    have hhead := List.head?_dropWhile_not (fun s : Scalar => s.key != name.key) path.reverse
    rw [hrest] at hhead
    simpa using hhead

/-- What resolving one type answers: its closure, with everything that is known then, or a round. -/
inductive Resolved (ds : Declarations) (known : Known) (name : Scalar) :
    Outcome (List Scalar × Known) → Prop where
  | found {c : List Scalar} {known' : Known} (exact : Exact ds known') (grows : Grows known known')
      (self : (known'.lookup name.key).isSome)
      (reaches : ∀ k, has c k = true ↔ ReflTransGen ds.Step name.key k) :
      Resolved ds known name (.ok (c, known'))
  | round {chain : List Scalar} (round : ds.Round chain) :
      Resolved ds known name (.error (cycle chain))

/-- What resolving several types answers: a closure that holds what it held and what they reach. -/
inductive ResolvedAll (ds : Declarations) (known : Known) (names closure : List Scalar) :
    Outcome (List Scalar × Known) → Prop where
  | found {c : List Scalar} {known' : Known} (exact : Exact ds known') (grows : Grows known known')
      (all : ∀ name ∈ names, (known'.lookup name.key).isSome)
      (reaches : ∀ k, has c k = true ↔
        has closure k = true ∨ ∃ name ∈ names, ReflTransGen ds.Step name.key k) :
      ResolvedAll ds known names closure (.ok (c, known'))
  | round {chain : List Scalar} (round : ds.Round chain) :
      ResolvedAll ds known names closure (.error (cycle chain))

/-- Types are resolved one after the other, whatever each of them answers. -/
theorem resolveAll_answers {fuel : Nat} {path names : List Scalar}
    (hone : ∀ name ∈ names, ∀ known, Exact ds known →
      Resolved ds known name (resolve ds fuel path known name))
    {known : Known} (hk : Exact ds known) (closure : List Scalar) :
    ResolvedAll ds known names closure (resolveAll ds fuel path known names closure) := by
  induction names generalizing known closure with
  | nil =>
    rw [resolveAll]
    exact .found hk (fun _ h => h) (by simp) (by simp)
  | cons name rest ih =>
    rw [resolveAll]
    have hfirst := hone name List.mem_cons_self known hk
    generalize resolve ds fuel path known name = answer at hfirst ⊢
    cases hfirst with
    | round hround => exact .round hround
    | @found c known₁ exact₁ grows₁ self₁ reaches₁ =>
      have hrest := ih (fun n hn => hone n (List.mem_cons_of_mem _ hn)) exact₁ (union closure c)
      simp only
      generalize resolveAll ds fuel path known₁ rest (union closure c) = answer at hrest ⊢
      cases hrest with
      | round hround => exact .round hround
      | found exact₂ grows₂ all₂ reaches₂ =>
        refine .found exact₂ (grows₁.trans grows₂) ?_ ?_
        · rintro n (_ | ⟨_, hn⟩)
          · exact grows₂ _ self₁
          · exact all₂ n hn
        · intro k
          rw [reaches₂, mem_union, Bool.or_eq_true, reaches₁, or_assoc]
          simp only [List.mem_cons, exists_eq_or_imp]

/-- **Resolving a declared type gives its closure or a real cycle.** The bound on the recursion is
never met: what waits never repeats a type, and the two together exceed the declarations by one. -/
theorem resolve_answers (hc : ds.Complete) {fuel : Nat} {path : List Scalar} {known : Known}
    {name : Scalar} (hfuel : fuel + path.length = ds.length + 1) (hw : Waiting ds path)
    (hnext : Next ds path name) (hd : ds.Declares name.key) (hk : Exact ds known) :
    Resolved ds known name (resolve ds fuel path known name) := by
  induction fuel generalizing path known name with
  | zero =>
    have := hw.length_le
    omega
  | succ fuel ih =>
    rw [resolve]
    split
    · rename_i c hlook
      exact .found hk (fun _ h => h) (by simp [hlook]) (hk.reaches _ _ hlook)
    · split
      · rename_i hmet
        exact .round (hw.round hnext hmet)
      · rename_i hnew
        have hw' := hw.cons hnext hd (Bool.eq_false_iff.mpr hnew)
        have hone : ∀ s ∈ ds.superTypes name.key, ∀ known, Exact ds known →
            Resolved ds known s (resolve ds fuel (name :: path) known s) := by
          intro s hs known hk
          have hstep : ds.Step name.key s.key := ⟨s, hs, rfl⟩
          refine ih ?_ hw' ?_ (hc.step hstep) hk
          · rw [List.length_cons]
            omega
          · rintro below (_ | _)
            exact hstep
        have hall := resolveAll_answers hone hk [name]
        generalize resolveAll ds fuel (name :: path) known (ds.superTypes name.key) [name] = answer
          at hall ⊢
        cases hall with
        | round hround => exact .round hround
        | @found c known' exact' grows' all' reaches' =>
          have hreach : ∀ k, has c k = true ↔ ReflTransGen ds.Step name.key k := by
            intro k
            rw [reaches', ReflTransGen.cases_head_iff]
            simp [has, Declarations.Step]
          refine .found (exact'.cons hreach ?_) (grows'.trans (Grows.cons known' name.key c))
            (by simp) hreach
          rintro k ⟨s, hs, rfl⟩
          exact all' s hs

/-! ## 4. All types -/

/-- What resolving all types answers: an exact closure for each, or a round. -/
inductive ResolvedTypes (ds : Declarations) (names : List (Scalar × List Scalar)) :
    Outcome Known → Prop where
  | found {known : Known} (exact : Exact ds known)
      (all : ∀ d ∈ names, (known.lookup d.1.key).isSome) : ResolvedTypes ds names (.ok known)
  | round {chain : List Scalar} (round : ds.Round chain) :
      ResolvedTypes ds names (.error (cycle chain))

/-- **All declared types are resolved, or a real cycle is reported.** -/
theorem all_answers (hc : ds.Complete) : ResolvedTypes ds ds (all ds) := by
  -- for any part of the declarations, from any exact state, nothing known being forgotten
  suffices run : ∀ (part : List (Scalar × List Scalar)) (known : Known), part ⊆ ds →
      Exact ds known → ∀ done : List (Scalar × List Scalar),
      (∀ d ∈ done, (known.lookup d.1.key).isSome) →
      ResolvedTypes ds (done ++ part) (part.foldlM (fun known d =>
        resolve ds (ds.length + 1) [] known d.1 >>= fun r => .ok r.2) known) from
    run ds [] (fun _ h => h) (.nil ds) [] (by simp)
  intro part
  induction part with
  | nil =>
    intro known _ hk done hdone
    rw [List.append_nil]
    exact .found hk hdone
  | cons d part ih =>
    intro known hsub hk done hdone
    have hd : d ∈ ds := hsub List.mem_cons_self
    have hfirst : Resolved ds known d.1 (resolve ds (ds.length + 1) [] known d.1) :=
      resolve_answers hc rfl (.nil ds) (fun _ h => absurd h (Option.not_mem_none _)) ⟨d, hd, rfl⟩ hk
    rw [List.foldlM_cons]
    generalize resolve ds (ds.length + 1) [] known d.1 = answer at hfirst ⊢
    cases hfirst with
    | round hround => exact .round hround
    | @found c known' exact' grows' self' reaches' =>
      have := ih known' (fun x hx => hsub (List.mem_cons_of_mem _ hx)) exact' (done ++ [d]) ?_
      · simpa using this
      · intro x hx
        rcases List.mem_append.mp hx with hx | hx
        · exact grows' _ (hdone x hx)
        · rw [List.mem_singleton.mp hx]
          exact self'

/-- **All closures are found exactly when no type is above itself.** -/
theorem all_ok_iff (hc : ds.Complete) :
    (∃ known, all ds = .ok known) ↔ ∀ k, ¬ TransGen ds.Step k k := by
  have hall := all_answers hc
  generalize all ds = answer at hall
  cases hall with
  | round hround =>
    obtain ⟨k, hk⟩ := hround.above
    exact ⟨fun ⟨_, h⟩ => (nomatch h), fun h => absurd hk (h k)⟩
  | @found known exact all =>
    refine ⟨fun _ k hk => ?_, fun _ => ⟨known, rfl⟩⟩
    obtain ⟨k', hstep, -⟩ := TransGen.head'_iff.mp hk
    obtain ⟨d, hd, rfl⟩ := hstep.declares
    exact exact.acyclic _ (all d hd) hk

end Closure

end DataLineage
