import DataLineage.Value.Key
import DataLineage.Text.Half

/-!
# The order of scalars

Numbers are ordered by value, texts by code points and moments of one kind by their place in time
(`Scalar.compare?`). What has an order is of one `Family`; null is of none. What is not a number is
neither below nor above any number. A list can be sorted only when every two of its members can be
compared (`sortBy?`), which is known at once when all of them are alike.

* `Key.compare?_isSome` -- two keys have an order exactly when they are of one family.
* `comparable_cons` -- what "every two members" means, one member at a time.
* `sortBy?_isSome`, `sortBy?_perm` -- what can be sorted, and that sorting loses nothing.
-/

namespace DataLineage

/-! ## 1. Two scalars -/

/-- What has an order among itself: numbers, texts, the moments of one kind. -/
inductive Family where
  | number
  | text
  | moment (kind : MomentKind)
  deriving DecidableEq, Repr, Inhabited

namespace Key

/-- The family of a key; null has none. -/
def family? : Key → Option Family
  | .null => none
  | .number _ => some .number
  | .infinite _ => some .number
  | .nan => some .number
  | .text _ => some .text
  | .moment kind _ => some (.moment kind)

/-- The order of two keys, if they have one. -/
def compare? : Key → Key → Option Ordering
  | .number a, .number b => some (compareOfLessAndEq a b)
  | .number _, .infinite negative => some (if negative then .gt else .lt)
  | .infinite negative, .number _ => some (if negative then .lt else .gt)
  | .infinite a, .infinite b => some (if a = b then .eq else if a then .lt else .gt)
  | .nan, .number _ => some .eq
  | .nan, .infinite _ => some .eq
  | .nan, .nan => some .eq
  | .number _, .nan => some .eq
  | .infinite _, .nan => some .eq
  | .text a, .text b => some (Text.order a b)
  | .moment k a, .moment l b => if k = l then some (compareOfLessAndEq a b) else none
  | _, _ => none

/-- **Two keys have an order exactly when they are of one family.** -/
theorem compare?_isSome (a b : Key) :
    (a.compare? b).isSome = true ↔ a.family?.isSome = true ∧ b.family? = a.family? := by
  cases a <;> cases b <;>
    first
    | exact ⟨fun _ => ⟨rfl, rfl⟩, fun _ => rfl⟩
    | refine ⟨fun h => Bool.noConfusion h, fun h => ?_⟩
      simp [family?] at h
    | skip
  rename_i k a l b
  by_cases h : k = l
  · subst h
    exact ⟨fun _ => ⟨rfl, rfl⟩, fun _ => by rw [compare?, if_pos rfl]; rfl⟩
  · have hl : family? (.moment l b) ≠ family? (.moment k a) := by
      intro he
      cases he
      exact h rfl
    refine ⟨fun hs => ?_, fun hf => absurd hf.2 hl⟩
    rw [compare?, if_neg h] at hs
    cases hs

end Key

/-- The order of two scalars, if they have one. -/
def Scalar.compare? (a b : Scalar) : Option Ordering := a.key.compare? b.key

/-- The family of a scalar; null has none. -/
def Scalar.family? (s : Scalar) : Option Family := s.key.family?

/-- Scalars of one family have an order. -/
theorem Scalar.compare?_of_family (a b : Scalar) (f : Family) (ha : a.family? = some f)
    (hb : b.family? = some f) : (a.compare? b).isSome = true :=
  (Key.compare?_isSome ..).mpr ⟨by
    rw [show a.key.family? = some f from ha]
    rfl, hb.trans ha.symm⟩

/-! ## 2. Lists of scalars -/

/-- Lexicographic order of lists of scalars of one length: equal members are passed over, and the
first two that differ decide. -/
def compareAll? : List Scalar → List Scalar → Option Ordering
  | a :: as, b :: bs => if a.key = b.key then compareAll? as bs else a.compare? b
  | [], [] => some .eq
  | [], _ :: _ => some .lt
  | _ :: _, [] => some .gt

/-- The families of scalars, if each of them has one. -/
def families? (xs : List Scalar) : Option (List Family) := xs.mapM Scalar.family?

/-- Lists of the same families have an order. -/
theorem compareAll?_isSome {fs : List Family} {as bs : List Scalar} (ha : families? as = some fs)
    (hb : families? bs = some fs) : (compareAll? as bs).isSome = true := by
  induction as generalizing bs fs with
  | nil => cases bs <;> rfl
  | cons a as ih =>
    cases bs with
    | nil => rfl
    | cons b bs =>
      simp only [families?, List.mapM_cons, Option.bind_eq_bind, Option.bind_eq_some_iff,
        Option.pure_def, Option.some.injEq] at ha hb
      obtain ⟨f, hf, gs, hgs, rfl⟩ := ha
      obtain ⟨f', hf', gs', hgs', he⟩ := hb
      cases he
      simp only [compareAll?]
      split
      · exact ih hgs hgs'
      · exact Scalar.compare?_of_family a b f hf hf'

/-! ## 3. Sorting -/

section

variable {α β : Type} [BEq β] (family : α → Option β)
variable (order : α → α → Option Ordering)

/-- Can every two members of the list be compared? -/
def comparable : List α → Bool
  | [] => true
  | x :: rest => rest.all (fun y => (order x y).isSome && (order y x).isSome) && comparable rest

theorem comparable_cons (x : α) (rest : List α) :
    comparable order (x :: rest) = true ↔
      (∀ y ∈ rest, (order x y).isSome = true ∧ (order y x).isSome = true) ∧
        comparable order rest = true := by
  simp [comparable]

/-- Are all members of one family? -/
def alike : List α → Bool
  | [] => true
  | x :: rest => (family x).isSome && rest.all fun y => family y == family x

/-- **Members of one family can be compared**, if the family tells what has an order. -/
theorem comparable_of_alike [LawfulBEq β]
    (h : ∀ x y f, family x = some f → family y = some f → (order x y).isSome = true)
    {xs : List α} (hx : alike family xs = true) : comparable order xs = true := by
  have all (f : β) (ys : List α) (hy : ∀ y ∈ ys, family y = some f) :
      comparable order ys = true := by
    induction ys with
    | nil => rfl
    | cons y ys ih =>
      rw [comparable_cons]
      have hy0 := hy y (by simp)
      have hys : ∀ z ∈ ys, family z = some f := fun z hz => hy z (by simp [hz])
      exact ⟨fun z hz => ⟨h y z f hy0 (hys z hz), h z y f (hys z hz) hy0⟩, ih hys⟩
  cases xs with
  | nil => rfl
  | cons x rest =>
    simp only [alike, Bool.and_eq_true, List.all_eq_true, beq_iff_eq] at hx
    obtain ⟨f, hf⟩ := Option.isSome_iff_exists.mp hx.1
    refine all f (x :: rest) fun y hy => ?_
    rcases List.mem_cons.mp hy with rfl | hr
    · exact hf
    · rw [hx.2 y hr, hf]

/-- The list in ascending order, equal members in their old order; none where two members cannot
be compared. -/
def sortBy? (xs : List α) : Option (List α) :=
  if alike family xs || comparable order xs then
    some (xs.mergeSort fun x y => order x y != some .gt)
  else none

/-- **A list is sorted exactly when every two members can be compared.** -/
theorem sortBy?_isSome [LawfulBEq β]
    (h : ∀ x y f, family x = some f → family y = some f → (order x y).isSome = true)
    (xs : List α) : (sortBy? family order xs).isSome = comparable order xs := by
  unfold sortBy?
  by_cases ha : alike family xs = true
  · simp [ha, comparable_of_alike family order h ha]
  · simp only [Bool.not_eq_true] at ha
    cases hc : comparable order xs <;> simp [ha]

/-- **Sorting keeps the members.** -/
theorem sortBy?_perm {xs ys : List α} (h : sortBy? family order xs = some ys) : ys.Perm xs := by
  simp only [sortBy?] at h
  split at h
  · cases h; exact List.mergeSort_perm ..
  · cases h

end

/-- Texts in ascending order of code points. -/
def sortTexts (xs : List String) : List String :=
  xs.mergeSort fun a b => Text.order a b != .gt

end DataLineage
