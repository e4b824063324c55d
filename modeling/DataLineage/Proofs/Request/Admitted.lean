import DataLineage.Proofs.Request.Resolved
import DataLineage.Proofs.Walk.Pairs

/-!
# When a request has a context

A request is accepted exactly when its parts can be read, its root is found, may be read, and is of
a kind that has a lineage. What its context then is, is told from these parts:

* `LineageRequest.terms_iff`, `Terms.contextFor_iff` -- **which requests and which roots are
  accepted**, and as what;
* `LineageRequest.context_iff` -- both together;
* `Context.facing`, `LineageRequest.context_facing` -- the same request in another direction;
* `LineageRequest.collected`, `Service.resolve_eq` -- a request whose collections are read first;
* `LineageRequest.collected_means`, `LineageRequest.context_collected` -- what is read names the
  same attributes and criteria, and is accepted as the request is.
-/

namespace DataLineage

/-! ## 1. The parts of a request -/

/-- The names of the attributes that a request asks for. -/
def LineageRequest.names (r : LineageRequest) : Outcome (List Scalar) :=
  r.attributes.elementsOrNone >>= Value.distinctScalars

theorem LineageRequest.checkDirection_iff {r : LineageRequest} {d : Direction} :
    r.checkDirection = .ok d ↔ Direction.parse r.direction = .ok d := by
  unfold checkDirection
  split
  · rename_i h
    rw [h]
  · rename_i e h
    exact ⟨fun h => (nomatch h), fun h' => nomatch h.symm.trans h'⟩

theorem LineageRequest.checkDepth_iff {r : LineageRequest} {b : HopBudget} :
    r.checkDepth = .ok b ↔ ∃ n : Nat, r.depth.wholeNumber? = some (n : Int) ∧ b = .ofDepth n := by
  refine ⟨checkDepth_ok, fun ⟨n, hn, hb⟩ => ?_⟩
  unfold checkDepth
  rw [hn, hb]

theorem Outcome.mapError_eq_ok {α : Type} {f : Fault → Fault} {x : Outcome α} {a : α} :
    x.mapError f = .ok a ↔ x = .ok a := by
  cases x with
  | error e => exact ⟨fun h => (nomatch h), fun h => (nomatch h)⟩
  | ok b => exact Iff.rfl

/-- **The parts of a request are accepted** when each of them can be read. -/
theorem LineageRequest.terms_iff {r : LineageRequest} {t : Terms} :
    r.terms = .ok t ↔ ∃ (direction : Direction) (n : Nat) (cs : List Criterion)
      (names : List Scalar), Direction.parse r.direction = .ok direction ∧
        r.depth.wholeNumber? = some (n : Int) ∧ r.filters.criteria = .ok cs ∧ r.names = .ok names ∧
        t = ⟨r.guid, direction, .ofDepth n, r.depth, r.hideProcess, cs, names⟩ := by
  constructor
  · intro h
    obtain ⟨direction, hd, h⟩ := Outcome.bind_eq_ok.mp h
    obtain ⟨budget, hb, h⟩ := Outcome.bind_eq_ok.mp h
    obtain ⟨cs, hcs, h⟩ := Outcome.bind_eq_ok.mp h
    obtain ⟨items, hitems, h⟩ := Outcome.bind_eq_ok.mp h
    obtain ⟨names, hnames, h⟩ := Outcome.bind_eq_ok.mp h
    cases h
    obtain ⟨n, hn, rfl⟩ := checkDepth_iff.mp hb
    exact ⟨direction, n, cs, names, checkDirection_iff.mp hd, hn, Outcome.mapError_eq_ok.mp hcs,
      Outcome.bind_eq_ok.mpr ⟨items, hitems, hnames⟩, rfl⟩
  · intro h
    obtain ⟨direction, n, cs, names, hd, hn, hcs, hnames, rfl⟩ := h
    obtain ⟨items, hitems, hnames⟩ := Outcome.bind_eq_ok.mp hnames
    unfold terms
    rw [checkDirection_iff.mpr hd, Outcome.ok_bind, checkDepth_iff.mpr ⟨n, hn, rfl⟩,
      Outcome.ok_bind, Outcome.mapError_eq_ok.mpr hcs, Outcome.ok_bind, hitems, Outcome.ok_bind,
      hnames]
    rfl

/-! ## 2. The root -/

namespace Terms

variable {t : Terms} {p : Policy} {root : Vertex} {root? : Option Vertex} {c : Context}

/-- **The root is accepted as a dataset, or as a process**: it may be read, it is of the kind, and
processes are not hidden around a process. -/
structure Admits (t : Terms) (p : Policy) (root : Vertex) (isDataset : Bool) : Prop where
  permitted : ∃ header, Projector.header root (t.attributes.map .scalar) = .ok header ∧
    p.authorizer.permits header = .ok true
  dataset : p.taxonomy.isDataset root.typeName = .ok isDataset
  process : isDataset = false →
    p.taxonomy.isProcess root.typeName = .ok true ∧ t.hideProcess.truth = false

/-- The context of a request with an accepted root. -/
def contextOf (t : Terms) (p : Policy) (root : Vertex) (isDataset : Bool) : Context where
  guid := t.guid
  root := root
  direction := t.direction
  budget := t.budget
  requestedDepth := t.requestedDepth
  hideProcess := t.hideProcess
  attributes := t.attributes
  isDataset := isDataset
  isProcess := !isDataset
  projector := p.projector
  criteria := t.criteria

/-- **Which roots are accepted**, and what the context is then. -/
theorem contextFor_iff : t.contextFor p root? = .ok c ↔ ∃ root isDataset, root? = some root ∧
    t.Admits p root isDataset ∧ c = t.contextOf p root isDataset := by
  constructor
  · intro h
    cases root? with
    | none => cases h
    | some root =>
        unfold contextFor at h
        obtain ⟨header, hheader, h⟩ := Outcome.bind_eq_ok.mp h
        obtain ⟨permitted, hpermitted, h⟩ := Outcome.bind_eq_ok.mp h
        cases permitted with
        | false => cases h
        | true =>
            obtain ⟨isDataset, hd, h⟩ := Outcome.bind_eq_ok.mp h
            refine ⟨root, isDataset, rfl, ?_⟩
            cases isDataset with
            | true =>
                cases h
                exact ⟨⟨⟨header, hheader, hpermitted⟩, hd, fun h => nomatch h⟩, rfl⟩
            | false =>
                obtain ⟨isProcess, hp, h⟩ := Outcome.bind_eq_ok.mp h
                cases isProcess with
                | false => cases h
                | true =>
                    cases hm : t.hideProcess.truth with
                    | true =>
                        simp only [Bool.not_false, Bool.not_true, hm] at h
                        cases h
                    | false =>
                        simp only [Bool.not_false, Bool.not_true, hm] at h
                        cases h
                        exact ⟨⟨⟨header, hheader, hpermitted⟩, hd, fun _ => ⟨hp, hm⟩⟩, rfl⟩
  · intro h
    obtain ⟨root, isDataset, rfl, ⟨⟨header, hheader, hpermitted⟩, hd, hprocess⟩, rfl⟩ := h
    unfold contextFor
    simp only [hheader, hpermitted, hd, Outcome.ok_bind]
    cases isDataset with
    | true => rfl
    | false =>
        obtain ⟨hp, hm⟩ := hprocess rfl
        simp only [hp, hm]
        rfl

end Terms

/-! ## 3. Both together -/

/-- The context of a request, as a chain of steps that can fail. -/
theorem LineageRequest.context_eq (r : LineageRequest) (p : Policy) (g : GraphAccess Outcome) :
    r.context p g = r.terms >>= fun terms => g.find r.guid >>= fun root? =>
      terms.contextFor p root? := by
  show (MonadExcept.ofExcept r.terms >>= fun terms => g.find r.guid >>= fun root? =>
    (MonadExcept.ofExcept (terms.contextFor p root?) : Outcome Context)) = _
  simp only [Walker.ofExcept_eq]

/-- **Which requests have a context**, and which one. -/
theorem LineageRequest.context_iff {r : LineageRequest} {p : Policy} {g : GraphAccess Outcome}
    {c : Context} : r.context p g = .ok c ↔ ∃ t root isDataset, r.terms = .ok t ∧
      g.find r.guid = .ok (some root) ∧ t.Admits p root isDataset ∧
      c = t.contextOf p root isDataset := by
  rw [context_eq]
  constructor
  · intro h
    obtain ⟨t, ht, h⟩ := Outcome.bind_eq_ok.mp h
    obtain ⟨root?, hfound, h⟩ := Outcome.bind_eq_ok.mp h
    obtain ⟨root, isDataset, rfl, hc⟩ := Terms.contextFor_iff.mp h
    exact ⟨t, root, isDataset, ht, hfound, hc⟩
  · intro h
    obtain ⟨t, root, isDataset, ht, hfound, hc⟩ := h
    exact Outcome.bind_eq_ok.mpr ⟨t, ht, Outcome.bind_eq_ok.mpr
      ⟨some root, hfound, Terms.contextFor_iff.mpr ⟨root, isDataset, rfl, hc⟩⟩⟩

/-- The same request in another direction. -/
def Context.facing (c : Context) (direction : Direction) : Context :=
  { c with direction := direction }

/-- The same request in another direction. -/
def LineageRequest.facing (r : LineageRequest) (direction : Direction) : LineageRequest :=
  { r with direction := .text direction.name }

/-- **A request in another direction has the same context**, but for the direction. -/
theorem LineageRequest.context_facing {r : LineageRequest} {p : Policy} {g : GraphAccess Outcome}
    {c : Context} (h : r.context p g = .ok c) (direction : Direction) :
    (r.facing direction).context p g = .ok (c.facing direction) := by
  obtain ⟨t, root, isDataset, ht, hfound, hadmits, rfl⟩ := context_iff.mp h
  obtain ⟨_, n, cs, names, _, hn, hcs, hnames, rfl⟩ := terms_iff.mp ht
  refine context_iff.mpr ⟨_, root, isDataset, terms_iff.mpr
    ⟨direction, n, cs, names, Direction.parse_name direction, hn, hcs, hnames, rfl⟩, hfound, ?_, rfl⟩
  exact ⟨hadmits.permitted, hadmits.dataset, hadmits.process⟩

/-! ## 4. Collections that are read first -/

namespace Value

/-- The list with a scalar at its end, unless it has one of the same key. -/
def withScalar (seen : List Scalar) (s : Scalar) : List Scalar :=
  if seen.any fun t => t.key = s.key then seen else seen ++ [s]

theorem withScalar_distinct {seen : List Scalar} (h : seen.Pairwise fun a b => a.key ≠ b.key)
    (s : Scalar) : (withScalar seen s).Pairwise fun a b => a.key ≠ b.key := by
  unfold withScalar
  split
  · exact h
  · rename_i hnew
    refine List.pairwise_append.mpr ⟨h, List.pairwise_singleton .., fun a ha b hb heq => hnew ?_⟩
    obtain rfl := List.mem_singleton.mp hb
    exact List.any_eq_true.mpr ⟨a, ha, decide_eq_true heq⟩

theorem foldl_withScalar {seen rest : List Scalar}
    (h : (seen ++ rest).Pairwise fun a b => a.key ≠ b.key) :
    rest.foldl withScalar seen = seen ++ rest := by
  induction rest generalizing seen with
  | nil => exact (List.append_nil seen).symm
  | cons s rest ih =>
      have hnew : ¬ (seen.any fun t => t.key = s.key) = true := by
        intro hany
        obtain ⟨t, ht, hkey⟩ := List.any_eq_true.mp hany
        exact (List.pairwise_append.mp h).2.2 t ht s List.mem_cons_self (of_decide_eq_true hkey)
      have hone : withScalar seen s = seen ++ [s] := if_neg hnew
      rw [List.foldl_cons, hone, ih (by rwa [List.append_assoc]), List.append_assoc]
      rfl

/-- **Distinct scalars stay what they are.** -/
theorem distinctScalars_twice {items : List Value} {names : List Scalar}
    (h : distinctScalars items = .ok names) :
    distinctScalars (names.map .scalar) = .ok names := by
  obtain ⟨scalars, _, h⟩ := Outcome.bind_eq_ok.mp h
  obtain rfl : scalars.foldl withScalar [] = names := Except.ok.inj h
  have hdistinct (rest seen : List Scalar) (hseen : seen.Pairwise fun a b => a.key ≠ b.key) :
      (rest.foldl withScalar seen).Pairwise fun a b => a.key ≠ b.key := by
    induction rest generalizing seen with
    | nil => exact hseen
    | cons s rest ih => exact ih _ (withScalar_distinct hseen s)
  generalize hnames : scalars.foldl withScalar [] = names
  have hmap : (names.map Value.scalar).mapM identifier = .ok names := by
    clear hnames
    induction names with
    | nil => rfl
    | cons s rest ih =>
        rw [List.map_cons, List.mapM_cons, ih]
        rfl
  unfold distinctScalars
  rw [hmap, Outcome.ok_bind]
  have hpairwise : ([] ++ names : List Scalar).Pairwise fun a b => a.key ≠ b.key :=
    hnames ▸ hdistinct scalars [] .nil
  exact congrArg Except.ok (foldl_withScalar hpairwise)

end Value

/-- The request with its collections read. -/
def LineageRequest.collected (r : LineageRequest) : Outcome LineageRequest := do
  let names ← r.names
  let filters ← r.filters.toList
  return { r with attributes := .list (names.map .scalar), filters := .items filters }

/-- Reading the collections of a request leaves its other parts alone. -/
theorem LineageRequest.collected_ok {r r' : LineageRequest} (h : r.collected = .ok r') :
    r'.guid = r.guid ∧ r'.depth = r.depth ∧
      ∀ direction, (r.facing direction).collected = .ok (r'.facing direction) := by
  obtain ⟨names, hnames, h⟩ := Outcome.bind_eq_ok.mp h
  obtain ⟨filters, hfilters, h⟩ := Outcome.bind_eq_ok.mp h
  cases h
  exact ⟨rfl, rfl, fun direction => Outcome.bind_eq_ok.mpr
    ⟨names, hnames, Outcome.bind_eq_ok.mpr ⟨filters, hfilters, rfl⟩⟩⟩

/-- **A request with its collections read** names the same attributes and criteria. -/
theorem LineageRequest.collected_means {r r' : LineageRequest} (h : r.collected = .ok r') :
    r'.names = r.names ∧ r'.filters.criteria = r.filters.criteria := by
  obtain ⟨names, hnames, h⟩ := Outcome.bind_eq_ok.mp h
  obtain ⟨given, hgiven, h⟩ := Outcome.bind_eq_ok.mp h
  cases h
  obtain ⟨items, _, hdistinct⟩ := Outcome.bind_eq_ok.mp hnames
  have hread : (Value.list (names.map .scalar)).elementsOrNone = .ok (names.map .scalar) := by
    cases names <;> rfl
  refine ⟨Eq.trans ?_ hnames.symm, ?_⟩
  · exact Outcome.bind_eq_ok.mpr ⟨_, hread, Value.distinctScalars_twice hdistinct⟩
  · unfold GivenCriteria.criteria
    rw [hgiven]
    rfl

/-- **A request is accepted as it is when its collections are read first.** -/
theorem LineageRequest.context_collected {r : LineageRequest} {p : Policy}
    {g : GraphAccess Outcome} {c : Context} (h : r.context p g = .ok c) :
    ∃ r', r.collected = .ok r' ∧ r'.context p g = .ok c := by
  obtain ⟨t, root, isDataset, ht, hfound, hadmits, rfl⟩ := context_iff.mp h
  obtain ⟨direction, n, cs, names, hd, hn, hcs, hnames, rfl⟩ := terms_iff.mp ht
  obtain ⟨given, hgiven, _⟩ := Outcome.bind_eq_ok.mp hcs
  have hcollected : r.collected = .ok _ :=
    Outcome.bind_eq_ok.mpr ⟨names, hnames, Outcome.bind_eq_ok.mpr ⟨given, hgiven, rfl⟩⟩
  obtain ⟨hnames', hcriteria⟩ := collected_means hcollected
  exact ⟨_, hcollected, context_iff.mpr ⟨_, root, isDataset, terms_iff.mpr
    ⟨direction, n, cs, names, hd, hn, hcriteria.trans hcs, hnames'.trans hnames, rfl⟩, hfound,
    hadmits, rfl⟩⟩

namespace Service

/-- **A request whose collections are read first is resolved like one with the collections read.** -/
theorem resolve_eq (s : Service Outcome) (r : LineageRequest) :
    s.resolve r = r.collected >>= s.info := by
  unfold resolve LineageRequest.collected
  simp only [Walker.ofExcept_eq, LineageRequest.names, bind_assoc, pure_bind]

end Service

end DataLineage
