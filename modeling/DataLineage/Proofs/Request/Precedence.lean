import DataLineage.Proofs.Graph.Faithful
import DataLineage.Proofs.Lineage.Exact
import DataLineage.Proofs.Recording.Readable
import DataLineage.Proofs.Request.Admitted

/-!
# Which check decides about a request

A request can fail several checks at once, and what its caller learns depends on which of them comes
first: nothing is told of the type of a root that may not be read, and nothing of a root at all
before the request itself makes sense.

* `FirstOf` -- the first of some reasons that applies;
* `GivenCriterion.Incomplete`, `Authorizer.ByTypes`, `MemoryGraph.Has` -- when single checks fail;
* `LineageRequest.refusals` -- **the reasons to refuse a request**, in the order in which they
  count;
* `LineageRequest.context_decided` -- **the first reason that applies decides**, and where none
  does, the request has a context.
-/

namespace DataLineage

/-! ## 1. The first of some reasons -/

/-- **The first of some reasons that applies** has this consequence, or none of them applies. -/
inductive FirstOf {α : Type} : List (Prop × α) → Option α → Prop where
  | none : FirstOf [] none
  | here {reason : Prop} {a : α} {rest : List (Prop × α)} (h : reason) :
      FirstOf ((reason, a) :: rest) (some a)
  | later {reason : Prop} {a : α} {rest : List (Prop × α)} {verdict : Option α} (h : ¬reason)
      (hrest : FirstOf rest verdict) : FirstOf ((reason, a) :: rest) verdict

/-- A reason is looked at only where those before it do not apply. -/
theorem FirstOf.look {α : Type} {reason : Prop} {a : α} {rest : List (Prop × α)}
    {P : Option α → Prop} (here : reason → P (some a))
    (later : ¬reason → ∃ verdict, FirstOf rest verdict ∧ P verdict) :
    ∃ verdict, FirstOf ((reason, a) :: rest) verdict ∧ P verdict := by
  by_cases h : reason
  · exact ⟨some a, .here h, here h⟩
  · obtain ⟨verdict, hrest, hP⟩ := later h
    exact ⟨verdict, .later h hrest, hP⟩

/-- There is one first reason. -/
theorem FirstOf.unique {α : Type} {reasons : List (Prop × α)} {first other : Option α}
    (hother : FirstOf reasons other) (hfirst : FirstOf reasons first) : other = first := by
  induction hother with
  | none =>
      cases hfirst
      rfl
  | here h =>
      cases hfirst with
      | here _ => rfl
      | later hn _ => exact absurd h hn
  | later hn _ ih =>
      cases hfirst with
      | here h => exact absurd h hn
      | later _ hrest => exact ih hrest

/-! ## 2. Direction and depth -/

/-- The names of the directions. -/
def Direction.names : List String := ["INPUT", "OUTPUT", "BOTH"]

/-- **A direction is read from the texts that name one**, and from no other. -/
theorem Direction.ofName?_none {s : String} : ofName? s = none ↔ s ∉ names := by
  constructor
  · rintro h hmem
    simp only [names, List.mem_cons, List.not_mem_nil, or_false] at hmem
    rcases hmem with rfl | rfl | rfl <;> cases h
  · intro h
    unfold ofName?
    split
    · exact absurd (by decide) h
    · exact absurd (by decide) h
    · exact absurd (by decide) h
    · rfl

namespace LineageRequest

variable {r : LineageRequest}

/-- The text by which a request names its direction. -/
def directionText (r : LineageRequest) : String := Text.inCapitals (Text.trim r.direction.display)

/-- The depth is a whole number that is not negative, or a truth value. -/
def DepthCounts (r : LineageRequest) : Prop :=
  (∃ n : Nat, r.depth = .int n) ∨ ∃ b, r.depth = .bool b

theorem checkDirection_refused (h : r.directionText ∉ Direction.names) :
    r.checkDirection = .error (.lineage (.invalidDirection r.direction) r.guid) := by
  have hname : Direction.ofName? (Text.inCapitals (Text.trim r.direction.display)) = none :=
    Direction.ofName?_none.mpr h
  unfold checkDirection Direction.parse
  rw [hname]

theorem parse_of_named (h : r.directionText ∈ Direction.names) :
    ∃ d, Direction.parse r.direction = .ok d := by
  unfold Direction.parse
  cases hname : Direction.ofName? (Text.inCapitals (Text.trim r.direction.display)) with
  | none => exact absurd h (Direction.ofName?_none.mp hname)
  | some d => exact ⟨d, rfl⟩

theorem wholeNumber_of_counts (h : r.DepthCounts) :
    ∃ n : Nat, r.depth.wholeNumber? = some (n : Int) := by
  rcases h with ⟨n, hn⟩ | ⟨b, hb⟩
  · exact ⟨n, by rw [hn]; rfl⟩
  · cases b with
    | false => exact ⟨0, by rw [hb]; rfl⟩
    | true => exact ⟨1, by rw [hb]; rfl⟩

theorem checkDepth_refused (h : ¬r.DepthCounts) :
    r.checkDepth = .error (.lineage (.invalidDepth r.depth) r.guid) := by
  unfold checkDepth
  split
  · rename_i n hn
    refine absurd ?_ h
    unfold Value.wholeNumber? at hn
    split at hn
    · rename_i m hm
      exact .inl ⟨n, by rw [hm, Option.some.inj hn]; rfl⟩
    · rename_i b hb
      exact .inr ⟨b, hb⟩
    · cases hn
  · rfl

end LineageRequest

/-! ## 3. Filters -/

/-- **An operator is found by the texts that messages list**, and by no other. -/
theorem FilterOperator.ofName?_none {s : String} : ofName? s = none ↔ s ∉ operatorNames := by
  constructor
  · rintro h hmem
    simp only [operatorNames, List.mem_cons, List.not_mem_nil, or_false] at hmem
    rcases hmem with rfl | rfl | rfl | rfl | rfl | rfl | rfl <;> cases h
  · intro h
    cases hop : ofName? s with
    | none => rfl
    | some op =>
        refine absurd ?_ h
        have hname : s = op.name := by
          unfold ofName? at hop
          split at hop <;> cases hop <;> rfl
        exact hname ▸ name_mem op

/-- A text is read as the operator that it names. -/
theorem FilterOperator.parse_text (s : String) :
    parse (.text s) =
      (ofName? s).elim (.error (.lineage (.unknownOperator (.text s)) .null)) .ok := by
  have hkey : Value.key (.text s) = .ok (.text s) := rfl
  rw [parse, hkey, Outcome.ok_bind]
  dsimp only
  cases ofName? s <;> rfl

/-- A text that names no operator is refused. -/
theorem FilterOperator.parse_unknown {s : String} (h : s ∉ operatorNames) :
    parse (.text s) = .error (.lineage (.unknownOperator (.text s)) .null) := by
  rw [parse_text, ofName?_none.mpr h]
  rfl

/-- A text that messages list is the name of an operator. -/
theorem FilterOperator.parse_known {s : String} (h : s ∈ operatorNames) :
    ∃ op, parse (.text s) = .ok op := by
  cases hname : ofName? s with
  | none => exact absurd h (ofName?_none.mp hname)
  | some op =>
      refine ⟨op, ?_⟩
      rw [parse_text, hname]
      rfl

namespace GivenCriterion

variable {c : GivenCriterion}

/-- The criterion is made already, or an object whose operator is a text, if it has one. -/
def Readable : GivenCriterion → Prop
  | made _ => True
  | described v => ∃ fields, v = .record fields ∧
      ∀ op, Record.get? fields "operator" = some op → ∃ s, op = .text s

/-- The object has no attribute or no operator, or an operator that there is not. -/
def Incomplete : GivenCriterion → Prop
  | made _ => False
  | described v => ∃ fields, v = .record fields ∧
      (Record.get? fields "attributeName" = none ∨ Record.get? fields "operator" = none ∨
        ∃ s, Record.get? fields "operator" = some (.text s) ∧ s ∉ operatorNames)

/-- Whether an object is complete depends on its fields. -/
theorem incomplete_iff {fields : Record} : (described (.record fields)).Incomplete ↔
    Record.get? fields "attributeName" = none ∨ Record.get? fields "operator" = none ∨
      ∃ s, Record.get? fields "operator" = some (.text s) ∧ s ∉ operatorNames :=
  ⟨fun ⟨_, heq, h⟩ => Value.record.inj heq ▸ h, fun h => ⟨fields, rfl, h⟩⟩

/-- **A criterion is refused as incompatible** exactly when it is not complete. -/
theorem criterion_cases (h : c.Readable) :
    (c.Incomplete ∧ ∃ cause guid, c.criterion = .error (.lineage cause guid) ∧
      cause.classOf = .incompatibleRequest) ∨ ¬c.Incomplete ∧ ∃ k, c.criterion = .ok k := by
  cases c with
  | made k => exact .inr ⟨id, k, rfl⟩
  | described v =>
      obtain ⟨fields, rfl, htext⟩ := h
      have hcriterion : (described (.record fields)).criterion =
          Criterion.required (.record fields) fields "attributeName" >>= fun subject =>
            Criterion.required (.record fields) fields "operator" >>= fun operator =>
              FilterOperator.parse operator >>= fun op =>
                .ok ⟨subject, op, Record.get fields "attributeValue"⟩ := rfl
      rw [hcriterion, incomplete_iff]
      unfold Criterion.required
      cases hsubject : Record.get? fields "attributeName" with
      | none => exact .inl ⟨.inl rfl, _, _, rfl, rfl⟩
      | some subject =>
          cases hoperator : Record.get? fields "operator" with
          | none => exact .inl ⟨.inr (.inl rfl), _, _, rfl, rfl⟩
          | some operator =>
              obtain ⟨name, rfl⟩ := htext operator hoperator
              simp only [Outcome.ok_bind]
              by_cases hname : name ∈ operatorNames
              · obtain ⟨op, hop⟩ := FilterOperator.parse_known hname
                rw [hop]
                refine .inr ⟨?_, _, rfl⟩
                rintro (hnone | hnone | ⟨other, hother, hunknown⟩)
                · cases hnone
                · cases hnone
                · cases hother
                  exact hunknown hname
              · rw [FilterOperator.parse_unknown hname]
                exact .inl ⟨.inr (.inr ⟨name, rfl, hname⟩), _, _, rfl, rfl⟩

end GivenCriterion

/-- **The first filter that is not complete** refuses all of them. -/
theorem GivenCriterion.mapM_cases {given : List GivenCriterion} (h : ∀ c ∈ given, c.Readable) :
    ((∃ c ∈ given, c.Incomplete) ∧ ∃ cause guid,
      given.mapM GivenCriterion.criterion = .error (.lineage cause guid) ∧
        cause.classOf = .incompatibleRequest) ∨
    (¬∃ c ∈ given, c.Incomplete) ∧ ∃ cs, given.mapM GivenCriterion.criterion = .ok cs := by
  induction given with
  | nil => exact .inr ⟨nofun, [], rfl⟩
  | cons c rest ih =>
      rw [List.mapM_cons]
      rcases criterion_cases (h c List.mem_cons_self) with
        ⟨hc, cause, guid, herror, hclass⟩ | ⟨hc, k, hk⟩
      · rw [herror]
        exact .inl ⟨⟨c, List.mem_cons_self, hc⟩, cause, guid, rfl, hclass⟩
      · rw [hk]
        rcases ih fun c hc => h c (List.mem_cons_of_mem _ hc) with
          ⟨⟨c', hc', hincomplete⟩, cause, guid, herror, hclass⟩ | ⟨hrest, cs, hcs⟩
        · rw [herror]
          exact .inl ⟨⟨c', List.mem_cons_of_mem _ hc', hincomplete⟩, cause, guid, rfl, hclass⟩
        · rw [hcs]
          refine .inr ⟨?_, k :: cs, rfl⟩
          rintro ⟨c', hc', hincomplete⟩
          rcases List.mem_cons.mp hc' with rfl | hc'
          · exact hc hincomplete
          · exact hrest ⟨c', hc', hincomplete⟩

/-! ## 4. The root -/

/-- The vertex is in the graph, and has the guid. -/
def MemoryGraph.Has (g : MemoryGraph) (guid : Value) (v : Vertex) : Prop :=
  ∃ k : Key, g.vertices[k]? = some v ∧ v.id.same guid = true

/-- **A vertex is found exactly when it has the guid.** -/
theorem MemoryGraph.Built.find_iff {g : MemoryGraph} (hg : g.Built) (guid : String) :
    ∃ root?, g.find (.text guid) = .ok root? ∧ ∀ v, root? = some v ↔ g.Has (.text guid) v := by
  refine ⟨g.vertices[Key.text guid]?, rfl, fun v => ⟨fun hv => ?_, ?_⟩⟩
  · have hid := hg.indexed.stored (.text guid) v hv
    exact ⟨.text guid, hv, (Value.same_iff_key v.id (.text guid)).mpr hid⟩
  · rintro ⟨k, hv, hsame⟩
    have hid := (Value.same_iff_key v.id (.text guid)).mp hsame
    obtain rfl : k = .text guid := Except.ok.inj ((hg.indexed.stored k v hv).symm.trans hid)
    exact hv

/-- **The authorizer decides by the type alone**: what is of one of these types may not be read. -/
def Authorizer.ByTypes (a : Authorizer) (denied : List Key) : Prop :=
  ∀ (h : EntityHeader) (s : Scalar), h.typeName = .scalar s →
    a.permits h = .ok !denied.contains s.key

theorem Authorizer.deny_byTypes (types : List Key) : (deny types).ByTypes types := by
  intro h s hs
  show (h.typeName.key >>= fun k => .ok !types.contains k) = _
  rw [hs]
  rfl

/-- Where everything may be read, no type is denied. -/
theorem Authorizer.allowAll_byTypes : allowAll.ByTypes [] := fun _ _ _ => rfl

/-- The category of a type is decided, where types and markers are scalars. -/
theorem Taxonomy.category_isOk {t : Taxonomy} {typeName marker : Value} {s : Scalar}
    (ht : typeName = .scalar s) (hm : ∃ s, marker = .scalar s) :
    ∃ b, t.isOfCategory typeName marker = .ok b := by
  obtain ⟨m, rfl⟩ := hm
  subst ht
  exact ⟨_, rfl⟩

/-- A header shows the type of its vertex. -/
theorem Projector.header_typeName {v : Vertex} {names : List Value} {hd : EntityHeader}
    (h : header v names = .ok hd) : hd.typeName = v.typeName := by
  obtain ⟨_, _, h⟩ := Outcome.bind_eq_ok.mp h
  obtain ⟨_, _, h⟩ := Outcome.bind_eq_ok.mp h
  cases h
  rfl

namespace Terms

variable {t : Terms} {p : Policy} {root : Vertex} {header : EntityHeader}

theorem contextFor_denied (hheader : Projector.header root (t.attributes.map .scalar) = .ok header)
    (hdenied : p.authorizer.permits header = .ok false) :
    t.contextFor p (some root) = .error (.lineage .notAuthorized t.guid) := by
  unfold contextFor
  simp only [hheader, hdenied, Outcome.ok_bind]
  rfl

theorem contextFor_unsupported
    (hheader : Projector.header root (t.attributes.map .scalar) = .ok header)
    (hpermitted : p.authorizer.permits header = .ok true)
    (hdataset : p.taxonomy.isDataset root.typeName = .ok false)
    (hprocess : p.taxonomy.isProcess root.typeName = .ok false) :
    t.contextFor p (some root) = .error (.lineage (.unsupportedType root.typeName) t.guid) := by
  unfold contextFor
  simp only [hheader, hpermitted, hdataset, hprocess, Outcome.ok_bind]
  rfl

theorem contextFor_hidden
    (hheader : Projector.header root (t.attributes.map .scalar) = .ok header)
    (hpermitted : p.authorizer.permits header = .ok true)
    (hdataset : p.taxonomy.isDataset root.typeName = .ok false)
    (hprocess : p.taxonomy.isProcess root.typeName = .ok true)
    (hhides : t.hideProcess.truth = true) :
    t.contextFor p (some root) = .error (.lineage (.processRootHidden root.typeName) t.guid) := by
  unfold contextFor
  simp only [hheader, hpermitted, hdataset, hprocess, hhides, Outcome.ok_bind]
  rfl

end Terms

/-! ## 5. The first reason decides -/

/-- **The vertices of the graph can be shown**: their types have names, and their classifications,
if they state any, are lists. -/
structure MemoryGraph.Presentable (g : MemoryGraph) : Prop where
  built : g.Built
  typed : ∀ (k : Key) (v : Vertex), g.vertices[k]? = some v → ∃ s, v.typeName = .scalar s
  classified : ∀ (k : Key) (v : Vertex), g.vertices[k]? = some v → ∀ x,
    Record.get? v.properties "classifications" = some x → ∃ items, x = .list items

namespace LineageRequest

/-- **The parts of the request are of their kinds**: the guid is a text, the attributes are a list
of texts, and the filters are objects. -/
structure Stated (r : LineageRequest) (given : List GivenCriterion) : Prop where
  guid : ∃ s, r.guid = .text s
  attributes : ∃ names : List String, r.attributes = .list (names.map .text)
  filters : r.filters.toList = .ok given
  readable : ∀ c ∈ given, c.Readable

/-- The reasons to refuse a request for what it says itself, each with the class of the refusal. -/
def ownRefusals (r : LineageRequest) (given : List GivenCriterion) : List (Prop × LineageClass) := [
  (r.directionText ∉ Direction.names, .incompatibleRequest),
  (¬r.DepthCounts, .incompatibleRequest),
  (∃ c ∈ given, c.Incomplete, .incompatibleRequest)]

/-- The reasons to refuse a request for its root, where some types may not be read. -/
def rootRefusals (r : LineageRequest) (p : Policy) (g : MemoryGraph) (denied : List Key) :
    List (Prop × LineageClass) := [
  (¬∃ root, g.Has r.guid root, .entityNotFound),
  (∃ root, g.Has r.guid root ∧ ∃ k ∈ denied, root.typeName.key = .ok k, .notAuthorized),
  (∃ root, g.Has r.guid root ∧ p.taxonomy.isDataset root.typeName ≠ .ok true ∧
    p.taxonomy.isProcess root.typeName ≠ .ok true, .unsupportedEntityType),
  (∃ root, g.Has r.guid root ∧ p.taxonomy.isDataset root.typeName ≠ .ok true ∧
    p.taxonomy.isProcess root.typeName = .ok true ∧ r.hideProcess.truth = true,
    .incompatibleRequest)]

/-- **The reasons to refuse a request**, in the order in which they count: nothing is told of a root
before the request makes sense, and nothing of its type before it may be read. -/
def refusals (r : LineageRequest) (p : Policy) (g : MemoryGraph) (given : List GivenCriterion)
    (denied : List Key) : List (Prop × LineageClass) :=
  r.ownRefusals given ++ r.rootRefusals p g denied

/-- **What becomes of a request**: it is refused with a fault of a class that names its guid, or it
has the context that its parts and its root make. -/
def Decided (r : LineageRequest) (p : Policy) (g : MemoryGraph) : Option LineageClass → Prop
  | some refusal => ∃ cause, r.context p g.access = .error (.lineage cause r.guid) ∧
      cause.classOf = refusal
  | none => ∃ (root : Vertex) (direction : Direction) (n : Nat) (names : List Scalar)
      (cs : List Criterion) (isDataset : Bool), g.Has r.guid root ∧
      Direction.parse r.direction = .ok direction ∧ r.depth.wholeNumber? = some (n : Int) ∧
      r.names = .ok names ∧ r.filters.criteria = .ok cs ∧
      p.taxonomy.isDataset root.typeName = .ok isDataset ∧
      r.context p g.access = .ok ⟨r.guid, root, direction, .ofDepth n, r.depth, r.hideProcess,
        names, isDataset, !isDataset, p.projector, cs⟩

variable {r : LineageRequest} {p : Policy} {g : MemoryGraph} {given : List GivenCriterion}
  {denied : List Key} {cause : LineageCause} {t : Terms}

/-- A request whose own parts are refused is refused over any graph. -/
theorem Decided.of_terms (h : r.terms = .error (.lineage cause r.guid)) :
    r.Decided p g (some cause.classOf) := by
  refine ⟨cause, ?_, rfl⟩
  rw [context_eq, h]
  rfl

/-- A request whose root is refused is refused. -/
theorem Decided.of_root {root? : Option Vertex} (ht : r.terms = .ok t)
    (hfind : g.find r.guid = .ok root?)
    (h : t.contextFor p root? = .error (.lineage cause r.guid)) :
    r.Decided p g (some cause.classOf) := by
  refine ⟨cause, ?_, rfl⟩
  have hfound : g.access.find r.guid = .ok root? := hfind
  rw [context_eq, ht, Outcome.ok_bind, hfound, Outcome.ok_bind, h]

/-- Texts are names of attributes. -/
theorem Stated.names (h : r.Stated given) : ∃ names, r.names = .ok names := by
  obtain ⟨texts, htexts⟩ := h.attributes
  have hitems : r.attributes.elementsOrNone = .ok (texts.map .text) := by
    rw [htexts]
    cases texts <;> rfl
  have hscalars (l : List String) :
      ∃ names, (l.map Value.text).mapM Value.identifier = .ok names := by
    induction l with
    | nil => exact ⟨[], rfl⟩
    | cons s rest ih =>
        obtain ⟨names, hnames⟩ := ih
        refine ⟨.text s :: names, ?_⟩
        rw [List.map_cons, List.mapM_cons, hnames]
        rfl
  obtain ⟨names, hnames⟩ := hscalars texts
  unfold LineageRequest.names Value.distinctScalars
  rw [hitems, Outcome.ok_bind, hnames]
  exact ⟨_, rfl⟩

/-- **Of a root that may be read, its kind decides**: whether it has a lineage at all, and whether
processes can be hidden around it. -/
theorem kind_decided (denied : List Key) {root : Vertex} {header : EntityHeader}
    {isDataset isProcess : Bool}
    (ht : r.terms = .ok t) (hfind : g.find r.guid = .ok (some root))
    (hhas : ∀ v, g.Has r.guid v ↔ v = root)
    (hheader : Projector.header root (t.attributes.map .scalar) = .ok header)
    (hpermitted : p.authorizer.permits header = .ok true)
    (hdataset : p.taxonomy.isDataset root.typeName = .ok isDataset)
    (hprocess : p.taxonomy.isProcess root.typeName = .ok isProcess) :
    ∃ verdict, FirstOf ((r.rootRefusals p g denied).drop 2) verdict ∧ r.Decided p g verdict := by
  have hno {x : Outcome Bool} {b : Bool} (hx : x = .ok b) (hne : x ≠ .ok true) : b = false :=
    Bool.eq_false_iff.mpr fun h => hne (h ▸ hx)
  obtain ⟨direction, n, cs, names, hparse, hn, hcs, hnames, rfl⟩ := terms_iff.mp ht
  refine FirstOf.look (P := r.Decided p g) (fun ⟨v, hv, hd, hp⟩ => ?_) fun hkind => ?_
  · obtain rfl := (hhas v).mp hv
    obtain rfl := hno hdataset hd
    obtain rfl := hno hprocess hp
    exact .of_root ht hfind (Terms.contextFor_unsupported hheader hpermitted hdataset hprocess)
  refine FirstOf.look (P := r.Decided p g) (fun ⟨v, hv, hd, hp, hhides⟩ => ?_) fun hshows => ?_
  · obtain rfl := (hhas v).mp hv
    obtain rfl := hno hdataset hd
    exact .of_root ht hfind (Terms.contextFor_hidden hheader hpermitted hdataset hp hhides)
  have hroot : g.Has r.guid root := (hhas root).mpr rfl
  refine ⟨none, .none, root, direction, n, names, cs, isDataset, hroot, hparse, hn, hnames, hcs,
    hdataset, context_iff.mpr ⟨_, root, isDataset, ht, hfind, ⟨⟨header, hheader, hpermitted⟩,
      hdataset, fun hfalse => ?_⟩, rfl⟩⟩
  have hd : p.taxonomy.isDataset root.typeName ≠ .ok true := by
    rw [hdataset, hfalse]
    nofun
  have hp : p.taxonomy.isProcess root.typeName = .ok true := by
    by_contra hp
    exact hkind ⟨root, hroot, hd, hp⟩
  exact ⟨hp, Bool.eq_false_iff.mpr fun hhides => hshows ⟨root, hroot, hd, hp, hhides⟩⟩

/-- **Once a request makes sense, the first reason that its root gives decides.** -/
theorem root_decided (hg : g.Presentable) (htaxonomy : p.taxonomy.Scalars)
    (hauthorizer : p.authorizer.ByTypes denied) (hguid : ∃ s, r.guid = .text s)
    (ht : r.terms = .ok t) :
    ∃ verdict, FirstOf (r.rootRefusals p g denied) verdict ∧ r.Decided p g verdict := by
  obtain ⟨guid, hguid⟩ := hguid
  obtain ⟨root?, hfind, hroot⟩ := hg.built.find_iff guid
  rw [← hguid] at hfind hroot
  obtain ⟨hterms, _⟩ := terms_ok ht
  -- a reason that does not apply is what the next check needs to go through
  refine FirstOf.look (P := r.Decided p g) (fun hnone => ?_) fun hsome => ?_
  · cases root? with
    | none => exact .of_root ht hfind (hterms ▸ Terms.contextFor_none t p)
    | some v => exact absurd ⟨v, (hroot v).mp rfl⟩ hnone
  obtain ⟨root, hhas⟩ := Classical.not_not.mp hsome
  obtain rfl := (hroot root).mpr hhas
  have hsame (v : Vertex) : g.Has r.guid v ↔ v = root :=
    (hroot v).symm.trans ⟨fun h => (Option.some.inj h).symm, fun h => congrArg some h.symm⟩
  obtain ⟨k, hvertex, _⟩ := id hhas
  obtain ⟨typeName, htypeName⟩ := hg.typed k root hvertex
  -- the header is made before it is asked whether it may be read, so there has to be one
  obtain ⟨header, hheader⟩ : ∃ hd, Projector.header root (t.attributes.map .scalar) = .ok hd :=
    (t.contextOf p root true).header_isOk (hg.classified k root hvertex)
  have hshown : header.typeName = root.typeName := Projector.header_typeName hheader
  have hpermits := hauthorizer header typeName (hshown.trans htypeName)
  refine FirstOf.look (P := r.Decided p g) (fun ⟨v, hv, k, hk, hkey⟩ => ?_) fun hallowed => ?_
  · rw [(hsame v).mp hv, htypeName] at hkey
    obtain rfl := Except.ok.inj hkey
    rw [List.contains_iff_mem.mpr hk] at hpermits
    exact .of_root ht hfind (hterms ▸ Terms.contextFor_denied hheader hpermits)
  have hpermitted : p.authorizer.permits header = .ok true := by
    rw [hpermits, Except.ok.injEq, Bool.not_eq_true', ← Bool.not_eq_true, List.contains_iff_mem]
    exact fun hk => hallowed ⟨root, hhas, _, hk, congrArg Value.key htypeName⟩
  obtain ⟨isDataset, hdataset⟩ := Taxonomy.category_isOk htypeName htaxonomy.dataset
  obtain ⟨isProcess, hprocess⟩ := Taxonomy.category_isOk htypeName htaxonomy.process
  exact kind_decided denied ht hfind hsame hheader hpermitted hdataset hprocess

/-- **The first reason that applies decides about a request.** The direction comes first, then the
depth, then the filters, then whether there is a root at all, whether its type may be read, whether
that type has lineage, and whether processes can be hidden around it. A request is refused with a
fault of the class of the first of these reasons that applies, and the fault names its guid; where
none applies, it has the context that its parts and its root make. -/
theorem context_decided (hg : g.Presentable) (htaxonomy : p.taxonomy.Scalars)
    (hauthorizer : p.authorizer.ByTypes denied) (hr : r.Stated given) :
    ∃ verdict, FirstOf (r.refusals p g given denied) verdict ∧ r.Decided p g verdict ∧
      ∀ other, FirstOf (r.refusals p g given denied) other → other = verdict := by
  suffices h : ∃ verdict, FirstOf (r.refusals p g given denied) verdict ∧ r.Decided p g verdict by
    obtain ⟨verdict, hfirst, hdecided⟩ := h
    exact ⟨verdict, hfirst, hdecided, fun _ hother => hother.unique hfirst⟩
  refine FirstOf.look (P := r.Decided p g) (fun hunnamed => ?_) fun hnamed => ?_
  · refine Decided.of_terms
      (?_ : r.terms = .error (.lineage (.invalidDirection r.direction) r.guid))
    unfold terms
    rw [checkDirection_refused hunnamed]
    rfl
  obtain ⟨direction, hparse⟩ := parse_of_named (Classical.not_not.mp hnamed)
  have hdirection := checkDirection_iff.mpr hparse
  refine FirstOf.look (P := r.Decided p g) (fun huncounted => ?_) fun hcounts => ?_
  · refine Decided.of_terms (?_ : r.terms = .error (.lineage (.invalidDepth r.depth) r.guid))
    unfold terms
    rw [hdirection, Outcome.ok_bind, checkDepth_refused huncounted]
    rfl
  obtain ⟨n, hn⟩ := wholeNumber_of_counts (Classical.not_not.mp hcounts)
  have hdepth := checkDepth_iff.mpr ⟨n, hn, rfl⟩
  have hfilters : r.filters.criteria = given.mapM GivenCriterion.criterion := by
    unfold GivenCriteria.criteria
    rw [hr.filters]
    rfl
  -- a fault among the filters names no guid yet, and is told about that of the request
  rcases GivenCriterion.mapM_cases hr.readable with
    ⟨hincomplete, cause, guid, herror, hclass⟩ | ⟨hcomplete, cs, hcs⟩
  · refine ⟨some .incompatibleRequest, .here hincomplete,
      hclass ▸ Decided.of_terms (?_ : r.terms = .error (.lineage cause r.guid))⟩
    unfold terms
    rw [hdirection, Outcome.ok_bind, hdepth, Outcome.ok_bind, hfilters, herror]
    rfl
  · obtain ⟨names, hnames⟩ := hr.names
    obtain ⟨verdict, hfirst, hdecided⟩ := root_decided hg htaxonomy hauthorizer hr.guid
      (terms_iff.mpr ⟨direction, n, cs, names, hparse, hn, hfilters.trans hcs, hnames, rfl⟩)
    exact ⟨verdict, .later hcomplete hfirst, hdecided⟩

end LineageRequest

namespace Loop

/-- A filter that asks for a name. -/
def nameFilter : Value := .record [("attributeName", .text "name"), ("operator", .text "exists")]

/-- The request for what flows out of the job `p`, with all processes hidden. -/
def hidingRequest : LineageRequest where
  guid := .text "p"
  depth := .bool true
  direction := .text " output "
  hideProcess := .bool true
  attributes := .list [.text "name"]
  filters := .value (.list [nameFilter])

/-- Jobs may not be read. -/
def denyingPolicy : Policy := { policy with authorizer := .deny [.text "Job"] }

theorem presentable : graph.Presentable where
  built := seeded.built
  typed k v h := by
    have h : vertices[k]? = some v := h
    simp only [vertices, Std.HashMap.getElem?_insert] at h
    grind [table, job]
  classified k v h x hx := by
    rw [properties_eq h] at hx
    cases hx

theorem hidingRequest_stated : hidingRequest.Stated [.described nameFilter] where
  guid := ⟨_, rfl⟩
  attributes := ⟨["name"], rfl⟩
  filters := rfl
  readable c hc := by
    obtain rfl := List.mem_singleton.mp hc
    refine ⟨_, rfl, fun op hop => ?_⟩
    cases hop
    exact ⟨_, rfl⟩

theorem graph_has_p : graph.Has (.text "p") (job "p") := ⟨.text "p", by cbv, rfl⟩

end Loop

/-- A root that may not be read is refused as such, although it is a process and these are to be
hidden. -/
theorem LineageRequest.context_decided_loop :
    Loop.graph.Presentable ∧ Loop.denyingPolicy.taxonomy.Scalars ∧
    Loop.hidingRequest.Stated [.described Loop.nameFilter] ∧
    ∃ cause, Loop.hidingRequest.context Loop.denyingPolicy Loop.graph.access =
        .error (.lineage cause (.text "p")) ∧ cause.classOf = .notAuthorized := by
  refine ⟨Loop.presentable, Loop.scalars, Loop.hidingRequest_stated, ?_⟩
  obtain ⟨verdict, _, hdecided, hunique⟩ := LineageRequest.context_decided
    (p := Loop.denyingPolicy) Loop.presentable Loop.scalars (Authorizer.deny_byTypes _)
    Loop.hidingRequest_stated
  have hdenied : FirstOf (Loop.hidingRequest.refusals Loop.denyingPolicy Loop.graph
      [.described Loop.nameFilter] [.text "Job"]) (some .notAuthorized) := by
    refine .later (not_not.mpr ?_) (.later (not_not.mpr (.inr ⟨true, rfl⟩)) (.later ?_ (.later
      (not_not.mpr ⟨_, Loop.graph_has_p⟩) (.here ⟨_, Loop.graph_has_p, .text "Job",
        List.mem_singleton_self _, rfl⟩))))
    · show Text.inCapitals (Text.trim " output ") ∈ Direction.names
      decide +kernel
    · rintro ⟨c, hc, hincomplete⟩
      obtain rfl := List.mem_singleton.mp hc
      obtain ⟨fields, hfields, hlacks⟩ := hincomplete
      cases hfields
      rcases hlacks with h | h | ⟨op, h, hunknown⟩
      · cases h
      · cases h
      · cases h
        exact hunknown (by decide)
  rw [← hunique _ hdenied] at hdecided
  exact hdecided

end DataLineage
