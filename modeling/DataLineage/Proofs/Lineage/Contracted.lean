import DataLineage.Proofs.Lineage.Around

/-!
# Lineages with hidden processes

A lineage that hides its processes is the contraction of the one that shows them, where both
datasets of a pair have to be visible. The same pairs are open in both. Relations into a process and
out of it may come from different pairs, but then their edges make a pair of their own:

* `Recorder.Modes` -- two recorders of one request, in the two modes;
* `Modes.openPair_iff` -- the same pairs are open, and `Modes.cross` -- those of one process cross;
* `Relation.Joins` -- one relation for the way into a process and out of it;
* `Modes.yields_of_joins`, `Modes.joins_of_yields`, `Modes.ends_iff` -- **what the hidden mode brings
  in**, said of the other one;
* `Service.hidden_contracts` -- so for the answers to requests.
-/

namespace DataLineage

/-! ## 1. Processes -/

/-- A process-like vertex has the key. -/
def MemoryGraph.ProcessAt (g : MemoryGraph) (t : Taxonomy) (k : Key) : Prop :=
  ∃ p, g.vertices[k]? = some p ∧ t.isProcess p.typeName = .ok true

namespace MemoryGraph.Typed

variable {g : MemoryGraph} {t : Taxonomy} {e : Edge} {k : Key}

/-- Every edge leaves a process. -/
theorem source (h : g.Typed t) (hg : g.Seeded) (he : e ∈ g.added.toList)
    (hk : e.source.id.key = .ok k) : g.ProcessAt t k := by
  obtain ⟨k', hk', hv⟩ := hg.ends e he .outgoing
  obtain rfl : k = k' := Except.ok.inj (hk.symm.trans hk')
  exact ⟨e.source, hv, (h e he).1⟩

/-- No edge leads to a process. -/
theorem target (h : g.Typed t) (hg : g.Seeded) (ht : t.Separates) (he : e ∈ g.added.toList)
    (hk : e.target.id.key = .ok k) : ¬ g.ProcessAt t k := by
  intro hprocess
  obtain ⟨p, hp, hprocess⟩ := hprocess
  obtain ⟨k', hk', hv⟩ := hg.ends e he .incoming
  obtain rfl : k = k' := Except.ok.inj (hk.symm.trans hk')
  obtain rfl : p = e.target := Option.some.inj (hp.symm.trans hv)
  exact ht _ ⟨(h e he).2, hprocess⟩

end MemoryGraph.Typed

/-! ## 2. The labels of a pair -/

/-- An edge leads to what its process reads if its label says so. -/
theorem Recorder.isInput_iff {r : Recorder} {e : Edge} {l inKey : Key} (hl : e.label.key = .ok l)
    (hi : r.taxonomy.labels.inputs.key = .ok inKey) (hnumber : inKey ≠ .nan) :
    r.isInput e = true ↔ l = inKey := by
  obtain ⟨s, hs, rfl⟩ := (Value.key_eq_ok_iff _ _).mp hl
  unfold isInput
  rw [hs, Value.equal_scalar, Bool.and_eq_true, Value.hasKey_iff, hi, Except.ok.injEq,
    Bool.not_eq_true', beq_eq_false_iff_ne]
  constructor
  · exact fun h => h.2.symm
  · rintro rfl
    exact ⟨hnumber, rfl⟩

/-- **Of the two edges of a pair one leads to what the process reads**, and the other does not. -/
theorem Terrain.PairAt.isInput {T : Terrain} {d : Key} {into out : Edge} (hp : T.PairAt d into out)
    {es : List Edge} {r : Recorder} {backward : Bool} (hT : T.For es r.taxonomy.labels backward)
    {inKey outKey : Key} (hi : r.taxonomy.labels.inputs.key = .ok inKey)
    (ho : r.taxonomy.labels.outputs.key = .ok outKey) (hne : inKey ≠ outKey)
    (hnumber : inKey ≠ .nan) : r.isInput out = !r.isInput into := by
  rw [Bool.eq_iff_iff, Bool.not_eq_true', ← Bool.not_eq_true,
    Recorder.isInput_iff hp.into_label hi hnumber, Recorder.isInput_iff hp.out_label hi hnumber]
  cases backward with
  | true =>
      obtain rfl : outKey = T.into := Except.ok.inj (ho.symm.trans hT.into)
      obtain rfl : inKey = T.out := Except.ok.inj (hi.symm.trans hT.out)
      exact ⟨fun _ => hne.symm, fun _ => rfl⟩
  | false =>
      obtain rfl : inKey = T.into := Except.ok.inj (hi.symm.trans hT.into)
      obtain rfl : outKey = T.out := Except.ok.inj (ho.symm.trans hT.out)
      exact ⟨fun h => absurd h.symm hne, fun h => absurd rfl h⟩

/-! ## 3. One request in two modes -/

/-- **The relation `x` stands for data that flows into a process by `y` and out of it by `z`.** -/
structure Relation.Joins (y z x : Relation) : Prop where
  source : y.source.key = x.source.key
  into : y.target.key = x.processId.key
  out : z.source.key = x.processId.key
  target : z.target.key = x.target.key

/-- Joining goes by the ids alone. -/
theorem Relation.Joins.congr {x y y' z z' : Relation} (h : y.Joins z x) (hy : y.same y' = true)
    (hz : z.same z' = true) : y'.Joins z' x := by
  obtain ⟨hys, hyt, _⟩ := (same_iff y y').mp hy
  obtain ⟨hzs, hzt, _⟩ := (same_iff z z').mp hz
  exact ⟨hys ▸ h.source, hyt ▸ h.into, hzs ▸ h.out, hzt ▸ h.target⟩

/-- The relation leads from where the one edge ends to where the other one does, through the process
that both leave. -/
structure Relation.Through (x : Relation) (a b : Edge) : Prop where
  source : a.target.id.key = .ok x.source.key
  into : a.source.id.key = .ok x.processId.key
  out : b.source.id.key = .ok x.processId.key
  target : b.target.id.key = .ok x.target.key

theorem Relation.Through.same {x w : Relation} {a b : Edge} (h : x.Through a b)
    (h' : w.Through a b) (hid : x.relationshipId = w.relationshipId) : x.same w = true :=
  (same_iff x w).mpr ⟨Except.ok.inj (h.source.symm.trans h'.source),
    Except.ok.inj (h.target.symm.trans h'.target), congrArg _ hid,
    Except.ok.inj (h.out.symm.trans h'.out)⟩

theorem Relation.Through.congr {x w : Relation} {a b : Edge} (h : w.Through a b)
    (hsame : x.same w = true) : x.Through a b := by
  obtain ⟨hs, ht, _, hp⟩ := (same_iff x w).mp hsame
  exact ⟨hs ▸ h.source, hp ▸ h.into, hp ▸ h.out, ht ▸ h.target⟩

namespace Recorder

variable {r : Recorder} {into out a b : Edge} {x y z w : Relation}

/-- The relations of an edge that is read and of one that is written join to what leads through
both. -/
theorem joins_iff (ha : r.relationOf a = .ok y) (hb : r.relationOf b = .ok z)
    (hread : r.isInput a = true) (hwritten : r.isInput b = false) :
    y.Joins z x ↔ x.Through a b := by
  obtain ⟨_, _, ⟨_, hys, hyt⟩ | ⟨h, _⟩⟩ := relationOf_ok ha
  case inr => cases hread.symm.trans h
  obtain ⟨_, _, ⟨h, _⟩ | ⟨_, hzs, hzt⟩⟩ := relationOf_ok hb
  case inl => cases hwritten.symm.trans h
  constructor
  · intro h
    refine ⟨?_, ?_, ?_, ?_⟩
    · rw [hys, ← h.source]; rfl
    · rw [hyt, ← h.into]; rfl
    · rw [hzs, ← h.out]; rfl
    · rw [hzt, ← h.target]; rfl
  · intro h
    obtain ⟨hs, hi, ho, ht⟩ := h
    rw [hys] at hs
    rw [hyt] at hi
    rw [hzs] at ho
    rw [hzt] at ht
    exact ⟨Except.ok.inj hs, Except.ok.inj hi, Except.ok.inj ho, Except.ok.inj ht⟩

/-- The relation of a pair through its process. -/
theorem relationThrough_through {T : Terrain} {d : Key} (hp : T.PairAt d into out)
    (h : r.relationThrough into out = .ok w) :
    w.relationshipId = .null ∧ (r.isInput into = true ∧ w.Through into out ∨
      r.isInput into = false ∧ w.Through out into) := by
  obtain ⟨hid, hprocess, hends⟩ := relationThrough_ok h
  obtain ⟨p, hi, ho⟩ := hp.process
  have hout : out.source.id.key = .ok w.processId.key := by rw [hprocess]; rfl
  have hinto : into.source.id.key = .ok w.processId.key := hi.trans (ho.symm.trans hout)
  refine ⟨hid, hends.imp ?_ ?_⟩
  · rintro ⟨hread, hs, ht⟩
    exact ⟨hread, by rw [hs]; rfl, hinto, hout, by rw [ht]; rfl⟩
  · rintro ⟨hread, hs, ht⟩
    exact ⟨hread, by rw [hs]; rfl, hout, hinto, by rw [ht]; rfl⟩

/-- **Two recorders of one request** around a visible dataset: the one hides processes, the other
shows them where both datasets of a pair are visible. -/
structure Modes (r r' : Recorder) (t : Taxonomy) (g : MemoryGraph) (k : Key) (n : Nat) : Prop where
  hidden : r.context.Around t g k
  shown : r'.context.Around t g k
  hides : r.context.hidesProcesses = true
  shows : r'.context.hidesProcesses = false
  strict : r'.requireBoth = true
  admits : r.context.admits = r'.context.admits
  budget : r.context.budget = .ofDepth n
  budget' : r'.context.budget = .ofDepth n
  taxonomy : r.taxonomy = r'.taxonomy

namespace Modes

variable {r r' : Recorder} {t : Taxonomy} {g : MemoryGraph} {k : Key} {n : Nat} {T : Terrain}

/-- In both modes a pair is open if both its datasets are visible. -/
theorem opens_iff (h : r.Modes r' t g k n) {into out : Edge} (hi : into ∈ g.added.toList)
    (ho : out ∈ g.added.toList) :
    (r.opensPair into out = .ok true ↔
      r.context.admits into.target = .ok true ∧ r.context.admits out.target = .ok true) ∧
    (r'.opensPair into out = .ok true ↔
      r.context.admits into.target = .ok true ∧ r.context.admits out.target = .ok true) := by
  rw [h.hidden.opensPair_iff rfl hi ho, h.shown.opensPair_iff rfl hi ho]
  unfold Context.Passes
  rw [h.hides, h.shows, h.strict, h.admits]
  exact ⟨Iff.rfl, Iff.rfl⟩

/-- **The same pairs are open in both modes.** -/
theorem openPair_iff (h : r.Modes r' t g k n) (hT : T.edges = g.added.toList) {d : Key}
    {into out : Edge} : T.OpenPair r d into out ↔ T.OpenPair r' d into out := by
  have same {d : Key} {into out : Edge} (hp : T.PairAt d into out) :
      r.opensPair into out = .ok true ↔ r'.opensPair into out = .ok true := by
    obtain ⟨hr, hr'⟩ := h.opens_iff (hT ▸ hp.into_mem) (hT ▸ hp.out_mem)
    exact hr.trans hr'.symm
  have hop (a b : Key) : T.Hop r a b ↔ T.Hop r' a b :=
    exists_congr fun into => exists_congr fun out => and_congr_right fun hp =>
      and_congr_left fun _ => same hp
  have near : T.Within r r.context.budget r.context.root d ↔
      T.Within r' r'.context.budget r'.context.root d := by
    rw [h.hidden.within_iff rfl h.budget, h.shown.within_iff rfl h.budget']
    exact exists_congr fun j => and_congr_right fun _ =>
      ⟨.mono fun a b => (hop a b).mp, .mono fun a b => (hop a b).mpr⟩
  constructor
  · exact fun hp => ⟨near.mp hp.near, hp.pair, (same hp.pair).mp hp.opens⟩
  · exact fun hp => ⟨near.mpr hp.near, hp.pair, (same hp.pair).mpr hp.opens⟩

/-- **Open pairs of one process cross**: the way in of the one and the way out of the other make an
open pair. -/
theorem cross (h : r.Modes r' t g k n) (hT : T.edges = g.added.toList) {d d' p : Key}
    {into out into' out' : Edge} (hp : T.OpenPair r d into out) (hp' : T.OpenPair r d' into' out')
    (hi : into.source.id.key = .ok p) (ho : out'.source.id.key = .ok p) :
    T.OpenPair r d into out' := by
  have visible := (h.opens_iff (hT ▸ hp.pair.into_mem) (hT ▸ hp.pair.out_mem)).1.mp hp.opens
  have visible' := (h.opens_iff (hT ▸ hp'.pair.into_mem) (hT ▸ hp'.pair.out_mem)).1.mp hp'.opens
  exact ⟨hp.near, ⟨hp.pair.into_mem, hp'.pair.out_mem, hp.pair.into_label, hp'.pair.out_label,
    hp.pair.near, ⟨p, hi, ho⟩⟩,
    (h.opens_iff (hT ▸ hp.pair.into_mem) (hT ▸ hp'.pair.out_mem)).1.mpr ⟨visible.1, visible'.2⟩⟩

/-- Both modes read the same edges. -/
theorem isInput_eq (h : r.Modes r' t g k n) (e : Edge) : r'.isInput e = r.isInput e := by
  unfold isInput
  rw [h.taxonomy]

/-- The edge of a relation into a process is read. -/
theorem isInput_of_target (h : r.Modes r' t g k n) {e : Edge} (he : e ∈ g.added.toList)
    {y : Relation} (hy : r'.relationOf e = .ok y) (hprocess : g.ProcessAt t y.target.key) :
    r.isInput e = true := by
  rw [← h.isInput_eq]
  obtain ⟨_, _, ⟨hread, _⟩ | ⟨_, _, htarget⟩⟩ := relationOf_ok hy
  · exact hread
  · refine absurd hprocess (h.hidden.typed.target h.hidden.seeded h.hidden.separate he ?_)
    rw [htarget]
    rfl

/-- The edge of a relation out of a process is written. -/
theorem isInput_of_source (h : r.Modes r' t g k n) {e : Edge} (he : e ∈ g.added.toList)
    {z : Relation} (hz : r'.relationOf e = .ok z) (hprocess : g.ProcessAt t z.source.key) :
    r.isInput e = false := by
  rw [← h.isInput_eq]
  obtain ⟨_, _, ⟨_, htarget, _⟩ | ⟨hwritten, _⟩⟩ := relationOf_ok hz
  · refine absurd hprocess (h.hidden.typed.target h.hidden.seeded h.hidden.separate he ?_)
    rw [htarget]
    rfl
  · exact hwritten

/-- **An open pair is one relation of the hidden mode**, whichever its direction. -/
theorem yields_of_through (h : r.Modes r' t g k n) (hT : T.edges = g.added.toList) {d : Key}
    {into out : Edge} (hp : T.OpenPair r d into out) {x : Relation}
    (hnull : x.relationshipId = .null)
    (hx : r.isInput into = true ∧ x.Through into out ∨
      r.isInput into = false ∧ x.Through out into) : ∃ w, T.Yields r w ∧ x.same w = true := by
  have reads {e : Edge} (he : e ∈ T.edges) : r.ReadsEdge e :=
    h.hidden.legible.readsEdge h.hidden.seeded rfl (hT ▸ he)
  obtain ⟨w, hw⟩ := relationThrough_total (reads hp.pair.into_mem) (reads hp.pair.out_mem)
  refine ⟨w, (h.hidden.yields_iff rfl w).mpr
    ⟨d, into, out, hp, (pairYields_hidden h.hides).mpr hw⟩, ?_⟩
  obtain ⟨hid, hthrough⟩ := relationThrough_through hp.pair hw
  have hid := hnull.trans hid.symm
  rcases hx with ⟨hread, hx⟩ | ⟨hread, hx⟩ <;> rcases hthrough with ⟨h', hw⟩ | ⟨h', hw⟩
  · exact hx.same hw hid
  · cases hread.symm.trans h'
  · cases hread.symm.trans h'
  · exact hx.same hw hid

/-- **A relation into a process and one out of it** stand for a relation of the hidden mode, also
if they come from different pairs. -/
theorem yields_of_joins (h : r.Modes r' t g k n) (hT : T.edges = g.added.toList)
    {x y z : Relation} (hnull : x.relationshipId = .null)
    (hprocess : g.ProcessAt t x.processId.key) (hy : T.Yields r' y) (hz : T.Yields r' z)
    (hjoins : y.Joins z x) : ∃ w, T.Yields r w ∧ x.same w = true := by
  obtain ⟨d, into, out, hp, hy⟩ := (h.shown.yields_iff rfl y).mp hy
  obtain ⟨d', into', out', hp', hz⟩ := (h.shown.yields_iff rfl z).mp hz
  have hp := (h.openPair_iff hT).mpr hp
  have hp' := (h.openPair_iff hT).mpr hp'
  obtain ⟨a, ha, hya⟩ : ∃ a, (a = into ∨ a = out) ∧ r'.relationOf a = .ok y :=
    ((pairYields_expanded h.shows).mp hy).elim (⟨into, .inl rfl, ·⟩) (⟨out, .inr rfl, ·⟩)
  obtain ⟨b, hb, hzb⟩ : ∃ b, (b = into' ∨ b = out') ∧ r'.relationOf b = .ok z :=
    ((pairYields_expanded h.shows).mp hz).elim (⟨into', .inl rfl, ·⟩) (⟨out', .inr rfl, ·⟩)
  have ha' : a ∈ g.added.toList := by
    rw [← hT]
    exact ha.elim (· ▸ hp.pair.into_mem) (· ▸ hp.pair.out_mem)
  have hb' : b ∈ g.added.toList := by
    rw [← hT]
    exact hb.elim (· ▸ hp'.pair.into_mem) (· ▸ hp'.pair.out_mem)
  have hread := h.isInput_of_target ha' hya (hjoins.into ▸ hprocess)
  have hwritten := h.isInput_of_source hb' hzb (hjoins.out ▸ hprocess)
  have hthrough := (joins_iff hya hzb (by rw [h.isInput_eq, hread])
    (by rw [h.isInput_eq, hwritten])).mp hjoins
  rcases ha with rfl | rfl <;> rcases hb with rfl | rfl
  · -- two ways to go on from a dataset have one label
    rw [isInput, Value.equal_congr hp.pair.into_label hp'.pair.into_label, ← isInput] at hread
    cases hread.symm.trans hwritten
  · exact h.yields_of_through hT (h.cross hT hp hp' hthrough.into hthrough.out) hnull
      (.inl ⟨hread, hthrough⟩)
  · exact h.yields_of_through hT (h.cross hT hp' hp hthrough.out hthrough.into) hnull
      (.inr ⟨hwritten, hthrough⟩)
  · rw [isInput, Value.equal_congr hp.pair.out_label hp'.pair.out_label, ← isInput] at hread
    cases hread.symm.trans hwritten

/-- **A relation of the hidden mode** joins a relation into its process with one out of it. -/
theorem joins_of_yields (h : r.Modes r' t g k n) {backward : Bool}
    (hT : T.For g.added.toList r.taxonomy.labels backward) {inKey outKey : Key}
    (hi : r.taxonomy.labels.inputs.key = .ok inKey)
    (ho : r.taxonomy.labels.outputs.key = .ok outKey) (hne : inKey ≠ outKey)
    (hnumber : inKey ≠ .nan) {x w : Relation} (hw : T.Yields r w) (hxw : x.same w = true) :
    x.relationshipId = .null ∧ g.ProcessAt t x.processId.key ∧
      ∃ y z, T.Yields r' y ∧ T.Yields r' z ∧ y.Joins z x := by
  obtain ⟨d, into, out, hp, hw⟩ := (h.hidden.yields_iff rfl w).mp hw
  obtain ⟨hid, hthrough⟩ := relationThrough_through hp.pair ((pairYields_hidden h.hides).mp hw)
  have reads {e : Edge} (he : e ∈ T.edges) : r'.ReadsEdge e :=
    h.shown.legible.readsEdge h.shown.seeded rfl (hT.edges ▸ he)
  have yields {y : Relation} (hy : r'.relationOf into = .ok y ∨ r'.relationOf out = .ok y) :
      T.Yields r' y :=
    (h.shown.yields_iff rfl y).mpr ⟨d, into, out, (h.openPair_iff hT.edges).mp hp,
      (pairYields_expanded h.shows).mpr hy⟩
  obtain ⟨y, hy⟩ := relationOf_total (reads hp.pair.into_mem)
  obtain ⟨z, hz⟩ := relationOf_total (reads hp.pair.out_mem)
  have hnull : x.relationshipId = .null := by
    obtain ⟨_, _, hkey, _⟩ := (Relation.same_iff x w).mp hxw
    rw [hid] at hkey
    exact (Scalar.key_eq_null_iff _).mp hkey
  have hprocess {p : Key} (hk : into.source.id.key = .ok p) : g.ProcessAt t p :=
    h.hidden.typed.source h.hidden.seeded (hT.edges ▸ hp.pair.into_mem) hk
  have hother := hp.pair.isInput hT hi ho hne hnumber
  rcases hthrough with ⟨hread, hthrough⟩ | ⟨hread, hthrough⟩
  · have hthrough := hthrough.congr hxw
    refine ⟨hnull, hprocess hthrough.into, y, z, yields (.inl hy), yields (.inr hz),
      (joins_iff hy hz ?_ ?_).mpr hthrough⟩
    · rw [h.isInput_eq, hread]
    · rw [h.isInput_eq, hother, hread]
      rfl
  · have hthrough := hthrough.congr hxw
    refine ⟨hnull, hprocess hthrough.out, z, y, yields (.inr hz), yields (.inl hy),
      (joins_iff hz hy ?_ ?_).mpr hthrough⟩
    · rw [h.isInput_eq, hother, hread]
      rfl
    · rw [h.isInput_eq, hread]

/-- **The entities that the hidden mode brings in**: those of the other one that are no
processes. -/
theorem ends_iff (h : r.Modes r' t g k n) (hT : T.edges = g.added.toList) (x : Key) :
    LineageGraph.Ends (T.Yields r) x ↔
      LineageGraph.Ends (T.Yields r') x ∧ ¬ g.ProcessAt t x := by
  have hg := h.hidden.seeded
  have hdataset {e : Edge} (he : e ∈ T.edges) (hk : e.target.id.key = .ok x) :
      ¬ g.ProcessAt t x := h.hidden.typed.target hg h.hidden.separate (hT ▸ he) hk
  rw [h.hidden.ends_iff rfl hT, h.shown.ends_iff rfl hT]
  constructor
  · intro h'
    obtain ⟨d, into, out, hp, hx⟩ := h'
    have hp' := (h.openPair_iff hT).mp hp
    rcases hx with hx | hx | ⟨hshows, _⟩
    · exact ⟨⟨d, into, out, hp', .inl hx⟩, hdataset hp.pair.into_mem hx⟩
    · exact ⟨⟨d, into, out, hp', .inr (.inl hx)⟩, hdataset hp.pair.out_mem hx⟩
    · cases hshows.symm.trans h.hides
  · intro h'
    obtain ⟨⟨d, into, out, hp', hx⟩, hnot⟩ := h'
    refine ⟨d, into, out, (h.openPair_iff hT).mpr hp', ?_⟩
    rcases hx with hx | hx | ⟨_, hx⟩
    · exact .inl hx
    · exact .inr (.inl hx)
    · exact absurd (h.hidden.typed.source hg (hT ▸ hp'.pair.into_mem) hx) hnot

end Modes

end Recorder

/-! ## 4. Requests -/

/-- The request with its processes hidden or shown. -/
def LineageRequest.hiding (r : LineageRequest) (hide : Bool) : LineageRequest :=
  { r with hideProcess := .bool hide }

theorem LineageRequest.Asks.hiding {r : LineageRequest} {direction : Direction} {n : Nat}
    {cs : List Criterion} {names : List Scalar} (h : r.Asks direction n cs names) (hide : Bool) :
    (r.hiding hide).Asks direction n cs names :=
  ⟨h.direction, h.depth, h.criteria, h.names⟩

namespace Service

/-- The service for which both datasets of a pair have to be visible. -/
def requiringBoth (s : Service Outcome) : Service Outcome := { s with requireBoth := true }

theorem Serves.requiringBoth {s : Service Outcome} {t : Taxonomy} {g : MemoryGraph}
    {cs : List Criterion} (h : s.Serves t g cs) : s.requiringBoth.Serves t g cs :=
  ⟨h.graph, h.taxonomy, h.unlimited, h.classified, h.judged⟩

/-- **A lineage with hidden processes is the contraction of the one that shows them.** Around a
visible dataset that may be read, in one direction, both requests are resolved. The hidden relations
are those that join a relation into a process with one out of it; the entities are those that are no
processes, with the same headers; and every relation carries the id of its process. -/
theorem hidden_contracts {s : Service Outcome} {t : Taxonomy} {data : Value} {g : MemoryGraph}
    {req : LineageRequest} {direction : Direction} {n : Nat} {cs : List Criterion}
    {names : List Scalar} {inKey outKey k : Key} {v : Vertex}
    (hseed : MemoryGraph.ofSeed t data = .ok g) (h : s.Serves t g cs) (hnative : s.usePatterns = false)
    (hseparate : t.Separates) (hi : t.labels.inputs.key = .ok inKey)
    (ho : t.labels.outputs.key = .ok outKey) (hne : inKey ≠ outKey) (hnumber : inKey ≠ .nan)
    (hreq : req.Asks direction n cs names) (hsingle : direction ≠ .both)
    (hguid : req.guid.key = .ok k) (hv : g.vertices[k]? = some v)
    (hdataset : t.isDataset v.typeName = .ok true)
    (hvisible : s.policy.projector.visible v = .ok true ∧ admitsAll cs v = .ok true)
    (hpermitted : ∃ header, Projector.header v (names.map .scalar) = .ok header ∧
      s.policy.authorizer.permits header = .ok true) :
    ∃ hidden shown, s.resolve (req.hiding true) = .ok hidden ∧
      s.requiringBoth.resolve (req.hiding false) = .ok shown ∧
      (∀ x, hidden.lineage.hasRelation x = true ↔ x.relationshipId = .null ∧
        g.ProcessAt t x.processId.key ∧ ∃ y z, shown.lineage.hasRelation y = true ∧
          shown.lineage.hasRelation z = true ∧ y.Joins z x) ∧
      (∀ id hd, EntityMap.get? hidden.lineage.entities id = some hd ↔
        EntityMap.get? shown.lineage.entities id = some hd ∧ ¬ g.ProcessAt t id.key) ∧
      (∀ id, hidden.lineage.hasEntity id = true → ¬ g.ProcessAt t id.key) ∧
      ∀ x, hidden.lineage.hasRelation x = true → x.processId ≠ .null := by
  obtain rfl : s.policy.taxonomy = t := h.taxonomy
  have hg : g.Seeded := MemoryGraph.ofSeed_seeded hseed
  obtain ⟨T, hT⟩ : ∃ T : Terrain, T.For g.added.toList s.policy.taxonomy.labels
      (direction == .input) := by
    cases direction with
    | input => exact ⟨⟨g.added.toList, outKey, inKey⟩, rfl, ho, hi⟩
    | output => exact ⟨⟨g.added.toList, inKey, outKey⟩, rfl, hi, ho⟩
    | both => exact absurd rfl hsingle
  obtain ⟨hidden, hhidden, hanswers, hholds⟩ := resolve_dataset h hg (hreq.hiding true) hsingle
    (fun hp => nomatch hnative.symm.trans hp) hv hguid hdataset hpermitted hT
  obtain ⟨shown, hshown, hanswers', hholds'⟩ := resolve_dataset h.requiringBoth hg
    (hreq.hiding false) hsingle (fun hp => nomatch hnative.symm.trans hp) hv hguid hdataset
    hpermitted hT
  have hmodes : Recorder.Modes
      (s.walker.recorder ((req.hiding true).contextAround s.policy v direction n cs names))
      (s.requiringBoth.walker.recorder
        ((req.hiding false).contextAround s.policy v direction n cs names)) s.policy.taxonomy g k n :=
    ⟨h.around hseed hseparate _ _ _ _ hv hvisible,
      h.requiringBoth.around hseed hseparate _ _ _ _ hv hvisible, rfl, rfl, rfl, rfl,
      rfl, rfl, rfl⟩
  have hnames (id : Scalar) : hidden.hasEntity id = true ↔
      shown.hasEntity id = true ∧ ¬ g.ProcessAt s.policy.taxonomy id.key := by
    rw [hholds.names id, hholds'.names id]
    exact hmodes.ends_iff hT.edges id.key
  have hrelations (x : Relation) : hidden.hasRelation x = true ↔ x.relationshipId = .null ∧
      g.ProcessAt s.policy.taxonomy x.processId.key ∧ ∃ y z, shown.hasRelation y = true ∧
        shown.hasRelation z = true ∧ y.Joins z x := by
    rw [hholds.records.relations]
    constructor
    · intro h'
      obtain ⟨w, hw, hxw⟩ := h'
      obtain ⟨hnull, hprocess, y, z, hy, hz, hjoins⟩ :=
        hmodes.joins_of_yields hT hi ho hne hnumber hw hxw
      exact ⟨hnull, hprocess, y, z, (hholds'.records.relations y).mpr ⟨y, hy, y.same_refl⟩,
        (hholds'.records.relations z).mpr ⟨z, hz, z.same_refl⟩, hjoins⟩
    · intro h'
      obtain ⟨hnull, hprocess, y, z, hy, hz, hjoins⟩ := h'
      obtain ⟨y', hy', hsame⟩ := (hholds'.records.relations y).mp hy
      obtain ⟨z', hz', hsame'⟩ := (hholds'.records.relations z).mp hz
      exact hmodes.yields_of_joins hT.edges hnull hprocess hy' hz' (hjoins.congr hsame hsame')
  refine ⟨_, _, hhidden, hshown, hrelations, fun id hd => ?_, fun id hid => ((hnames id).mp hid).2,
    fun x hx hnull => ?_⟩
  · rw [LineageGraph.get?_eq_some_iff hanswers.pictures MemoryGraph.headerAt_once,
      LineageGraph.get?_eq_some_iff hanswers'.pictures MemoryGraph.headerAt_once, hnames id]
    exact and_right_comm
  · obtain ⟨_, ⟨p, hp, _⟩, _⟩ := (hrelations x).mp hx
    have hkey := hg.built.indexed.stored _ p hp
    rw [hnull] at hkey
    obtain ⟨i, hi, hkey⟩ := (Value.key_eq_ok_iff _ _).mp hkey
    rw [(Scalar.key_eq_null_iff i).mp hkey] at hi
    have hblank := MemoryGraph.ofSeed_named hseed hp
    rw [hi] at hblank
    cases hblank

end Service

/-! ## 5. The loop -/

/-- Without its jobs the catalogue leads from `y` to `x`, and from there to `z` and back. -/
theorem Loop.contracted :
    (walking.resolve (request.hiding true)).map (fun res => res.lineage.relations) = .ok [
      ⟨.text "y", .text "x", .null, .text "p"⟩, ⟨.text "x", .text "z", .null, .text "q"⟩,
      ⟨.text "z", .text "x", .null, .text "p"⟩] := by
  unfold walking MemoryGraph.access
  rw [accessWith_eq]
  cbv

/-- The three relations of the loop join those into its jobs with those out of them. -/
theorem Service.hidden_contracts_loop :
    MemoryGraph.ofSeed Loop.taxonomy Loop.seed = .ok Loop.graph ∧
    Loop.walking.Serves Loop.taxonomy Loop.graph [] ∧ Loop.taxonomy.Separates ∧
    Loop.request.Asks .output 0 [] [] ∧
    ∃ hidden shown, Loop.walking.resolve (Loop.request.hiding true) = .ok hidden ∧
      Loop.walking.requiringBoth.resolve (Loop.request.hiding false) = .ok shown ∧
      hidden.lineage.relations.length = 3 ∧
      (∀ x, hidden.lineage.hasRelation x = true ↔ x.relationshipId = .null ∧
        Loop.graph.ProcessAt Loop.taxonomy x.processId.key ∧
          ∃ y z, shown.lineage.hasRelation y = true ∧ shown.lineage.hasRelation z = true ∧
            y.Joins z x) ∧
      ∀ id hd, EntityMap.get? hidden.lineage.entities id = some hd ↔
        EntityMap.get? shown.lineage.entities id = some hd ∧
          ¬ Loop.graph.ProcessAt Loop.taxonomy id.key := by
  obtain ⟨hidden, shown, hhidden, hshown, hrelations, hheaders, _⟩ :=
    hidden_contracts Loop.ofSeed_eq Loop.serves rfl Loop.separates rfl rfl (by decide) (by decide)
      Loop.asks (by decide) rfl (Loop.vertex_table (.inl rfl)) rfl ⟨rfl, rfl⟩ ⟨_, rfl, rfl⟩
  obtain ⟨res, hres, hthree⟩ := Outcome.map_eq_ok Loop.contracted
  obtain rfl : res = hidden := Except.ok.inj (hres.symm.trans hhidden)
  exact ⟨Loop.ofSeed_eq, Loop.serves, Loop.separates, Loop.asks, res, shown, hhidden, hshown,
    by rw [hthree]; rfl, hrelations, hheaders⟩

end DataLineage
