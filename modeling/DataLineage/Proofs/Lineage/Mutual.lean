import DataLineage.Proofs.Lineage.Around
import DataLineage.Proofs.Request.Resolved

/-!
# What flows into a dataset, and what it flows into

Turned around, a pair at one dataset is a pair at the other, and between visible datasets both are
open or none. So the hops of a lineage backward are those of a lineage forward, taken back:

* `Terrain.flip`, `Terrain.PairAt.flip` -- the terrain of the other direction;
* `Context.Around.hop_flip` -- **every hop can be taken back**;
* `Service.resolve_unanswered` -- a graph without a query language resolves nothing by patterns;
* `Service.flows_back_and_forth` -- one visible dataset is found upstream of another exactly when
  that one is found downstream of it.
-/

namespace DataLineage

/-! ## 1. Turning around -/

namespace Terrain

/-- The same edges, walked in the other direction. -/
def flip (t : Terrain) : Terrain := ⟨t.edges, t.out, t.into⟩

/-- **A pair turned around** is a pair at its other dataset. -/
theorem PairAt.flip {t : Terrain} {d x : Key} {into out : Edge} (h : t.PairAt d into out)
    (hx : out.target.id.key = .ok x) : t.flip.PairAt x out into where
  into_mem := h.out_mem
  out_mem := h.into_mem
  into_label := h.out_label
  out_label := h.into_label
  near := hx
  process := by
    obtain ⟨p, hi, ho⟩ := h.process
    exact ⟨p, ho, hi⟩

/-- The terrains of the two directions. -/
theorem For.flip {t : Terrain} {es : List Edge} {labels : EdgeLabels} {backward : Bool}
    (h : t.For es labels backward) : t.flip.For es labels (!backward) := by
  refine ⟨h.edges, ?_, ?_⟩
  · rw [labels.forDirection_swap]
    exact h.out
  · rw [labels.forDirection_swap]
    exact h.into

end Terrain

namespace Context

/-- Which pairs are open depends on what is visible, and on whether processes are hidden. -/
theorem Passes.congr {c c' : Context} (hadmits : c.admits = c'.admits)
    (hmode : c.hidesProcesses = c'.hidesProcesses) {requireBoth : Bool} {a b : Vertex}
    (h : c.Passes requireBoth a b) : c'.Passes requireBoth a b := by
  unfold Passes at h ⊢
  rwa [← hadmits, ← hmode]

/-- **Every hop can be taken back**, in the lineage around another dataset that is visible too. -/
theorem Around.hop_flip {c c' : Context} {t : Taxonomy} {g : MemoryGraph} {k k' : Key}
    {T : Terrain} (h : c.Around t g k) (h' : c'.Around t g k') (r r' : Recorder)
    (hadmits : c.admits = c'.admits) (hmode : c.hidesProcesses = c'.hidesProcesses)
    (hr : r.context = c) (hr' : r'.context = c') (hboth : r.requireBoth = r'.requireBoth)
    (hT : T.edges = g.added.toList) (d x : Key) (hhop : T.Hop r d x) : T.flip.Hop r' x d := by
  obtain ⟨into, out, hp, hopen, hx⟩ := hhop
  have hi : into ∈ g.added.toList := hT ▸ hp.into_mem
  have ho : out ∈ g.added.toList := hT ▸ hp.out_mem
  refine ⟨out, into, hp.flip hx, (h'.opensPair_iff hr' ho hi).mpr ?_, hp.near⟩
  rw [← hboth]
  exact passes_comm.mp (((h.opensPair_iff hr hi ho).mp hopen).congr hadmits hmode)

end Context

/-! ## 2. Graphs without a query language -/

/-- Where no script is answered, no pattern is. -/
theorem Walker.traverseAnswers_unanswered {w : Walker Outcome}
    (h : ∀ script edges, w.graph.runScript script ≠ .ok edges) (c : Context) (l : LineageGraph) :
    w.traverseAnswers c ≠ .ok l := by
  intro hl
  unfold traverseAnswers at hl
  split at hl
  · nomatch hl
  obtain ⟨ls, hls, _⟩ := Outcome.bind_eq_ok.mp hl
  obtain ⟨d, rest, hds⟩ : ∃ d rest, c.direction.walks = d :: rest := by
    cases c.direction <;> exact ⟨_, _, rfl⟩
  rw [hds] at hls
  obtain ⟨_, hx, _⟩ := Outcome.bind_eq_ok.mp hls
  obtain ⟨pattern, _, hx⟩ := Outcome.bind_eq_ok.mp hx
  obtain ⟨edges, hedges, _⟩ := Outcome.bind_eq_ok.mp hx
  exact h _ edges hedges

/-- **Over a graph without a query language, no request is resolved by patterns.** -/
theorem Service.resolve_unanswered {s : Service Outcome} {g : MemoryGraph}
    (hgraph : s.graph = g.access) (hpatterns : s.usePatterns = true) {req : LineageRequest}
    (hshown : req.hideProcess.truth = false) (res : Resolution) : s.resolve req ≠ .ok res := by
  intro hres
  rw [resolve_eq] at hres
  obtain ⟨req', hcollected, hres⟩ := Outcome.bind_eq_ok.mp hres
  obtain ⟨names, _, hcollected⟩ := Outcome.bind_eq_ok.mp hcollected
  obtain ⟨filters, _, hcollected⟩ := Outcome.bind_eq_ok.mp hcollected
  cases hcollected
  obtain ⟨hcontext, hlineage⟩ := info_ok hres
  obtain ⟨terms, root, isDataset, hterms, _, _, hc⟩ := LineageRequest.context_iff.mp hcontext
  obtain ⟨_, _, _, _, _, _, _, _, rfl⟩ := LineageRequest.terms_iff.mp hterms
  have hshown : res.context.hidesProcesses = false := hc ▸ hshown
  unfold lineageOf usesPattern at hlineage
  rw [hpatterns, hshown, if_pos (by rfl)] at hlineage
  exact Walker.traverseAnswers_unanswered (by rw [show s.walker.graph = g.access from hgraph]; nofun)
    _ _ hlineage

/-! ## 3. Upstream and downstream -/

namespace Service

/-- **A visible dataset `b` is found upstream of another one, `a`, exactly when `a` is found
downstream of `b`**, whatever the mode, the depth and the filters. Both requests are resolved, but by
patterns over a graph without a query language neither is. -/
theorem flows_back_and_forth {s : Service Outcome} {t : Taxonomy} {data : Value} {g : MemoryGraph}
    {req : LineageRequest} {direction : Direction} {n : Nat} {cs : List Criterion}
    {names : List Scalar} {inKey outKey ka kb : Key} {a b : Vertex}
    (hseed : MemoryGraph.ofSeed t data = .ok g) (h : s.Serves t g cs)
    (hplain : s.usePatterns = true → s.graph = g.access)
    (hallow : s.policy.authorizer = .allowAll) (hseparate : t.Separates)
    (hi : t.labels.inputs.key = .ok inKey) (ho : t.labels.outputs.key = .ok outKey)
    (hreq : req.Asks direction n cs names)
    (ha : g.vertices[ka]? = some a) (hb : g.vertices[kb]? = some b) (hne : ka ≠ kb)
    (hda : t.isDataset a.typeName = .ok true) (hdb : t.isDataset b.typeName = .ok true)
    (hva : s.policy.projector.visible a = .ok true ∧ admitsAll cs a = .ok true)
    (hvb : s.policy.projector.visible b = .ok true ∧ admitsAll cs b = .ok true) :
    ((s.usePatterns = true → req.hideProcess.truth = true) →
      (∃ back, s.resolve (req.around a .input) = .ok back) ∧
        ∃ forth, s.resolve (req.around b .output) = .ok forth) ∧
    ∀ x y, a.id = .scalar x → b.id = .scalar y →
      ((∃ back, s.resolve (req.around a .input) = .ok back ∧ back.lineage.hasEntity y = true) ↔
        ∃ forth, s.resolve (req.around b .output) = .ok forth ∧
          forth.lineage.hasEntity x = true) := by
  by_cases hnative : s.usePatterns = true → req.hideProcess.truth = true
  case neg =>
    obtain ⟨hpatterns, hshown⟩ := Classical.not_imp.mp hnative
    have unanswered {v : Vertex} {d : Direction} (res : Resolution) :
        s.resolve (req.around v d) ≠ .ok res := by
      have hshown : (req.around v d).hideProcess.truth = false := Bool.eq_false_iff.mpr hshown
      exact resolve_unanswered (hplain hpatterns) hpatterns hshown res
    refine ⟨fun hn => absurd hn hnative, fun _ _ _ _ => ⟨?_, ?_⟩⟩
    · exact fun ⟨back, hback, _⟩ => absurd hback (unanswered back)
    · exact fun ⟨forth, hforth, _⟩ => absurd hforth (unanswered forth)
  have hg : g.Seeded := MemoryGraph.ofSeed_seeded hseed
  let T : Terrain := ⟨g.added.toList, outKey, inKey⟩
  have hT : T.For g.added.toList t.labels (Direction.input == .input) := ⟨rfl, ho, hi⟩
  have hA := h.around hseed hseparate (req.around a .input) .input n names ha hva
  have hB := h.around hseed hseparate (req.around b .output) .output n names hb hvb
  obtain ⟨back, hback, _, hholds⟩ := resolve_dataset h hg (hreq.around a .input) (by decide)
    hnative ha (hg.built.indexed.stored ka a ha) hda (h.permits_all hallow ha names) hT
  obtain ⟨forth, hforth, _, hholds'⟩ := resolve_dataset h hg (hreq.around b .output) (by decide)
    hnative hb (hg.built.indexed.stored kb b hb) hdb (h.permits_all hallow hb names) hT.flip
  refine ⟨fun _ => ⟨⟨_, hback⟩, _, hforth⟩, fun x y hx hy => ?_⟩
  obtain rfl : ka = x.key := by
    have hkey := hg.built.indexed.stored ka a ha
    rw [hx] at hkey
    exact (Except.ok.inj hkey).symm
  obtain rfl : kb = y.key := by
    have hkey := hg.built.indexed.stored kb b hb
    rw [hy] at hkey
    exact (Except.ok.inj hkey).symm
  have hthere := hA.hop_flip (T := T) hB (s.walker.recorder _) (s.walker.recorder _)
    rfl rfl rfl rfl rfl rfl
  have hagain := hB.hop_flip (T := T.flip) hA (s.walker.recorder _) (s.walker.recorder _)
    rfl rfl rfl rfl rfl rfl
  have hsame : back.hasEntity y = true ↔ forth.hasEntity x = true := by
    rw [hholds.names y, hholds'.names x, hA.dataset_ends_iff rfl rfl rfl hb hdb hne.symm,
      hB.dataset_ends_iff rfl rfl rfl ha hda hne]
    exact exists_congr fun j => and_congr_right fun _ => ⟨.reverse hthere, .reverse hagain⟩
  rw [hback, hforth]
  constructor
  · rintro ⟨_, ⟨⟩, hy⟩
    exact ⟨_, rfl, hsame.mp hy⟩
  · rintro ⟨_, ⟨⟩, hx⟩
    exact ⟨_, rfl, hsame.mpr hx⟩

end Service

/-! ## 4. The loop -/

/-- What flows into `z` comes from `y` too, over two hops. -/
theorem Loop.upstream :
    (walking.resolve (request.around (table "z") .input)).map
      (fun res => res.lineage.hasEntity (.text "y")) = .ok true := by
  unfold walking MemoryGraph.access
  rw [accessWith_eq]
  cbv

/-- Upstream of `z` there is `y`, so `z` is downstream of `y`. -/
theorem Service.flows_back_and_forth_loop :
    MemoryGraph.ofSeed Loop.taxonomy Loop.seed = .ok Loop.graph ∧
    Loop.walking.Serves Loop.taxonomy Loop.graph [] ∧ Loop.taxonomy.Separates ∧
    Loop.request.Asks .output 0 [] [] ∧
    (∃ back, Loop.walking.resolve (Loop.request.around (Loop.table "z") .input) = .ok back ∧
      back.lineage.hasEntity (.text "y") = true) ∧
    ∃ forth, Loop.walking.resolve (Loop.request.around (Loop.table "y") .output) = .ok forth ∧
      forth.lineage.hasEntity (.text "z") = true := by
  obtain ⟨back, hback, hy⟩ := Outcome.map_eq_ok Loop.upstream
  have hsame := (flows_back_and_forth Loop.ofSeed_eq Loop.serves nofun rfl Loop.separates rfl rfl
    Loop.asks (Loop.vertex_table (.inr rfl)) (Loop.vertex_table (.inl rfl)) (by decide) rfl rfl
    ⟨rfl, rfl⟩ ⟨rfl, rfl⟩).2 (.text "z") (.text "y") rfl rfl
  exact ⟨Loop.ofSeed_eq, Loop.serves, Loop.separates, Loop.asks, ⟨back, hback, hy⟩,
    hsame.mp ⟨back, hback, hy⟩⟩

end DataLineage
