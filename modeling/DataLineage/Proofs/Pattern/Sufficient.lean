import DataLineage.Proofs.Pattern.Meaning
import DataLineage.Proofs.Pattern.Strategies

/-!
# Sufficient answers

A database may answer more than a walk needs: edges that are not reached, edges that lie too deep,
edges again, in any order. As long as it answers edges of the graph, and among these all that the
walk records, nothing changes:

* `GraphRequest.twins_of_sufficient` -- the walks of one direction are twins;
* `traverse_sufficient` -- **over sufficient answers both strategies have the same outcome**.
-/

namespace DataLineage

/-! ## 1. Both strategies over sufficient answers -/

variable {t : Taxonomy} {g : MemoryGraph} {p : Policy} {req : LineageRequest} {c : Context}
  {answer : Script → Outcome (List Edge)} {requireBoth : Bool} {m : Nat} {direction : Direction}
  {inKey outKey : Key}

/-- There is a pattern for each direction of the request, if its number of hops can be written. -/
theorem GraphRequest.pattern_isOk (h : GraphRequest t g p req c) {n : Nat}
    (hn : req.depth.wholeNumber? = some (n : Int))
    (hlong : (if c.isDataset then n else n - 1) < Text.firstTooLong)
    (hd : direction ∈ c.direction.walks) :
    ∃ pattern, LineagePattern.make t c.guid direction c.depth c.isDataset = .ok pattern := by
  obtain ⟨_, _, hdepth, _, _, n', hn', hbudget⟩ := LineageRequest.context_ok h.admitted
  obtain rfl : n = n' := Int.ofNat.inj (Option.some.inj (hn.symm.trans hn'))
  refine LineagePattern.make_isOk ?_ hbudget (hdepth ▸ hn) hlong
  cases hc : c.direction <;> rw [hc] at hd <;> rintro rfl <;> revert hd <;> decide

/-- **The walks of one direction are twins**, if the answer has edges of the graph only, and every
edge that the walk over the graph records. -/
theorem GraphRequest.twins_of_sufficient (h : GraphRequest t g p req c) (hg : g.Seeded)
    (hname : ∀ e ∈ g.added.toList, e.HasName) (hm : c.hidesProcesses = false)
    (hi : t.labels.inputs.key = .ok inKey) (ho : t.labels.outputs.key = .ok outKey)
    {pattern : LineagePattern} {edges : List Edge}
    (hpattern : LineagePattern.make t c.guid direction c.depth c.isDataset = .ok pattern)
    (hanswer : answer pattern.script = .ok edges) (hsub : ∀ e ∈ edges, e ∈ g.added.toList)
    (hsup : ∀ e ∈ g.added.toList,
      (g.walkerWith answer t requireBoth m).Records c direction e → e ∈ edges) :
    ∃ l l' cost, (g.walkerWith answer t requireBoth m).Twins c m (g.HeaderAt c) direction
      ((g.walkerWith answer t requireBoth m).RecordsIn g c direction)
      (fun e => (g.walkerWith answer t requireBoth m).RecordsIn g c direction e ∧ e ∈ edges)
      l l' cost := by
  refine h.twins hg hname hm hi ho hpattern hanswer hsub fun S T hT hpart hmem => ?_
  have hover : (g.walkerWith answer t requireBoth m).Over (direction == .input) T :=
    ⟨hT.edges ▸ hg.built.shows answer, hT.into, hT.out⟩
  refine hpart.replays fun e he => (hmem e).mpr ?_
  obtain ⟨hedge, hrecords⟩ := (h.records_iff hg hm hname hover hT.edges e).mpr he
  exact hsup e hedge hrecords

/-- **Over sufficient answers both strategies have the same outcome**: where the database answers
the script of each direction by edges of the graph, in any order and as often as it likes, and among
them is every edge whose relation the walk over the graph records, both strategies exceed the vertex
budget, or both end with the same relations, the same headers of the same entities, and the same
guid, direction and depth. The number of hops must not be too long to be written into a script. -/
theorem traverse_sufficient {data : Value} (hseed : MemoryGraph.ofSeed t data = .ok g)
    (h : GraphRequest t g p req c) (hname : ∀ e ∈ g.added.toList, e.HasName)
    (hm : c.hidesProcesses = false) (hi : t.labels.inputs.key = .ok inKey)
    (ho : t.labels.outputs.key = .ok outKey) {n : Nat}
    (hn : req.depth.wholeNumber? = some (n : Int))
    (hlong : (if c.isDataset then n else n - 1) < Text.firstTooLong)
    {E : Direction → List Edge}
    (hanswer : ∀ d ∈ c.direction.walks, ∀ pattern,
      LineagePattern.make t c.guid d c.depth c.isDataset = .ok pattern →
        answer pattern.script = .ok (E d))
    (hsub : ∀ d ∈ c.direction.walks, ∀ e ∈ E d, e ∈ g.added.toList)
    (hsup : ∀ d ∈ c.direction.walks, ∀ e ∈ g.added.toList,
      (g.walkerWith answer t requireBoth m).Records c d e → e ∈ E d) :
    ((g.walkerWith answer t requireBoth m).traverse c = .error (Walker.tooMany m c.guid) ∧
      (g.walkerWith answer t requireBoth m).traverseAnswers c =
        .error (Walker.tooMany m c.guid)) ∨
      ∃ l l', (g.walkerWith answer t requireBoth m).traverse c = .ok l ∧
        (g.walkerWith answer t requireBoth m).traverseAnswers c = .ok l' ∧ l.Alike l' ∧
          ∀ x, l.hasRelation x = l'.hasRelation x := by
  have hg : g.Seeded := MemoryGraph.ofSeed_seeded hseed
  have htwins : ∀ d ∈ c.direction.walks, ∃ l l' cost,
      (g.walkerWith answer t requireBoth m).Twins c m (g.HeaderAt c) d
        ((g.walkerWith answer t requireBoth m).RecordsIn g c d)
        (fun e => (g.walkerWith answer t requireBoth m).RecordsIn g c d e ∧ e ∈ E d)
        l l' cost := by
    intro d hd
    obtain ⟨pattern, hpattern⟩ := h.pattern_isOk hn hlong hd
    exact h.twins_of_sufficient hg hname hm hi ho hpattern (hanswer d hd pattern hpattern)
      (hsub d hd) (hsup d hd)
  rcases Walker.traverse_twins hm rfl MemoryGraph.headerAt_once htwins with
    herror | ⟨l, l', hl, hl', halike, hflows, hflows'⟩
  · exact .inl herror
  · refine .inr ⟨l, l', hl, hl', halike, ?_⟩
    have hall (e : Edge) :
        (∃ d ∈ c.direction.walks, (g.walkerWith answer t requireBoth m).RecordsIn g c d e) ↔
          ∃ d ∈ c.direction.walks,
            (g.walkerWith answer t requireBoth m).RecordsIn g c d e ∧ e ∈ E d := by
      refine exists_congr fun d => and_congr_right fun hd => ?_
      exact ⟨fun he => ⟨he, hsup d hd e he.1 he.2⟩, And.left⟩
    intro x
    rw [Bool.eq_iff_iff, hflows.congr hall x, hflows' x]

/-! ## 2. Around the loop -/

namespace Loop

/-- The edges again and again, in the other order first. -/
def repeated : List Edge := edges.reverse ++ edges

end Loop

/-- Around the loop both strategies have the same outcome, however often the edges are answered. -/
theorem traverse_sufficient_loop :
    GraphRequest Loop.taxonomy Loop.graph Loop.policy Loop.request Loop.context ∧
    ((Loop.graph.walkerWith (fun _ => .ok Loop.repeated) Loop.taxonomy false 3).traverse
        Loop.context = .error (Walker.tooMany 3 (.text "y")) ∧
      (Loop.graph.walkerWith (fun _ => .ok Loop.repeated) Loop.taxonomy false 3).traverseAnswers
        Loop.context = .error (Walker.tooMany 3 (.text "y")) ∨
      ∃ l l', (Loop.graph.walkerWith (fun _ => .ok Loop.repeated) Loop.taxonomy false 3).traverse
          Loop.context = .ok l ∧
        (Loop.graph.walkerWith (fun _ => .ok Loop.repeated) Loop.taxonomy false 3).traverseAnswers
          Loop.context = .ok l' ∧ l.Alike l' ∧ ∀ x, l.hasRelation x = l'.hasRelation x) := by
  refine ⟨Loop.graphRequest, traverse_sufficient (E := fun _ => Loop.repeated) Loop.ofSeed_eq
    Loop.graphRequest (fun _ he => Loop.hasName he) rfl rfl rfl (n := 0) rfl
    (Nat.lt_of_lt_of_le (by decide) Text.pow_le_firstTooLong) ?_ ?_ ?_⟩
  · exact fun _ _ _ _ => rfl
  · intro d _ e he
    rcases List.mem_append.mp he with he | he
    · exact List.mem_reverse.mp he
    · exact he
  · exact fun d _ e he _ => List.mem_append_right _ he

end DataLineage
