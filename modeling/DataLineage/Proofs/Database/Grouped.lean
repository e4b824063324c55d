import DataLineage.Proofs.Database.Refused
import DataLineage.Proofs.Graph.Accepted

/-!
# Loads that send everything once

On the way into a database, relationships are regrouped by their types, and those without id are
given one. Nothing is lost and nothing is doubled on that way: what a load sends can be read off the
seed data, query by query.

* `Connection.Undisturbed`, `Session.Steady` -- sessions that only an answer of the database fails;
* `Seed.identified` -- the relationships with the ids under which they are sent;
* `Loader.relationshipQueries`, `Loader.buckets_eq` -- **one query for each type**, in the order in
  which the types are first seen, with the relationships of the type in order;
* `Loader.queries`, `Loader.plan_queries` -- all queries of a load, which are its plan;
* `Loader.loadAll_once` -- **a load sends every asset and every relationship once**.
-/

namespace DataLineage

/-! ## 1. Sessions that only an answer fails -/

/-- The database reports no failure, whatever is sent to it. -/
def Connection.Undisturbed (conn : Connection) : Prop :=
  ∀ n s kind report, conn.answers n s ≠ .error (.database kind report)

/-- The computation does not report a failure of the database. -/
def Outcome.Local {α : Type} (x : Outcome α) : Prop :=
  ∀ kind report, x ≠ .error (.database kind report)

namespace Outcome.Local

variable {α β : Type}

theorem ok (a : α) : Local (.ok a) := nofun

theorem bind {x : Outcome α} {f : α → Outcome β} (hx : Local x) (hf : ∀ a, Local (f a)) :
    Local (x >>= f) := by
  cases x with
  | error e => exact fun kind report h => hx kind report (congrArg _ (Except.error.inj h))
  | ok a => exact hf a

end Outcome.Local

/-- **The plain database never fails**, unless a failure is laid down. -/
theorem Connection.answer_local (c : Content) (s : Statement) : (answer c s).Local := by
  have hparameter (s : Script) (name : String) : (Statement.parameterOf s name).Local := by
    unfold Statement.parameterOf
    split <;> exact nofun
  have hmeant : s.meant.Local := by
    cases s with
    | script s =>
        show (Statement.ofScript s).Local
        unfold Statement.ofScript
        split
        · exact (hparameter s _).bind fun _ => .ok _
        split
        · exact (hparameter s _).bind fun _ => (hparameter s _).bind fun _ => .ok _
        split
        · exact (hparameter s _).bind fun _ => (hparameter s _).bind fun _ => .ok _
        · exact .ok _
    | _ => exact .ok _
  refine hmeant.bind fun meant => ?_
  cases meant with
  | findNode id => cases hn : c.findNode id <;> simp [hn, Outcome.Local, pure, Except.pure]
  | script s =>
      show (answerScript c s).Local
      unfold answerScript
      split
      · exact (hparameter s _).bind fun _ => .ok _
      · exact .ok _
  | _ => exact .ok _

namespace Session

variable {α β : Type}

/-- **Only an answer of the database fails the session with one of its failures**: over an undisturbed
connection there is none, and the connection stays undisturbed. -/
def Steady (x : Session α) : Prop :=
  ∀ conn : Connection, conn.Undisturbed →
    Outcome.Local (x.run.run conn).1 ∧ (x.run.run conn).2.Undisturbed

namespace Steady

theorem pure (a : α) : Steady (pure a) := fun _ h => ⟨.ok a, h⟩

theorem ofExcept {x : Outcome α} (hx : x.Local) : Steady (MonadExcept.ofExcept x) := by
  intro conn h
  rw [ofExcept_run]
  exact ⟨hx, h⟩

theorem bind {x : Session α} {f : α → Session β} (hx : Steady x) (hf : ∀ a, Steady (f a)) :
    Steady (x >>= f) := by
  intro conn h
  obtain ⟨hlocal, hconn⟩ := hx conn h
  rcases hrun : x.run.run conn with ⟨result, conn₁⟩
  rw [hrun] at hlocal hconn
  cases result with
  | error e =>
      rw [bind_of_error hrun]
      exact ⟨fun kind report he => hlocal kind report (congrArg _ (Except.error.inj he)), hconn⟩
  | ok a =>
      rw [bind_of_ok hrun]
      exact hf a conn₁ hconn

theorem note (level : LogLevel) (text : String) : Steady (note level text) :=
  fun _ h => ⟨.ok (), h⟩

theorem freshId : Steady freshId := fun _ h => ⟨.ok _, h⟩

theorem perform (s : Statement) : Steady (perform s) := by
  intro conn h
  rw [perform_run]
  exact ⟨h _ _, h⟩

theorem forM {l : List β} {f : β → Session Unit} (h : ∀ b, Steady (f b)) : Steady (l.forM f) := by
  induction l with
  | nil => exact .pure ()
  | cons b rest ih => exact (h b).bind fun _ => ih

theorem foldlM {l : List β} {f : α → β → Session α} (h : ∀ a b, Steady (f a b)) (a : α) :
    Steady (l.foldlM f a) := by
  induction l generalizing a with
  | nil => exact .pure a
  | cons b rest ih => exact (h a b).bind ih

end Steady

end Session

namespace Loader

theorem isSafePart_local (part : Value) : (isSafePart part).Local := by
  unfold isSafePart
  split <;> exact nofun

theorem allSafe_local (parts : List Value) : (allSafe parts).Local := by
  induction parts with
  | nil => exact .ok true
  | cons part rest ih =>
      refine (isSafePart_local part).bind fun safe => ?_
      cases safe with
      | false => exact .ok false
      | true => exact ih

theorem safeIdentifier_local (name : Value) : (safeIdentifier name).Local := by
  unfold safeIdentifier
  split
  · have helements : name.elements.Local := by
      unfold Value.elements
      split <;> exact nofun
    refine helements.bind fun parts => (allSafe_local parts).bind fun safe => ?_
    cases safe <;> exact nofun
  · exact nofun

theorem quoteRelationshipType_local (label : Scalar) :
    (quoteRelationshipType (.scalar label)).Local := by
  unfold quoteRelationshipType
  split
  · exact nofun
  · have hinside : ((Value.text "\x60").isElementOf (.scalar label)).Local := by
      cases label <;> exact nofun
    refine hinside.bind fun inside => ?_
    cases inside <;> exact nofun

theorem addToBucket_steady (bs : List Bucket) (r : SeedRelationship) :
    (addToBucket bs r).Steady := by
  have hlabel : r.label.identifier.Local := by
    cases r.label <;> exact nofun
  refine (Session.Steady.ofExcept hlabel).bind fun label => ?_
  cases r.id.truth with
  | false => exact (Session.Steady.freshId.bind fun _ => .pure _).bind fun _ => .pure _
  | true => exact (Session.Steady.pure _).bind fun _ => .pure _

/-- **Only an answer of the database fails a load** with one of its failures. -/
theorem load_steady (seed : Seed) (clearFirst constraints : Bool) :
    (load seed clearFirst constraints).Steady := by
  have hclear : clear.Steady :=
    (Session.Steady.note _ _).bind fun _ => (Session.Steady.perform _).bind
      fun _ => .pure ()
  have hconstraints (names : List Value) : (createConstraints names).Steady :=
    .forM fun name => (Session.Steady.ofExcept (safeIdentifier_local name)).bind fun _ =>
      (Session.Steady.perform _).bind fun _ => .pure ()
  have hnodes (assets : Record) : (createNodes assets).Steady := by
    refine .forM fun (typeName, rows) => ?_
    dsimp only
    split
    · refine (Session.Steady.ofExcept (safeIdentifier_local _)).bind fun _ => ?_
      refine (Session.Steady.perform _).bind fun _ => ?_
      have hcount : (memberCount rows).Local := by
        cases rows with
        | scalar s => cases s <;> exact nofun
        | _ => exact nofun
      exact (Session.Steady.ofExcept hcount).bind fun _ => .note _ _
    · exact .pure ()
  have hrelationships (rs : List SeedRelationship) : (createRelationships rs).Steady := by
    refine (Session.Steady.foldlM addToBucket_steady []).bind fun bs => .forM fun b => ?_
    refine (Session.Steady.ofExcept (quoteRelationshipType_local b.label)).bind fun _ => ?_
    exact (Session.Steady.perform _).bind fun _ => .note _ _
  have hrest : Session.Steady (do
      createNodes (assetRows seed)
      createRelationships seed.relationships
      Session.note .info
        ("Graph load complete: " ++ toString seed.assets.length ++ " types, " ++
          toString seed.relationships.length ++ " relationships")) :=
    (hnodes _).bind fun _ => (hrelationships _).bind fun _ => .note _ _
  unfold load
  cases clearFirst <;> cases constraints
  · exact hrest
  · exact (hconstraints _).bind fun _ => hrest
  · exact hclear.bind fun _ => hrest
  · exact hclear.bind fun _ => (hconstraints _).bind fun _ => hrest

end Loader

/-! ## 2. Relationships with ids -/

/-- **The relationships with the ids under which they are sent**: their own ones, or in the place of
each that counts as false the next one of a supply of which `n` were issued before. -/
def Seed.identified (fresh : Nat → String) (n : Nat) : List SeedRelationship → List SeedRelationship
  | [] => []
  | r :: rest =>
    if r.id.truth then r :: identified fresh n rest
    else { r with id := .text (fresh (n + 1)) } :: identified fresh (n + 1) rest

namespace Seed

variable {fresh : Nat → String} {n : Nat} {rs : List SeedRelationship}

/-- Apart from the ids, the relationships are what they were. -/
theorem map_identified {β : Type} (f : SeedRelationship → β)
    (hf : ∀ r id, f { r with id := id } = f r) : (identified fresh n rs).map f = rs.map f := by
  induction rs generalizing n with
  | nil => rfl
  | cons r rest ih =>
      unfold identified
      split
      · rw [List.map_cons, List.map_cons, ih]
      · rw [List.map_cons, List.map_cons, ih, hf]

/-- Every relationship is sent under an id of its own or under one that is issued now. -/
theorem mem_identified {r' : SeedRelationship} (h : r' ∈ identified fresh n rs) :
    (r' ∈ rs ∧ r'.id.truth = true) ∨ ∃ m, n < m ∧ r'.id = .text (fresh m) := by
  induction rs generalizing n with
  | nil => exact absurd h List.not_mem_nil
  | cons r rest ih =>
      unfold identified at h
      split at h
      · rename_i hown
        rcases List.mem_cons.mp h with rfl | h
        · exact .inl ⟨List.mem_cons_self, hown⟩
        · exact (ih h).imp_left fun ⟨hr, ht⟩ => ⟨List.mem_cons_of_mem _ hr, ht⟩
      · rcases List.mem_cons.mp h with rfl | h
        · exact .inr ⟨n + 1, Nat.lt_succ_self n, rfl⟩
        · exact (ih h).imp (fun ⟨hr, ht⟩ => ⟨List.mem_cons_of_mem _ hr, ht⟩)
            fun ⟨m, hm, hid⟩ => ⟨m, Nat.lt_of_succ_lt hm, hid⟩

theorem identified_scalar (hscalar : ∀ r ∈ rs, ∃ s, r.id = .scalar s) {r' : SeedRelationship}
    (h : r' ∈ identified fresh n rs) : ∃ s, r'.id = .scalar s := by
  rcases mem_identified h with ⟨hr, _⟩ | ⟨m, _, hid⟩
  · exact hscalar r' hr
  · exact ⟨_, hid⟩

/-- **The ids under which relationships are sent differ from each other**, where their own ones do,
and those that are issued differ from each other and from these. -/
theorem identified_nodup (hsupply : Function.Injective fresh)
    (hdistinct : rs.Pairwise fun a b => IdsDiffer a.id b.id)
    (hscalar : ∀ r ∈ rs, ∃ s, r.id = .scalar s)
    (hfresh : ∀ r ∈ rs, ∀ m, n < m → r.id.same (.text (fresh m)) = false) :
    ((identified fresh n rs).map fun r => r.id.key).Nodup := by
  induction rs generalizing n with
  | nil => exact .nil
  | cons r rest ih =>
      obtain ⟨hother, hrest⟩ := List.pairwise_cons.mp hdistinct
      have hscalar' : ∀ r ∈ rest, ∃ s, r.id = .scalar s :=
        fun r hr => hscalar r (List.mem_cons_of_mem _ hr)
      have hnew (r' : SeedRelationship) (hr' : r' ∈ r :: rest) (m : Nat) (hm : n < m) :
          r'.id.key ≠ .ok (Key.text (fresh m)) := by
        intro hkey
        have hsame := (Value.same_iff_key r'.id (.text (fresh m))).mpr hkey
        exact Bool.noConfusion ((hfresh r' hr' m hm).symm.trans hsame)
      unfold identified
      split
      · rename_i hown
        refine List.nodup_cons.mpr ⟨fun hmem => ?_, ih hrest hscalar'
          fun r hr => hfresh r (List.mem_cons_of_mem _ hr)⟩
        obtain ⟨r', hr', hkey : r'.id.key = r.id.key⟩ := List.mem_map.mp hmem
        rcases mem_identified hr' with ⟨hr', _⟩ | ⟨m, hm, hid⟩
        · -- two relationships with ids of their own
          obtain ⟨s, hs⟩ := hscalar r List.mem_cons_self
          obtain ⟨u, hu⟩ := hscalar' r' hr'
          have hnull : s ≠ .null := by
            rintro rfl
            rw [hs] at hown
            cases hown
          rw [hs, hu] at hkey
          exact hother r' hr' s u hs hu hnull (Except.ok.inj hkey).symm
        · rw [hid] at hkey
          exact hnew r List.mem_cons_self m hm hkey.symm
      · refine List.nodup_cons.mpr ⟨fun hmem => ?_, ih hrest hscalar' fun r hr m hm =>
          hfresh r (List.mem_cons_of_mem _ hr) m (Nat.lt_of_succ_lt hm)⟩
        obtain ⟨r', hr', hkey⟩ := List.mem_map.mp hmem
        rcases mem_identified hr' with ⟨hr', _⟩ | ⟨m, hm, hid⟩
        · exact hnew r' (List.mem_cons_of_mem _ hr') (n + 1) (Nat.lt_succ_self n) hkey
        · -- two ids that are issued one after the other
          rw [hid] at hkey
          have hissued : fresh m = fresh (n + 1) := Key.text.inj (Except.ok.inj hkey)
          exact Nat.ne_of_gt hm (hsupply hissued)

end Seed

/-! ## 3. One query for each type -/

/-- What comes last is a first occurrence when it does not occur before. -/
theorem eraseDups_append_singleton {α : Type} [BEq α] [LawfulBEq α] [DecidableEq α] (l : List α)
    (a : α) : (l ++ [a]).eraseDups = if a ∈ l then l.eraseDups else l.eraseDups ++ [a] := by
  rw [List.eraseDups_append]
  by_cases h : a ∈ l
  · have hrest : [a].removeAll l = [] := by simp [List.removeAll, h]
    rw [hrest, if_pos h, List.eraseDups_nil, List.append_nil]
  · have hrest : [a].removeAll l = [a] := by simp [List.removeAll, h]
    rw [hrest, if_neg h, List.eraseDups_cons]
    rfl

theorem nodup_eraseDups {α : Type} [BEq α] [LawfulBEq α] [DecidableEq α] (l : List α) :
    l.eraseDups.Nodup := by
  induction l using List.reverseRecOn with
  | nil => exact .nil
  | append_singleton l a ih =>
      rw [eraseDups_append_singleton]
      split
      · exact ih
      · rename_i hnew
        exact ih.append (List.nodup_singleton a)
          (List.disjoint_singleton.mpr fun h => hnew (List.mem_eraseDups.mp h))

namespace Loader

/-- The types of relationships, each in the place where it is first seen. -/
def typesOf (rs : List SeedRelationship) : List String :=
  (rs.map fun r => r.label.display).eraseDups

/-- The rows of the relationships of a type, in order. -/
def rowsOfType (rs : List SeedRelationship) (type : String) : List Record :=
  (rs.filter fun r => r.label.same (.text type)).map rowOf

/-- A row of a type that has a bucket comes last in that bucket; any other type gets a bucket. -/
theorem addRow_types {types : List String} (hnodup : types.Nodup) (rows : String → List Record)
    (type : String) (row : Record) :
    addRow (types.map fun u => ⟨.text u, rows u⟩) (.text type) row =
      if type ∈ types then
        types.map fun u => ⟨.text u, rows u ++ if type = u then [row] else []⟩
      else types.map (fun u => ⟨.text u, rows u⟩) ++ [⟨.text type, [row]⟩] := by
  induction types with
  | nil => rfl
  | cons u rest ih =>
      obtain ⟨hu, hrest⟩ := List.nodup_cons.mp hnodup
      rw [List.map_cons, addRow]
      by_cases hsame : type = u
      · subst hsame
        have hothers : rest.map (fun u => (⟨.text u, rows u⟩ : Bucket)) =
            rest.map fun u => ⟨.text u, rows u ++ if type = u then [row] else []⟩ := by
          refine List.map_congr_left fun u hmem => ?_
          have hne : type ≠ u := fun h => hu (h ▸ hmem)
          rw [if_neg hne, List.append_nil]
        rw [if_pos rfl, if_pos List.mem_cons_self, List.map_cons, if_pos rfl, hothers]
      · have hkey : ¬(Scalar.text u).key = (Scalar.text type).key :=
          fun h => hsame (Key.text.inj h).symm
        rw [if_neg hkey, ih hrest]
        by_cases hmem : type ∈ rest
        · rw [if_pos hmem, if_pos (List.mem_cons_of_mem _ hmem), List.map_cons, if_neg hsame,
            List.append_nil]
        · have hnone : type ∉ u :: rest := fun h => (List.mem_cons.mp h).elim hsame hmem
          rw [if_neg hmem, if_neg hnone]
          rfl

variable {rs : List SeedRelationship}

theorem typesOf_nodup (rs : List SeedRelationship) : (typesOf rs).Nodup := nodup_eraseDups _

theorem typesOf_append (rs : List SeedRelationship) {r : SeedRelationship} {type : String}
    (h : r.label = .text type) : typesOf (rs ++ [r]) =
      if type ∈ typesOf rs then typesOf rs else typesOf rs ++ [type] := by
  have hmem : type ∈ typesOf rs ↔ type ∈ rs.map fun r => r.label.display := List.mem_eraseDups
  unfold typesOf at hmem ⊢
  rw [List.map_append, List.map_singleton, h, Value.display_text, eraseDups_append_singleton]
  simp only [hmem]

theorem rowsOfType_append (rs : List SeedRelationship) {r : SeedRelationship} {type : String}
    (h : r.label = .text type) (u : String) :
    rowsOfType (rs ++ [r]) u = rowsOfType rs u ++ if type = u then [rowOf r] else [] := by
  have hsame : r.label.same (.text u) = decide (type = u) := by
    rw [h, Bool.eq_iff_iff, Value.same_scalar_iff, decide_eq_true_iff]
    exact ⟨Key.text.inj, congrArg Key.text⟩
  unfold rowsOfType
  rw [List.filter_append, List.map_append, List.filter_singleton, hsame]
  by_cases hu : type = u <;> simp [hu]

/-- Only types that are seen have rows. -/
theorem rowsOfType_eq_nil (hrs : ∀ r ∈ rs, ∃ s, r.label = .text s) {type : String}
    (h : type ∉ typesOf rs) : rowsOfType rs type = [] := by
  refine List.map_eq_nil_iff.mpr (List.filter_eq_nil_iff.mpr fun r hr hsame => ?_)
  obtain ⟨s, hs⟩ := hrs r hr
  rw [hs, Value.same_scalar_iff] at hsame
  refine h (List.mem_eraseDups.mpr (List.mem_map.mpr ⟨r, hr, ?_⟩))
  rw [hs, Value.display_text]
  exact Key.text.inj hsame

theorem buckets_append (rs : List SeedRelationship) {r : SeedRelationship} {type : String}
    (h : r.label = .text type) :
    buckets (rs ++ [r]) = addRow (buckets rs) (.text type) (rowOf r) := by
  unfold buckets
  rw [List.foldl_append, List.foldl_cons, List.foldl_nil, enter, h]

/-- **The buckets are the types in the order in which they are first seen**, each with the rows of
its relationships in order. -/
theorem buckets_eq (hrs : ∀ r ∈ rs, ∃ s, r.label = .text s) :
    buckets rs = (typesOf rs).map fun type => ⟨.text type, rowsOfType rs type⟩ := by
  -- relationships come last into their buckets, so the induction takes them from the end
  induction rs using List.reverseRecOn with
  | nil => rfl
  | append_singleton rs r ih =>
      have hrs' : ∀ r ∈ rs, ∃ s, r.label = .text s := fun r hr => hrs r (List.mem_append_left _ hr)
      obtain ⟨type, htype⟩ := hrs r (List.mem_append_right _ (List.mem_singleton_self r))
      rw [buckets_append rs htype, ih hrs', addRow_types (typesOf_nodup rs),
        typesOf_append rs htype]
      simp only [rowsOfType_append rs htype]
      by_cases hmem : type ∈ typesOf rs
      · rw [if_pos hmem, if_pos hmem]
      · have hothers : (typesOf rs).map (fun u => (⟨.text u, rowsOfType rs u⟩ : Bucket)) =
            (typesOf rs).map fun u =>
              ⟨.text u, rowsOfType rs u ++ if type = u then [rowOf r] else []⟩ := by
          refine List.map_congr_left fun u hu => ?_
          have hne : type ≠ u := fun h => hmem (h ▸ hu)
          rw [if_neg hne, List.append_nil]
        rw [if_neg hmem, if_neg hmem, List.map_append, List.map_singleton, hothers, if_pos rfl,
          rowsOfType_eq_nil hrs' hmem, List.nil_append]

/-- **No row is lost in a bucket and none is doubled.** -/
theorem addRow_rows (bs : List Bucket) (label : Scalar) (row : Record) :
    ((addRow bs label row).flatMap (·.rows)).Perm (bs.flatMap (·.rows) ++ [row]) := by
  induction bs with
  | nil => exact .refl _
  | cons b rest ih =>
      unfold addRow
      split
      · rw [List.flatMap_cons, List.flatMap_cons, List.append_assoc, List.append_assoc]
        exact List.perm_append_comm.append_left _
      · rw [List.flatMap_cons, List.flatMap_cons, List.append_assoc]
        exact ih.append_left _

/-- **The rows in all buckets are those of all relationships.** -/
theorem buckets_rows (hrs : ∀ r ∈ rs, ∃ s, r.label = .text s) :
    ((buckets rs).flatMap (·.rows)).Perm (rs.map rowOf) := by
  induction rs using List.reverseRecOn with
  | nil => exact .refl _
  | append_singleton rs r ih =>
      obtain ⟨type, htype⟩ := hrs r (List.mem_append_right _ (List.mem_singleton_self r))
      rw [buckets_append rs htype, List.map_append, List.map_singleton]
      exact (addRow_rows _ _ _).trans
        ((ih fun r hr => hrs r (List.mem_append_left _ hr)).append_right _)

/-! ## 4. The queries of a load -/

/-- The queries that merge relationships: one for each type, with all rows of the type. -/
def relationshipQueries (fresh : Nat → String) (rs : List SeedRelationship) (n : Nat) :
    List Statement :=
  (typesOf rs).map fun type =>
    .mergeRelationships ("\x60" ++ type ++ "\x60") (rowsOfType (Seed.identified fresh n rs) type)

/-- **The queries of a load**, where `n` ids of a supply were issued before. -/
def queries (seed : Seed) (fresh : Nat → String) (n : Nat) (clearFirst constraints : Bool) :
    List Statement :=
  (if clearFirst then [.clear] else []) ++
    ((if constraints then constraintStatements seed else []) ++
      (nodeStatements seed ++ relationshipQueries fresh seed.relationships n))

/-- A relationship is put into its bucket under its own id, or under the next one. -/
theorem numbered_eq {r : SeedRelationship} {type : String} (h : r.label = .text type)
    (fresh : Nat → String) (bs : List Bucket) (n : Nat) : numbered fresh (bs, n) r =
      if r.id.truth then .ok (enter bs r, n)
      else .ok (enter bs { r with id := .text (fresh (n + 1)) }, n + 1) := by
  unfold numbered enter
  rw [h]
  cases r.id.truth <;> rfl

/-- Relationships are numbered one after the other. -/
theorem numbered_fold (hrs : ∀ r ∈ rs, ∃ s, r.label = .text s) (fresh : Nat → String)
    (bs : List Bucket) (n : Nat) : ∃ m, rs.foldlM (numbered fresh) (bs, n) =
      .ok ((Seed.identified fresh n rs).foldl enter bs, m) := by
  induction rs generalizing bs n with
  | nil => exact ⟨n, rfl⟩
  | cons r rest ih =>
      obtain ⟨type, htype⟩ := hrs r List.mem_cons_self
      have hrest := ih fun r hr => hrs r (List.mem_cons_of_mem _ hr)
      have hstep := numbered_eq htype fresh bs n
      unfold Seed.identified
      split
      · rename_i hown
        rw [if_pos hown] at hstep
        obtain ⟨m, hm⟩ := hrest (enter bs r) n
        exact ⟨m, Outcome.bind_eq_ok.mpr ⟨_, hstep, hm⟩⟩
      · rename_i hnone
        rw [if_neg hnone] at hstep
        obtain ⟨m, hm⟩ := hrest (enter bs { r with id := .text (fresh (n + 1)) }) (n + 1)
        exact ⟨m, Outcome.bind_eq_ok.mpr ⟨_, hstep, hm⟩⟩

/-- The types of the relationships are the same with the new ids. -/
theorem identified_labels (hrs : ∀ r ∈ rs, ∃ s, r.label = .text s) (fresh : Nat → String)
    (n : Nat) : (∀ r ∈ Seed.identified fresh n rs, ∃ s, r.label = .text s) ∧
      typesOf (Seed.identified fresh n rs) = typesOf rs := by
  refine ⟨fun r hr => ?_,
    congrArg List.eraseDups (Seed.map_identified (·.label.display) fun _ _ => rfl)⟩
  have hmem := List.mem_map_of_mem (f := SeedRelationship.label) hr
  rw [Seed.map_identified SeedRelationship.label fun _ _ => rfl] at hmem
  obtain ⟨r', hr', hl⟩ := List.mem_map.mp hmem
  obtain ⟨s, hs⟩ := hrs r' hr'
  exact ⟨s, hl ▸ hs⟩

theorem relationshipPlan_queries (hrs : ∀ r ∈ rs, ∃ s, r.label = .text s)
    (hquote : ∀ r ∈ rs, ∃ q, quoteRelationshipType r.label = .ok q)
    (fresh : Nat → String) (n : Nat) :
    relationshipPlan fresh rs n = (relationshipQueries fresh rs n).map .ok := by
  obtain ⟨m, hfold⟩ := numbered_fold hrs fresh [] n
  obtain ⟨hlabels, htypes⟩ := identified_labels hrs fresh n
  have hbuckets : (Seed.identified fresh n rs).foldl enter [] = (typesOf rs).map fun type =>
      ⟨.text type, rowsOfType (Seed.identified fresh n rs) type⟩ := by
    rw [← htypes]
    exact buckets_eq hlabels
  unfold relationshipPlan relationshipQueries
  rw [hfold]
  dsimp only
  rw [hbuckets, List.map_map, List.map_map]
  refine List.map_congr_left fun type hmem => ?_
  obtain ⟨r, hr, htype⟩ := List.mem_map.mp (List.mem_eraseDups.mp hmem)
  obtain ⟨s, hs⟩ := hrs r hr
  obtain ⟨q, hq⟩ := hquote r hr
  rw [hs, Value.display_text] at htype
  subst htype
  rw [hs] at hq
  have hquoted := quote_eq hq
  show (quoteRelationshipType (.text s)).map _ = _
  rw [hq, hquoted]
  rfl

/-- A safe name stands in statements as it is. -/
theorem safe_eq {name : Scalar} {v : Value} (h : safeIdentifier (.scalar name) = .ok v) :
    v = .scalar name := by
  obtain ⟨s, rfl⟩ := safe_text h
  rw [safeIdentifier_text] at h
  split at h
  · exact (Except.ok.inj h).symm
  · cases h

/-- **The plan of a load of safe names is made of its queries.** -/
theorem plan_queries {seed : Seed} (h : seed.Nameable)
    (hrs : ∀ r ∈ seed.relationships, ∃ s, r.label = .text s) (fresh : Nat → String) (n : Nat)
    (clearFirst constraints : Bool) : plan seed fresh n clearFirst constraints =
      (queries seed fresh n clearFirst constraints).map .ok := by
  have hnaming (a : Scalar × List Record) (ha : a ∈ seed.assets) (s : String → Statement) :
      naming a.1 s = .ok (s (Value.scalar a.1).display) := by
    obtain ⟨label, hlabel⟩ := h.types a ha
    rw [naming_of_ok hlabel, safe_eq hlabel]
  have hconstraints : constraintPlan seed = (constraintStatements seed).map .ok := by
    unfold constraintPlan constraintStatements
    rw [← List.map_eq_flatMap, List.map_map]
    exact List.map_congr_left fun a ha => hnaming a ha _
  have hnodes : nodePlan seed = (nodeStatements seed).map .ok := by
    unfold nodePlan nodeStatements
    generalize seed.assets = assets at hnaming
    induction assets with
    | nil => rfl
    | cons a rest ih =>
        have hrest := ih fun a ha => hnaming a (List.mem_cons_of_mem _ ha)
        rw [List.flatMap_cons, List.map_append, ← hrest, List.filter_cons]
        cases a.2.isEmpty with
        | true => rfl
        | false => exact congrArg (· :: _) (hnaming a List.mem_cons_self _)
  unfold plan queries
  rw [hconstraints, hnodes, relationshipPlan_queries hrs h.labels]
  simp only [List.map_append]
  cases clearFirst <;> cases constraints <;> rfl

end Loader

/-! ## 5. Everything is sent once -/

namespace Statement

/-- The rows that a query merges as nodes. -/
def nodeRows : Statement → List Value
  | mergeNodes _ (.list rows) => rows
  | _ => []

/-- The rows that a query merges as relationships. -/
def relationshipRows : Statement → List Record
  | mergeRelationships _ rows => rows
  | _ => []

/-- The query merges nodes. -/
def MergesNodes : Statement → Prop
  | mergeNodes .. => True
  | _ => False

/-- The query merges relationships. -/
def MergesRelationships : Statement → Prop
  | mergeRelationships .. => True
  | _ => False

end Statement

namespace Loader

variable {seed : Seed} {fresh : Nat → String} {n : Nat} {clearFirst constraints : Bool}

/-- The queries of a load that come before those for relationships. -/
def earlyQueries (seed : Seed) (clearFirst constraints : Bool) : List Statement :=
  (if clearFirst then [.clear] else []) ++
    ((if constraints then constraintStatements seed else []) ++ nodeStatements seed)

theorem queries_eq (seed : Seed) (fresh : Nat → String) (n : Nat)
    (clearFirst constraints : Bool) : queries seed fresh n clearFirst constraints =
      earlyQueries seed clearFirst constraints ++
        relationshipQueries fresh seed.relationships n := by
  unfold queries earlyQueries
  rw [List.append_assoc, List.append_assoc]

/-- Queries that come early clear the database, make ids unique or merge nodes. -/
theorem mem_earlyQueries {q : Statement} (h : q ∈ earlyQueries seed clearFirst constraints) :
    q = .clear ∨ (∃ label, q = .uniqueId label) ∨ ∃ label rows, q = .mergeNodes label rows := by
  rcases List.mem_append.mp h with h | h
  · cases clearFirst with
    | false => exact absurd h List.not_mem_nil
    | true => exact .inl (List.mem_singleton.mp h)
  rcases List.mem_append.mp h with h | h
  · cases constraints with
    | false => exact absurd h List.not_mem_nil
    | true =>
        obtain ⟨a, _, h⟩ := List.mem_flatMap.mp h
        exact .inr (.inl ⟨_, List.mem_singleton.mp h⟩)
  · obtain ⟨a, _, h⟩ := List.mem_flatMap.mp h
    split at h
    · exact absurd h List.not_mem_nil
    · exact .inr (.inr ⟨_, _, List.mem_singleton.mp h⟩)

theorem mem_relationshipQueries {rs : List SeedRelationship} {q : Statement}
    (h : q ∈ relationshipQueries fresh rs n) : ∃ type rows, q = .mergeRelationships type rows := by
  obtain ⟨type, _, rfl⟩ := List.mem_map.mp h
  exact ⟨_, _, rfl⟩

/-- **No node is merged after a relationship.** -/
theorem queries_ordered (seed : Seed) (fresh : Nat → String) (n : Nat)
    (clearFirst constraints : Bool) :
    (queries seed fresh n clearFirst constraints).Pairwise fun a b =>
      ¬(a.MergesRelationships ∧ b.MergesNodes) := by
  have hearly : ∀ q ∈ earlyQueries seed clearFirst constraints, ¬q.MergesRelationships := by
    intro q hq
    rcases mem_earlyQueries hq with rfl | ⟨_, rfl⟩ | ⟨_, _, rfl⟩ <;> exact id
  have hlate : ∀ q ∈ relationshipQueries fresh seed.relationships n, ¬q.MergesNodes := by
    intro q hq
    obtain ⟨_, _, rfl⟩ := mem_relationshipQueries hq
    exact id
  rw [queries_eq]
  refine List.pairwise_append.mpr ⟨?_, ?_, fun a ha _ _ h => hearly a ha h.1⟩
  · exact List.pairwise_of_forall_mem_list fun a ha _ _ h => hearly a ha h.1
  · exact List.pairwise_of_forall_mem_list fun _ _ b hb h => hlate b hb h.2

/-- **Every asset is in one row**, and the rows come in the order of the seed data. -/
theorem queries_nodeRows (seed : Seed) (fresh : Nat → String) (n : Nat)
    (clearFirst constraints : Bool) :
    (queries seed fresh n clearFirst constraints).flatMap Statement.nodeRows =
      seed.rows.map fun row => .record row.2 := by
  have hconstraints : (if constraints then constraintStatements seed else []).flatMap
      Statement.nodeRows = [] := by
    cases constraints with
    | false => rfl
    | true =>
        refine List.flatMap_eq_nil_iff.mpr fun q hq => ?_
        obtain ⟨a, _, hq⟩ := List.mem_flatMap.mp hq
        rw [List.mem_singleton.mp hq]
        rfl
  have hnodes : (nodeStatements seed).flatMap Statement.nodeRows =
      seed.rows.map fun row => .record row.2 := by
    unfold nodeStatements Seed.rows Seed.rowsOf
    rw [List.flatMap_assoc, List.map_flatMap]
    refine congrArg (List.flatMap · seed.assets) (funext fun a => ?_)
    obtain ⟨name, records⟩ := a
    rw [List.map_map]
    cases records with
    | nil => rfl
    | cons r rest => exact List.append_nil _
  have hrelationships :
      (relationshipQueries fresh seed.relationships n).flatMap Statement.nodeRows = [] := by
    refine List.flatMap_eq_nil_iff.mpr fun q hq => ?_
    obtain ⟨_, _, rfl⟩ := mem_relationshipQueries hq
    rfl
  unfold queries
  rw [List.flatMap_append, List.flatMap_append, List.flatMap_append, hconstraints, hnodes,
    hrelationships, List.append_nil, List.nil_append]
  cases clearFirst <;> rfl

/-- **Every relationship is in one row**, under its id or a new one. -/
theorem queries_relationshipRows (hrs : ∀ r ∈ seed.relationships, ∃ s, r.label = .text s) :
    ((queries seed fresh n clearFirst constraints).flatMap Statement.relationshipRows).Perm
      ((Seed.identified fresh n seed.relationships).map rowOf) := by
  have hearly : (earlyQueries seed clearFirst constraints).flatMap Statement.relationshipRows =
      [] := by
    refine List.flatMap_eq_nil_iff.mpr fun q hq => ?_
    rcases mem_earlyQueries hq with rfl | ⟨_, rfl⟩ | ⟨_, _, rfl⟩ <;> rfl
  obtain ⟨hlabels, htypes⟩ := identified_labels hrs fresh n
  have hlate :
      (relationshipQueries fresh seed.relationships n).flatMap Statement.relationshipRows =
      (buckets (Seed.identified fresh n seed.relationships)).flatMap (·.rows) := by
    unfold relationshipQueries
    rw [buckets_eq hlabels, htypes, List.flatMap_map, List.flatMap_map]
    rfl
  rw [queries_eq, List.flatMap_append, hearly, hlate]
  exact buckets_rows hlabels

/-- **A load sends the queries one after the other**: all of them where nothing disturbs it, and
otherwise the first ones. -/
theorem load_sends (h : seed.Nameable) (hrs : ∀ r ∈ seed.relationships, ∃ s, r.label = .text s)
    (clearFirst constraints : Bool) (conn : Connection) :
    ∃ result conn' sent, (load seed clearFirst constraints).run.run conn = (result, conn') ∧
      conn'.sent.toList = conn.sent.toList ++ sent.map (⟨·, conn.database⟩) ∧
      sent <+: queries seed conn.freshIds conn.issuedIds clearFirst constraints ∧
      (conn.Undisturbed → result = .ok () ∧
        sent = queries seed conn.freshIds conn.issuedIds clearFirst constraints) := by
  obtain ⟨_, result, conn', sent, hload, hcourse, hsent, _, _⟩ :=
    load_follows seed clearFirst constraints conn
  rw [plan_queries h hrs] at hcourse
  refine ⟨result, conn', sent, hload, hsent, ?_⟩
  have hok : Function.Injective (List.map (Except.ok : Statement → Outcome Statement)) :=
    List.map_injective_iff.mpr fun _ _ => Except.ok.inj
  cases hcourse with
  | through hall =>
      obtain rfl := hok hall
      exact ⟨List.prefix_rfl, fun _ => ⟨rfl, rfl⟩⟩
  | refused reached =>
      -- no step of the plan is a fault
      have hfault := reached ▸ List.mem_append_right (sent.map Except.ok) List.mem_cons_self
      obtain ⟨_, _, hfault⟩ := List.mem_map.mp hfault
      cases hfault
  | @failed kind report rest reached =>
      refine ⟨?_, fun hundisturbed => ?_⟩
      · obtain ⟨before, after, hall, hbefore, _⟩ := List.map_eq_append_iff.mp reached
        obtain rfl := hok hbefore
        exact ⟨after, hall.symm⟩
      · have hsteady := (load_steady seed clearFirst constraints conn hundisturbed).1
        rw [hload] at hsteady
        exact absurd rfl (hsteady kind report)

/-- **No two relationships are merged under one id**, if no id is issued twice and the seed data has
none that is issued. -/
theorem queries_ids_differ (hsupply : Function.Injective fresh)
    (hrs : ∀ r ∈ seed.relationships, ∃ s, r.label = .text s)
    (hscalar : ∀ r ∈ seed.relationships, ∃ s, r.id = .scalar s)
    (hdistinct : seed.relationships.Pairwise fun a b => Seed.IdsDiffer a.id b.id)
    (hfresh : ∀ r ∈ seed.relationships, ∀ m, n < m →
      r.id.same (.text (fresh m)) = false) :
    ((queries seed fresh n clearFirst constraints).flatMap Statement.relationshipRows).Pairwise
      fun a b =>
        (Record.get a "relationship_id").same (Record.get b "relationship_id") = false := by
  have hperm : ((queries seed fresh n clearFirst constraints).flatMap Statement.relationshipRows).Perm
      ((Seed.identified fresh n seed.relationships).map rowOf) := queries_relationshipRows hrs
  have hkeys : (((queries seed fresh n clearFirst constraints).flatMap Statement.relationshipRows).map
      fun row => (Record.get row "relationship_id").key).Nodup := by
    refine ((hperm.map _).nodup_iff).mpr ?_
    rw [List.map_map]
    exact Seed.identified_nodup hsupply hdistinct hscalar hfresh
  refine (List.pairwise_map.mp hkeys).imp_of_mem fun {a b} _ hb hne => ?_
  obtain ⟨r, hr, rfl⟩ := List.mem_map.mp (hperm.mem_iff.mp hb)
  obtain ⟨s, hs⟩ := Seed.identified_scalar hscalar hr
  have hid : Record.get (rowOf r) "relationship_id" = .scalar s := hs
  rw [hid, ← Bool.not_eq_true, Value.same_iff_key]
  rw [hid] at hne
  exact hne

/-- **A load sends every asset and every relationship once.** Of accepted seed data whose names may
stand in statements, an undisturbed load sends all queries, and any load the first ones of them:
clearing, one constraint for each type of assets, one query for each type that has rows, and one for
each type of relationships. In the rows that they merge, every asset and every relationship occurs
once, and no two relationships have the same id, where no id is issued twice and none is issued that
the seed data has. -/
theorem loadAll_once {t : Taxonomy} {data : Record} (ht : t.Scalars)
    (hseed : Seed.validate t (.record data) = .ok seed) (h : seed.Nameable)
    (clearFirst constraints : Bool) (conn : Connection) :
    let all := queries seed conn.freshIds conn.issuedIds clearFirst constraints
    Seed.Lists data seed ∧
    (∃ result conn' sent,
      (loadAll t (.record data) clearFirst constraints).run.run conn = (result, conn') ∧
      conn'.sent.toList = conn.sent.toList ++ sent.map (⟨·, conn.database⟩) ∧ sent <+: all ∧
      (conn.Undisturbed → result = .ok () ∧ sent = all)) ∧
    all.Pairwise (fun a b => ¬(a.MergesRelationships ∧ b.MergesNodes)) ∧
    all.flatMap Statement.nodeRows = seed.rows.map (fun row => .record row.2) ∧
    (all.flatMap Statement.relationshipRows).Perm
      ((Seed.identified conn.freshIds conn.issuedIds seed.relationships).map rowOf) ∧
    (Function.Injective conn.freshIds →
      (∀ r ∈ seed.relationships, ∀ n, conn.issuedIds < n →
        r.id.same (.text (conn.freshIds n)) = false) →
      (all.flatMap Statement.relationshipRows).Pairwise fun a b =>
        (Record.get a "relationship_id").same (Record.get b "relationship_id") = false) := by
  intro all
  obtain ⟨hlists, _, ids, _, hfits, hunused⟩ := Seed.validate_steps.mp hseed
  have hrs : ∀ r ∈ seed.relationships, ∃ s, r.label = .text s := by
    intro r hr
    obtain ⟨q, hq⟩ := h.labels r hr
    exact label_text ht.inputs ht.outputs hq (hfits r hr).2.label
  have hscalar : ∀ r ∈ seed.relationships, ∃ s, r.id = .scalar s := fun r hr =>
    (hunused.fresh r hr).imp fun _ hs => hs.1
  have hrun : (loadAll t (.record data) clearFirst constraints).run.run conn =
      (load seed clearFirst constraints).run.run conn := by
    unfold loadAll
    rw [hseed]
    rfl
  refine ⟨hlists, ?_, queries_ordered _ _ _ _ _, queries_nodeRows _ _ _ _ _,
    queries_relationshipRows hrs, fun hsupply => queries_ids_differ hsupply hrs hscalar
      hunused.distinct⟩
  rw [hrun]
  exact load_sends h hrs clearFirst constraints conn

end Loader

/-! ## 6. Mixed relationships -/

namespace Mixed

/-- Tables and views are datasets, jobs are processes. -/
def taxonomy : Taxonomy where
  datasetMarker := .text "DataSet"
  processMarker := .text "Process"
  labels := ⟨.text "reads", .text "writes"⟩
  types := [⟨"View", [], ["View", "DataSet"]⟩, ⟨"Table", [], ["Table", "DataSet"]⟩,
    ⟨"Job", [], ["Job", "Process"]⟩]

/-- A relationship from the job. -/
def link (label target : String) (id : Value) : Record :=
  [("type", .text label), ("from", .text "p"), ("to", .text target), ("id", id)]

/-- No views, two tables and a job; of the relationships, the first has no id and the last an empty
one. -/
def data : Record := [
  ("assets", .record [
    ("View", .list []),
    ("Table", .list [.record [("id", .text "x")], .record [("id", .text "y")]]),
    ("Job", .list [.record [("id", .text "p")]])]),
  ("relationships", .list [.record (link "writes" "x" .null),
    .record (link "reads" "y" (.text "1")), .record (link "writes" "y" (.text ""))])]

/-- The data, once it is accepted. -/
def seed : Seed where
  assets := [("View", []), ("Table", [[("id", .text "x")], [("id", .text "y")]]),
    ("Job", [[("id", .text "p")]])]
  relationships := [⟨.text "writes", .text "p", .text "x", .null⟩,
    ⟨.text "reads", .text "p", .text "y", .text "1"⟩,
    ⟨.text "writes", .text "p", .text "y", .text ""⟩]

/-- The row of a relationship from the job. -/
def row (target id : String) : Record :=
  [("from_id", .text "p"), ("to_id", .text target), ("relationship_id", .text id)]

theorem scalars : taxonomy.Scalars := ⟨⟨_, rfl⟩, ⟨_, rfl⟩, ⟨_, rfl⟩, ⟨_, rfl⟩⟩

theorem validated : Seed.validate taxonomy (.record data) = .ok seed := by cbv

theorem nameable : seed.Nameable := by
  have hsafe (name : String) (h : (!name.isEmpty && name.toList.all Loader.isSafeChar) = true) :
      ∃ label, Loader.safeIdentifier (.text name) = .ok label :=
    ⟨_, (Loader.safeIdentifier_text name).trans (if_pos h)⟩
  have hquote (label : String) (h : label = "writes" ∨ label = "reads") :
      ∃ q, Loader.quoteRelationshipType (.text label) = .ok q := by
    rcases h with rfl | rfl <;> exact ⟨_, by cbv⟩
  constructor
  · simp only [seed, List.forall_mem_cons]
    exact ⟨hsafe _ (by decide +kernel), hsafe _ (by decide +kernel), hsafe _ (by decide +kernel),
      List.forall_mem_nil _⟩
  · simp only [seed, List.forall_mem_cons]
    exact ⟨hquote _ (.inl rfl), hquote _ (.inr rfl), hquote _ (.inl rfl),
      List.forall_mem_nil _⟩

/-- The connection over which the data is loaded. -/
def start : Connection := .start ⟨#[], #[]⟩ [] .null

/-- What the database is sent, it answers. -/
theorem undisturbed : start.Undisturbed := fun _ s => Connection.answer_local ⟨#[], #[]⟩ s

/-- No id is issued twice. -/
theorem supply : Function.Injective start.freshIds := by
  intro n m h
  have htext : toString n = toString m := (String.append_right_inj "generated-").mp h
  exact Nat.repr_inj.mp htext

/-- Ids that are issued are longer than those of the seed data. -/
theorem unused : ∀ r ∈ seed.relationships, ∀ n, 0 < n →
    r.id.same (.text (start.freshIds n)) = false := by
  have hshort (s : String) (hs : s.length < 10) (n : Nat) :
      (Value.text s).same (.text (start.freshIds n)) = false := by
    rw [← Bool.not_eq_true, Value.same_scalar_iff]
    intro hkey
    have hlength : s.length = 10 + (toString n).length :=
      (congrArg String.length (Key.text.inj hkey)).trans (String.length_append _ _)
    omega
  simp only [seed, List.forall_mem_cons]
  exact ⟨fun _ _ => rfl, fun n _ => hshort _ (by decide) n, fun n _ => hshort _ (by decide) n,
    nofun⟩

/-- What is sent when the database is cleared and ids are made unique. -/
def queries : List Statement := [.clear, .uniqueId "View", .uniqueId "Table", .uniqueId "Job",
  .mergeNodes "Table" (.list [.record [("id", .text "x")], .record [("id", .text "y")]]),
  .mergeNodes "Job" (.list [.record [("id", .text "p")]]),
  .mergeRelationships "\x60writes\x60" [row "x" "generated-1", row "y" "generated-2"],
  .mergeRelationships "\x60reads\x60" [row "y" "1"]]

theorem queries_eq : Loader.queries seed start.freshIds 0 true true = queries := by cbv

end Mixed

namespace Loader

/-- There is a constraint for views but no query for their rows, and one query merges the first and
the last relationship, each of them under a new id. -/
theorem loadAll_once_mixed :
    ∃ conn', (loadAll Mixed.taxonomy (.record Mixed.data) true true).run.run Mixed.start =
        (.ok (), conn') ∧
      conn'.sent.toList.map (·.statement) = Mixed.queries ∧
      [Mixed.row "x" "generated-1", Mixed.row "y" "generated-2", Mixed.row "y" "1"].Pairwise
        fun a b =>
          (Record.get a "relationship_id").same (Record.get b "relationship_id") = false := by
  obtain ⟨_, ⟨result, conn', sent, hrun, hsent, _, hall⟩, _, _, _, hdistinct⟩ :=
    loadAll_once Mixed.scalars Mixed.validated Mixed.nameable true true Mixed.start
  obtain ⟨rfl, rfl⟩ := hall Mixed.undisturbed
  rw [show Mixed.start.issuedIds = 0 from rfl, Mixed.queries_eq] at hsent hdistinct
  exact ⟨conn', hrun, by simp [hsent, Mixed.start, Connection.start, Function.comp_def],
    hdistinct Mixed.supply Mixed.unused⟩

end Loader

end DataLineage
