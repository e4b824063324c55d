import Mathlib
import DataLineage.Proofs.Database.Sent
import DataLineage.Taxonomy.Model

/-!
# Loads that are refused

Seed data is checked before anything is sent. But whether a name may stand in a statement is told
only when the statement is made, and then earlier ones have been sent. So a load has a plan: its
statements one after the other, with a fault in the place of each that cannot be made.

* `Session.Course`, `Session.Follows` -- a session that follows a plan, and how far it gets;
* `Loader.plan`, `Loader.load_follows` -- **loading follows its plan**, whatever is answered;
* `Seed.Nameable`, `Loader.plan_nameable` -- a plan of safe names is never refused;
* `Loader.plan_head` -- the first step of a plan that clears nothing;
* `Loader.refused_untouched_iff` -- **when a refused load has sent nothing**;
* `Loader.refused_cleared` -- a refused load that has cleared the database.
-/

namespace DataLineage

/-! ## 1. Sessions with a plan -/

/-- The database is the same, and so is the supply of ids. -/
structure Connection.Continues (conn' conn : Connection) : Prop where
  database : conn'.database = conn.database
  freshIds : conn'.freshIds = conn.freshIds

namespace Session

variable {α β : Type} {p q : List (Outcome Statement)} {n m : Nat} {conn : Connection}

/-- **How far a plan was followed** by the statements that were sent: to its end, up to a fault in
the place of a statement, or until the database failed. -/
inductive Course (plan : List (Outcome Statement)) (sent : List Statement) : Outcome α → Prop where
  | through {a : α} (all : plan = sent.map .ok) : Course plan sent (.ok a)
  | refused {f : Fault} {rest : List (Outcome Statement)}
      (reached : plan = sent.map .ok ++ .error f :: rest) : Course plan sent (.error f)
  | failed {kind : DatabaseErrorKind} {report : String} {rest : List (Outcome Statement)}
      (reached : plan = sent.map .ok ++ rest) : Course plan sent (.error (.database kind report))

/-- After a plan that was followed to its end, another one is followed. -/
theorem Course.append {sent sent' : List Statement} {result : Outcome α}
    (h : Course q sent' result) (hp : p = sent.map .ok) :
    Course (p ++ q) (sent ++ sent') result := by
  subst hp
  cases h with
  | through all => exact .through (by rw [all, List.map_append])
  | refused reached => exact .refused (by rw [reached, List.map_append, List.append_assoc])
  | failed reached => exact .failed (by rw [reached, List.map_append, List.append_assoc])

/-- Only a fault of the plan rejects seed data. -/
theorem Course.seed {sent : List Statement} {cause : SeedCause}
    (h : Course p sent (.error (.seed cause) : Outcome α)) :
    ∃ rest, p = sent.map .ok ++ .error (.seed cause) :: rest := by
  cases h with
  | refused reached => exact ⟨_, reached⟩

/-- **The session follows the plan** over a connection, whatever is laid down for its statements;
where it succeeds, so many ids have been issued. -/
def Follows (x : Session α) (conn : Connection) (plan : List (Outcome Statement)) (issued : Nat) :
    Prop :=
  ∃ result conn' sent, x.run.run conn = (result, conn') ∧ Course plan sent result ∧
    conn'.sent.toList = conn.sent.toList ++ sent.map (⟨·, conn.database⟩) ∧
    conn'.Continues conn ∧ ∀ a, result = .ok a → conn'.issuedIds = issued

namespace Follows

theorem pure (a : α) : Follows (pure a) conn [] conn.issuedIds :=
  ⟨.ok a, conn, [], rfl, .through rfl, (List.append_nil _).symm, ⟨rfl, rfl⟩, fun _ _ => rfl⟩

theorem value {x : Outcome α} {a : α} (h : x = .ok a) :
    Follows (MonadExcept.ofExcept x) conn [] conn.issuedIds := by
  subst h
  exact .pure a

theorem fault (f : Fault) (n : Nat) :
    Follows (MonadExcept.ofExcept (.error f : Outcome α)) conn [.error f] n :=
  ⟨.error f, conn, [], rfl, .refused rfl, (List.append_nil _).symm, ⟨rfl, rfl⟩, nofun⟩

theorem note (level : LogLevel) (text : String) :
    Follows (note level text) conn [] conn.issuedIds :=
  ⟨.ok (), { conn with journal := conn.journal.push ⟨level, text⟩ }, [], rfl, .through rfl,
    (List.append_nil _).symm, ⟨rfl, rfl⟩, fun _ _ => rfl⟩

/-- A session that goes on after another one follows both plans. -/
theorem bind {x : Session α} {f : α → Session β} (hx : Follows x conn p n)
    (hf : ∀ a conn₁, x.run.run conn = (.ok a, conn₁) → conn₁.issuedIds = n →
      Follows (f a) conn₁ q m) : Follows (x >>= f) conn (p ++ q) m := by
  obtain ⟨result, conn₁, sent, hrun, hcourse, hsent, hsame, hissued⟩ := hx
  -- only after the whole of the first plan does the second session run at all
  cases hcourse with
  | through all =>
      obtain ⟨result', conn₂, sent', hrun', hcourse', hsent', hsame', hissued'⟩ :=
        hf _ conn₁ hrun (hissued _ rfl)
      refine ⟨result', conn₂, sent ++ sent', (bind_of_ok hrun).trans hrun', hcourse'.append all, ?_,
        ⟨hsame'.database.trans hsame.database, hsame'.freshIds.trans hsame.freshIds⟩, hissued'⟩
      rw [hsent', hsent, hsame.database, List.append_assoc, List.map_append]
  | refused reached =>
      exact ⟨_, conn₁, sent, bind_of_error hrun,
        .refused (by rw [reached, List.append_assoc, List.cons_append]), hsent, hsame, nofun⟩
  | failed reached =>
      exact ⟨_, conn₁, sent, bind_of_error hrun, .failed (by rw [reached, List.append_assoc]),
        hsent, hsame, nofun⟩

/-- The same where it is not known how many ids are issued in the end. -/
theorem bind_exists {x : Session α} {f : α → Session β} (hx : Follows x conn p n)
    (hf : ∀ a conn₁, conn₁.freshIds = conn.freshIds → conn₁.issuedIds = n →
      ∃ m, Follows (f a) conn₁ q m) : ∃ m, Follows (x >>= f) conn (p ++ q) m := by
  rcases hrun : x.run.run conn with ⟨result, conn₁⟩
  cases result with
  | error e => exact ⟨n, hx.bind fun _ _ hrun' _ => nomatch hrun.symm.trans hrun'⟩
  | ok a =>
      obtain ⟨_, _, _, hrun₁, _, _, hsame, hissued⟩ := id hx
      cases hrun.symm.trans hrun₁
      obtain ⟨m, hm⟩ := hf a conn₁ hsame.freshIds (hissued a rfl)
      refine ⟨m, hx.bind fun _ _ hrun' _ => ?_⟩
      cases hrun.symm.trans hrun'
      exact hm

/-- A statement is sent, and the database may fail. -/
theorem perform {s : Statement} (hs : ¬s.IsScript) :
    Follows (perform s) conn [.ok s] conn.issuedIds := by
  refine ⟨_, _, [s], perform_run s conn, ?_, Array.toList_push, ⟨rfl, rfl⟩, fun _ _ => rfl⟩
  cases hanswer : conn.answers conn.sent.size s with
  | ok rows => exact .through rfl
  | error e =>
      obtain ⟨kind, report, rfl⟩ := conn.reports _ _ _ hanswer hs
      exact .failed (List.append_nil _).symm

/-- What is left out follows the empty plan. -/
theorem optional {x : Session Unit} (hx : Follows x conn p conn.issuedIds) (b : Bool) :
    Follows (if b then x else Pure.pure ()) conn (if b then p else []) conn.issuedIds := by
  cases b with
  | false => exact .pure ()
  | true => exact hx

/-- Every member is gone through, and each follows its own plan. -/
theorem forM {l : List β} {f : β → Session Unit} {g : β → List (Outcome Statement)}
    (h : ∀ b ∈ l, ∀ conn, Follows (f b) conn (g b) conn.issuedIds) (conn : Connection) :
    Follows (l.forM f) conn (l.flatMap g) conn.issuedIds := by
  induction l generalizing conn with
  | nil => exact .pure ()
  | cons b rest ih =>
      rw [List.flatMap_cons]
      refine (h b List.mem_cons_self conn).bind fun _ conn₁ _ hissued => ?_
      rw [← hissued]
      exact ih (fun b hb => h b (List.mem_cons_of_mem _ hb)) conn₁

/-- A name is asked for, and a statement with it is sent; what is done after that sends nothing. -/
theorem naming {x : Outcome α} {s : α → Statement} {k : α → Session β}
    (hs : ∀ a, ¬(s a).IsScript)
    (hk : ∀ a conn, Follows (k a) conn [] conn.issuedIds) :
    Follows (do
      let a ← MonadExcept.ofExcept x
      let _ ← Session.perform (s a)
      k a) conn [x.map s] conn.issuedIds := by
  cases x with
  | error f => exact (fault f conn.issuedIds).bind fun _ _ hrun _ => nomatch hrun
  | ok a =>
      refine (value rfl).bind fun _ conn₁ hrun _ => ?_
      cases hrun
      exact (perform (hs a)).bind fun _ conn₂ _ hissued => hissued ▸ hk a conn₂

end Follows

end Session

/-! ## 2. The plan of a load -/

namespace Loader

variable {seed : Seed}

/-- The step that names a type in a statement. -/
def naming (typeName : Scalar) (s : String → Statement) : Outcome Statement :=
  (safeIdentifier (.scalar typeName)).map fun label => s label.display

/-- The steps that make ids unique. -/
def constraintPlan (seed : Seed) : List (Outcome Statement) :=
  seed.assets.map fun a => naming a.1 .uniqueId

/-- The steps that merge the nodes of the types that have rows. -/
def nodePlan (seed : Seed) : List (Outcome Statement) :=
  (seed.assets.filter fun a => !a.2.isEmpty).map fun a =>
    naming a.1 (.mergeNodes · (.list (a.2.map .record)))

/-- The buckets with one more relationship, under its own id or the next one that is issued. -/
def numbered (fresh : Nat → String) (state : List Bucket × Nat) (r : SeedRelationship) :
    Outcome (List Bucket × Nat) := do
  let label ← r.label.identifier
  if r.id.truth then
    return (addRow state.1 label (rowOf r), state.2)
  let issued := state.2 + 1
  return (addRow state.1 label (rowOf { r with id := .text (fresh issued) }),
    issued)

/-- The steps that merge relationships, those of one type together. -/
def relationshipPlan (fresh : Nat → String) (rs : List SeedRelationship) (issued : Nat) :
    List (Outcome Statement) :=
  match rs.foldlM (numbered fresh) ([], issued) with
  | .ok (bs, _) => bs.map fun b =>
      (quoteRelationshipType (.scalar b.label)).map (.mergeRelationships · b.rows)
  | .error f => [.error f]

/-- **The plan of a load** over a connection that issues such ids, and has issued some of them. -/
def plan (seed : Seed) (fresh : Nat → String) (issued : Nat) (clearFirst constraints : Bool) :
    List (Outcome Statement) :=
  (if clearFirst then [.ok .clear] else []) ++ ((if constraints then constraintPlan seed else []) ++
    (nodePlan seed ++ relationshipPlan fresh seed.relationships issued))

theorem clear_follows (conn : Connection) : clear.Follows conn [.ok .clear] conn.issuedIds :=
  (Session.Follows.note _ _).bind fun _ _ _ hissued => hissued ▸
    (Session.Follows.perform id).bind fun _ _ _ hissued => hissued ▸ .pure ()

theorem createConstraints_follows (conn : Connection) :
    (createConstraints (seed.assets.map fun a => .scalar a.1)).Follows conn (constraintPlan seed)
      conn.issuedIds := by
  have hplan : constraintPlan seed = (seed.assets.map fun a => Value.scalar a.1).flatMap
      fun name => [(safeIdentifier name).map fun label => Statement.uniqueId label.display] := by
    rw [List.flatMap_map, ← List.map_eq_flatMap]
    rfl
  rw [hplan]
  exact .forM (fun name _ conn => .naming (fun _ => id) fun _ _ => .pure ()) conn

theorem createNodes_follows (conn : Connection) :
    (createNodes (assetRows seed)).Follows conn (nodePlan seed) conn.issuedIds := by
  have hplan : nodePlan seed = (assetRows seed).flatMap fun a => if a.2.truth then
      [naming a.1 (.mergeNodes · a.2)] else [] := by
    unfold nodePlan assetRows
    rw [List.flatMap_map]
    induction seed.assets with
    | nil => rfl
    | cons a rest ih =>
        obtain ⟨name, records⟩ := a
        rw [List.flatMap_cons, ← ih]
        cases records <;> rfl
  rw [hplan]
  refine .forM (fun a ha conn => ?_) conn
  obtain ⟨⟨name, records⟩, _, rfl⟩ := List.mem_map.mp ha
  dsimp only
  split
  · refine .naming (fun _ => id) fun label conn => ?_
    have hcount : memberCount (.list (records.map .record)) =
        .ok (records.map Value.record).length := rfl
    exact (Session.Follows.value hcount).bind fun _ _ _ hissued => hissued ▸ .note _ _
  · exact .pure ()

theorem addToBucket_run (bs : List Bucket) (r : SeedRelationship) (conn : Connection) :
    (addToBucket bs r).run.run conn = match numbered conn.freshIds (bs, conn.issuedIds) r with
      | .ok (bs', issued) => (.ok bs', { conn with issuedIds := issued })
      | .error f => (.error f, conn) := by
  unfold addToBucket numbered
  cases r.label with
  | scalar l => cases r.id.truth <;> rfl
  | _ => rfl

/-- Putting relationships into buckets sends nothing. -/
theorem foldBuckets_run (rs : List SeedRelationship) (bs : List Bucket) (conn : Connection) :
    ∃ conn', (rs.foldlM addToBucket bs).run.run conn =
        ((rs.foldlM (numbered conn.freshIds) (bs, conn.issuedIds)).map Prod.fst, conn') ∧
      conn'.sent = conn.sent ∧ conn'.Continues conn := by
  induction rs generalizing bs conn with
  | nil => exact ⟨conn, rfl, rfl, rfl, rfl⟩
  | cons r rest ih =>
      rw [List.foldlM_cons, List.foldlM_cons]
      have hrun := addToBucket_run bs r conn
      cases hr : numbered conn.freshIds (bs, conn.issuedIds) r with
      | error f =>
          rw [hr] at hrun
          exact ⟨conn, Session.bind_of_error hrun, rfl, rfl, rfl⟩
      | ok state =>
          rw [hr] at hrun
          obtain ⟨conn', hrest, hsent, hsame⟩ := ih state.1 { conn with issuedIds := state.2 }
          exact ⟨conn', (Session.bind_of_ok hrun).trans hrest, hsent, hsame.database,
            hsame.freshIds⟩

theorem createRelationships_follows (rs : List SeedRelationship) (conn : Connection) :
    ∃ issued, (createRelationships rs).Follows conn
      (relationshipPlan conn.freshIds rs conn.issuedIds) issued := by
  obtain ⟨conn', hrun, hsent, hsame⟩ := foldBuckets_run rs [] conn
  have hcourse (x : Outcome (List Bucket)) (plan : List (Outcome Statement))
      (hx : (rs.foldlM (numbered conn.freshIds) ([], conn.issuedIds)).map Prod.fst = x)
      (hplan : Session.Course plan [] x) :
      (rs.foldlM addToBucket []).Follows conn plan conn'.issuedIds :=
    ⟨x, conn', [], hx ▸ hrun, hplan, by rw [hsent]; exact (List.append_nil _).symm, hsame,
      fun _ _ => rfl⟩
  refine ⟨conn'.issuedIds, ?_⟩
  unfold createRelationships relationshipPlan
  cases hfold : rs.foldlM (numbered conn.freshIds) ([], conn.issuedIds) with
  | error f =>
      refine (hcourse (.error f) [.error f] (by rw [hfold]; rfl) (.refused rfl)).bind (q := [])
        fun _ _ hrun' _ => ?_
      rw [hrun, hfold] at hrun'
      cases hrun'
  | ok state =>
      refine (hcourse (.ok state.1) [] (by rw [hfold]; rfl) (.through rfl)).bind
        fun bs conn₁ hrun' hissued => ?_
      rw [hrun, hfold] at hrun'
      cases hrun'
      rw [List.map_eq_flatMap]
      exact .forM (fun b _ conn => .naming (fun _ => id) fun _ _ => .note _ _) _

/-- **Loading follows its plan.** -/
theorem load_follows (seed : Seed) (clearFirst constraints : Bool) (conn : Connection) :
    ∃ issued, (load seed clearFirst constraints).Follows conn
      (plan seed conn.freshIds conn.issuedIds clearFirst constraints) issued := by
  -- the parts that the options leave out follow the empty plan
  have hload : load seed clearFirst constraints = (do
      (if clearFirst then clear else pure ())
      (if constraints then createConstraints (seed.assets.map fun a => .scalar a.1) else pure ())
      createNodes (assetRows seed)
      createRelationships seed.relationships
      Session.note .info
        ("Graph load complete: " ++ toString seed.assets.length ++ " types, " ++
          toString seed.relationships.length ++ " relationships")) := by
    unfold load
    cases clearFirst <;> cases constraints <;> rfl
  rw [hload]
  refine ((clear_follows conn).optional clearFirst).bind_exists fun _ conn₁ f₁ h₁ => ?_
  refine ((createConstraints_follows conn₁).optional constraints).bind_exists
    fun _ conn₂ f₂ h₂ => ?_
  refine (createNodes_follows conn₂).bind_exists fun _ conn₃ f₃ h₃ => ?_
  obtain ⟨issued, hrelationships⟩ := createRelationships_follows seed.relationships conn₃
  rw [f₃, f₂, f₁, h₃, h₂, h₁] at hrelationships
  refine ⟨issued, ?_⟩
  rw [← List.append_nil (relationshipPlan _ _ _)]
  exact hrelationships.bind fun _ _ _ hissued => hissued ▸ .note _ _

end Loader

/-! ## 3. Names in statements -/

/-- **All names may stand in statements**: those of types are safe, and labels can be quoted. -/
structure Seed.Nameable (seed : Seed) : Prop where
  types : ∀ a ∈ seed.assets, ∃ label, Loader.safeIdentifier (.scalar a.1) = .ok label
  labels : ∀ r ∈ seed.relationships, ∃ q, Loader.quoteRelationshipType r.label = .ok q

/-- The types that a load names: all of them for constraints, otherwise those that have rows. -/
def Seed.named (seed : Seed) (constraints : Bool) : List Scalar :=
  (if constraints then seed.assets else seed.assets.filter fun a => !a.2.isEmpty).map Prod.fst

/-- Where no type has rows, accepted seed data has no relationships. -/
theorem Seed.validate_rowless {t : Taxonomy} {data : Value} {seed : Seed}
    (h : Seed.validate t data = .ok seed) (hrows : seed.rows = []) : seed.relationships = [] := by
  obtain ⟨ids, hentered, hfits⟩ := Seed.validate_ok h
  rw [List.eq_nil_iff_forall_not_mem]
  intro r hr
  obtain ⟨row, hrow, _⟩ := (hfits r hr).source.row hentered
  rw [hrows] at hrow
  exact List.not_mem_nil hrow

namespace Loader

variable {seed : Seed}

theorem naming_of_ok {name : Scalar} {label : Value} (h : safeIdentifier (.scalar name) = .ok label)
    (s : String → Statement) : naming name s = .ok (s label.display) := by
  unfold naming
  rw [h]
  rfl

theorem naming_error {name : Scalar} {s : String → Statement} {f : Fault} :
    naming name s = .error f ↔ safeIdentifier (.scalar name) = .error f := by
  unfold naming
  cases safeIdentifier (.scalar name) with
  | error e =>
      exact ⟨fun h => congrArg _ (Except.error.inj h), fun h => congrArg _ (Except.error.inj h)⟩
  | ok label => exact ⟨nofun, nofun⟩

/-- Every bucket has the label of a relationship. -/
theorem numbered_labels {fresh : Nat → String} {rs : List SeedRelationship}
    {state state' : List Bucket × Nat} (h : rs.foldlM (numbered fresh) state = .ok state')
    {b : Bucket} (hb : b ∈ state'.1) :
    (∃ r ∈ rs, r.label = .scalar b.label) ∨ ∃ b' ∈ state.1, b.label = b'.label := by
  induction rs generalizing state with
  | nil =>
      cases h
      exact .inr ⟨b, hb, rfl⟩
  | cons r rest ih =>
      rw [List.foldlM_cons] at h
      obtain ⟨middle, hr, hrest⟩ := Outcome.bind_eq_ok.mp h
      obtain ⟨label, hlabel, hr⟩ := Outcome.bind_eq_ok.mp hr
      have hadd : ∃ row, middle.1 = addRow state.1 label row := by
        split at hr <;> cases hr <;> exact ⟨_, rfl⟩
      obtain ⟨row, hadd⟩ := hadd
      rcases ih hrest with ⟨r', hr', hl⟩ | ⟨b', hb', hl⟩
      · exact .inl ⟨r', List.mem_cons_of_mem _ hr', hl⟩
      · rw [hadd] at hb'
        rcases mem_addRow hb' with hl' | ⟨b'', hb'', hl'⟩
        · have hscalar : r.label = .scalar label := by
            cases hr : r.label <;> rw [hr] at hlabel <;> cases hlabel
            rfl
          exact .inl ⟨r, List.mem_cons_self, by rw [hscalar, hl, hl']⟩
        · exact .inr ⟨b'', hb'', hl.trans hl'⟩

/-- Numbering fails only where a label cannot be told from others. -/
theorem numbered_fault {fresh : Nat → String} {rs : List SeedRelationship}
    {state : List Bucket × Nat} {f : Fault} (h : rs.foldlM (numbered fresh) state = .error f) :
    f = .wrongKind := by
  induction rs generalizing state with
  | nil => cases h
  | cons r rest ih =>
      rw [List.foldlM_cons] at h
      cases hr : numbered fresh state r with
      | ok state' =>
          rw [hr] at h
          exact ih h
      | error e =>
          rw [hr] at h
          cases h
          unfold numbered at hr
          cases hl : r.label <;> rw [hl] at hr
          · cases ht : r.id.truth <;> rw [ht] at hr <;> cases hr
          all_goals
            cases hr
            rfl

/-- **A plan of names that may stand in statements is never refused.** -/
theorem plan_nameable (h : seed.Nameable) (fresh : Nat → String) (issued : Nat)
    (clearFirst constraints : Bool) (cause : SeedCause) :
    ∀ step ∈ plan seed fresh issued clearFirst constraints, step ≠ .error (.seed cause) := by
  have hnaming (a : Scalar × List Record) (ha : a ∈ seed.assets) (s : String → Statement) :
      naming a.1 s ≠ .error (.seed cause) := by
    obtain ⟨label, hlabel⟩ := h.types a ha
    rw [naming_of_ok hlabel]
    exact nofun
  have hconstraints : ∀ step ∈ constraintPlan seed, step ≠ .error (.seed cause) :=
    List.forall_mem_map.mpr fun a ha => hnaming a ha _
  have hnodes : ∀ step ∈ nodePlan seed, step ≠ .error (.seed cause) :=
    List.forall_mem_map.mpr fun a ha => hnaming a (List.mem_of_mem_filter ha) _
  have hrelationships : ∀ step ∈ relationshipPlan fresh seed.relationships issued,
      step ≠ .error (.seed cause) := by
    unfold relationshipPlan
    split
    · rename_i hfold
      refine List.forall_mem_map.mpr fun b hb => ?_
      obtain ⟨r, hr, hl⟩ := (numbered_labels hfold hb).resolve_right fun ⟨_, hb', _⟩ =>
        List.not_mem_nil hb'
      obtain ⟨q, hq⟩ := h.labels r hr
      rw [← hl, hq]
      exact nofun
    · rename_i hfold
      cases numbered_fault hfold
      exact List.forall_mem_singleton.mpr nofun
  refine List.forall_mem_append.mpr ⟨?_, List.forall_mem_append.mpr ⟨?_,
    List.forall_mem_append.mpr ⟨hnodes, hrelationships⟩⟩⟩
  · cases clearFirst with
    | false => exact List.forall_mem_nil _
    | true => exact List.forall_mem_singleton.mpr nofun
  · cases constraints with
    | false => exact List.forall_mem_nil _
    | true => exact hconstraints

/-- Where types are named at all, the first name decides the first step. -/
theorem head_naming {named : List (Scalar × List Record)}
    {s : Scalar × List Record → String → Statement} {rest : List (Outcome Statement)}
    (hrest : named = [] → rest = []) {f : Fault} :
    ((named.map fun a => naming a.1 (s a)) ++ rest).head? = some (.error f) ↔
      ∃ name, (named.map Prod.fst).head? = some name ∧
        safeIdentifier (.scalar name) = .error f := by
  cases named with
  | nil =>
      rw [hrest rfl]
      exact ⟨nofun, nofun⟩
  | cons a more =>
      simp only [List.map_cons, List.cons_append, List.head?_cons, Option.some.injEq,
        exists_eq_left', naming_error]

/-- **A plan that clears nothing begins with a name**: the first one of the types that it names. -/
theorem plan_head {t : Taxonomy} {data : Value} (hseed : Seed.validate t data = .ok seed)
    (fresh : Nat → String) (issued : Nat) (constraints : Bool) (f : Fault) :
    (plan seed fresh issued false constraints).head? = some (.error f) ↔
      ∃ name, (seed.named constraints).head? = some name ∧
        safeIdentifier (.scalar name) = .error f := by
  -- where no type is named, there are no rows, so no relationship between rows either
  have hnone (hrows : (seed.assets.filter fun a => !a.2.isEmpty) = []) :
      relationshipPlan fresh seed.relationships issued = [] := by
    have hempty : seed.rows = [] := by
      unfold Seed.rows Seed.rowsOf
      rw [List.flatMap_eq_nil_iff]
      intro a ha
      have hrow := List.filter_eq_nil_iff.mp hrows a ha
      rw [Bool.not_eq_true, Bool.not_eq_false', List.isEmpty_iff] at hrow
      rw [hrow, List.map_nil]
    rw [Seed.validate_rowless hseed hempty]
    rfl
  cases constraints with
  | false => exact head_naming hnone
  | true =>
      refine head_naming fun hassets => ?_
      have hfilter : (seed.assets.filter fun a => !a.2.isEmpty) = [] := by
        rw [hassets]
        rfl
      unfold nodePlan
      rw [hfilter, hnone hfilter]
      rfl

end Loader

/-! ## 4. Refused loads -/

namespace Loader

variable {t : Taxonomy} {data : Value} {seed : Seed} {clearFirst constraints : Bool}
  {conn conn' : Connection} {cause : SeedCause}

/-- **A load of accepted seed data is refused at a step of its plan**, and the steps before that one
were sent. -/
theorem loadAll_refused (hseed : Seed.validate t data = .ok seed)
    (h : (loadAll t data clearFirst constraints).run.run conn = (.error (.seed cause), conn')) :
    ∃ (sent : List Statement) (rest : _),
      plan seed conn.freshIds conn.issuedIds clearFirst constraints =
        sent.map .ok ++ .error (.seed cause) :: rest ∧
      conn'.sent.toList = conn.sent.toList ++ sent.map (⟨·, conn.database⟩) := by
  have hrun : (load seed clearFirst constraints).run.run conn = (.error (.seed cause), conn') := by
    unfold loadAll at h
    rw [hseed] at h
    exact h
  obtain ⟨_, result, _, sent, hfollows, hcourse, hsent, _, _⟩ :=
    load_follows seed clearFirst constraints conn
  cases hrun.symm.trans hfollows
  obtain ⟨rest, hplan⟩ := hcourse.seed
  exact ⟨sent, rest, hplan, hsent⟩

/-- Nothing was sent exactly when the first step is the refused one. -/
theorem untouched_iff_head {sent : List Statement} {rest : List (Outcome Statement)} {f : Fault}
    {p : List (Outcome Statement)} (hplan : p = sent.map .ok ++ .error f :: rest)
    (hsent : conn'.sent.toList = conn.sent.toList ++ sent.map (⟨·, conn.database⟩)) :
    conn'.sent = conn.sent ↔ p.head? = some (.error f) := by
  rw [← Array.toList_inj, hsent, List.append_right_eq_self, List.map_eq_nil_iff, hplan]
  cases sent with
  | nil => exact ⟨fun _ => rfl, fun _ => rfl⟩
  | cons s more => exact ⟨nofun, nofun⟩

/-- **When a refused load has sent nothing**: the seed data was rejected, or nothing is cleared and
the first name that is needed is not safe. That is always so for seed data whose names may stand in
statements. In any other case the steps before the refused one were sent, whatever was answered;
clearing is the first of them. -/
theorem refused_untouched_iff
    (h : (loadAll t data clearFirst constraints).run.run conn = (.error (.seed cause), conn')) :
    (conn'.sent = conn.sent ↔ Seed.validate t data = .error (.seed cause) ∨
      ∃ seed, Seed.validate t data = .ok seed ∧ clearFirst = false ∧
        ∃ name, (seed.named constraints).head? = some name ∧
          safeIdentifier (.scalar name) = .error (.seed cause)) ∧
    ((∀ seed, Seed.validate t data = .ok seed → seed.Nameable) → conn' = conn) ∧
    ∀ seed, Seed.validate t data = .ok seed → ∃ (sent : List Statement) (rest : _),
      plan seed conn.freshIds conn.issuedIds clearFirst constraints =
        sent.map .ok ++ .error (.seed cause) :: rest ∧
      conn'.sent.toList = conn.sent.toList ++ sent.map (⟨·, conn.database⟩) := by
  cases hvalidate : Seed.validate t data with
  | error e =>
      rw [loadAll_invalid hvalidate] at h
      cases h
      exact ⟨⟨fun _ => .inl rfl, fun _ => rfl⟩, fun _ => rfl, nofun⟩
  | ok seed =>
      obtain ⟨sent, rest, hplan, hsent⟩ := loadAll_refused hvalidate h
      refine ⟨(untouched_iff_head hplan hsent).trans ⟨fun hhead => ?_, ?_⟩, fun hnameable => ?_, ?_⟩
      · cases clearFirst with
        | true => cases hhead
        | false => exact .inr ⟨seed, rfl, rfl, (plan_head hvalidate _ _ _ _).mp hhead⟩
      · rintro (hrejected | ⟨_, ⟨⟩, rfl, hname⟩)
        · cases hrejected
        · exact (plan_head hvalidate _ _ _ _).mpr hname
      · have hstep := plan_nameable (hnameable seed rfl) conn.freshIds conn.issuedIds clearFirst
          constraints cause
        rw [hplan] at hstep
        exact absurd rfl (hstep _ (List.mem_append_right _ List.mem_cons_self))
      · rintro _ ⟨⟩
        exact ⟨sent, rest, hplan, hsent⟩

end Loader

/-! ## 5. A name with a hyphen -/

namespace Hyphen

/-- A type model whose only type has a name that may not stand in a statement. -/
def model : Value := .record [("entity_types", .record [("My-Type", .null)])]

/-- The taxonomy of the model. -/
def taxonomy : Taxonomy where
  datasetMarker := .text "DataSet"
  processMarker := .text "Process"
  labels := ⟨.text "consumes-input", .text "produces-output"⟩
  types := [⟨"My-Type", [], ["My-Type"]⟩]

/-- One asset of the type. -/
def seed : Value := .record [("assets", .record [
  ("My-Type", .list [.record [("id", .text "x")]])])]

/-- The seed data, once it is accepted. -/
def accepted : Seed := ⟨[("My-Type", [[("id", .text "x")]])], []⟩

/-- What the database contains before. -/
def content : Content := ⟨#[⟨["Table"], [("id", .text "kept")]⟩], #[]⟩

/-- What is told of the name. -/
def cause : SeedCause := .unsafeIdentifier (.text "My-Type")

theorem ofModel_eq : Taxonomy.ofModel model = .ok taxonomy := by cbv

theorem validated : Seed.validate taxonomy seed = .ok accepted := by cbv

theorem safeIdentifier_eq : Loader.safeIdentifier (.text "My-Type") = .error (.seed cause) :=
  (Loader.safeIdentifier_text _).trans (if_neg (by decide +kernel))

theorem createConstraints_run (conn : Connection) :
    (Loader.createConstraints [.text "My-Type"]).run.run conn = (.error (.seed cause), conn) := by
  refine Session.bind_of_error (Session.bind_of_error ?_)
  rw [safeIdentifier_eq]
  rfl

/-- Seed data that is accepted is loaded. -/
theorem loadAll_run (clearFirst constraints : Bool) (conn : Connection) :
    (Loader.loadAll taxonomy seed clearFirst constraints).run.run conn =
      (Loader.load accepted clearFirst constraints).run.run conn := by
  unfold Loader.loadAll
  rw [validated]
  rfl

end Hyphen

namespace Loader

/-- Where nothing is cleared, the name is refused before anything is sent. -/
theorem refused_untouched_iff_hyphen :
    ∃ conn', (loadAll Hyphen.taxonomy Hyphen.seed false true).run.run
        (.start Hyphen.content [] .null) = (.error (.seed Hyphen.cause), conn') ∧
      conn'.sent = #[] := by
  have hrun := (Hyphen.loadAll_run false true (.start Hyphen.content [] .null)).trans
    (Session.bind_of_error (Hyphen.createConstraints_run _))
  exact ⟨_, hrun, (refused_untouched_iff hrun).1.mpr
    (.inr ⟨Hyphen.accepted, Hyphen.validated, rfl, "My-Type", rfl, Hyphen.safeIdentifier_eq⟩)⟩

/-- **A refused load that has cleared the database**: the seed data is accepted, so clearing is
sent, and then the name of its type is refused. -/
theorem refused_cleared :
    Taxonomy.ofModel Hyphen.model = .ok Hyphen.taxonomy ∧
    ∃ conn', (loadAll Hyphen.taxonomy Hyphen.seed true true).run.run
        (.start Hyphen.content [] .null) = (.error (.seed Hyphen.cause), conn') ∧
      conn'.sent.toList = [⟨.clear, .null⟩] ∧ conn'.left Hyphen.content = ⟨#[], #[]⟩ := by
  have hrun := (Hyphen.loadAll_run true true (.start Hyphen.content [] .null)).trans
    ((Session.bind_of_ok (a := ()) rfl).trans
      (Session.bind_of_error (Hyphen.createConstraints_run _)))
  exact ⟨Hyphen.ofModel_eq, _, hrun, rfl, rfl⟩

end Loader

end DataLineage
