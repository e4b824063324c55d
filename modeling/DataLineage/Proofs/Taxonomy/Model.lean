import Mathlib
import DataLineage.Proofs.Taxonomy.Closed
import DataLineage.Taxonomy.Model

/-!
# Which type models are accepted

A definition names its direct supertypes by one text or by a list of texts; an empty text in the
place of the list names nothing. A type model whose types, markers and labels are texts is accepted
exactly when its labels differ, every named supertype is declared and no type is above itself.

* `TypeModel.Extends`, `TypeModel.Above` -- the direct supertypes, as a relation between names.
* `TypeModel.Accepted` -- **the rules of a type model**, apart from the code that checks them.
* `TypeModel.Textual.read` -- the declarations say what the definitions say.
* `TypeModel.Textual.outcomes` -- what is refused breaks a rule, and a cycle that is told is one.
* `Taxonomy.ofModel_exact` -- **a model is accepted exactly by the rules**, and its closures are
  what direct supertypes reach.
* `Taxonomy.ofModel_blank` -- an empty text in the place of the list need not be declared.
-/

open Relation (ReflTransGen TransGen)

namespace DataLineage

/-- **Items are mapped one by one**: each of them has a result, or one of them fails the whole. -/
theorem Outcome.mapM_cases {α β : Type} {f : α → Outcome β} {P : α → β → Prop}
    {Q : α → Fault → Prop} {xs : List α}
    (h : ∀ x ∈ xs, (∃ y, f x = .ok y ∧ P x y) ∨ ∃ e, f x = .error e ∧ Q x e) :
    (∃ ys, xs.mapM f = .ok ys ∧ List.Forall₂ P xs ys) ∨
      ∃ x ∈ xs, ∃ e, xs.mapM f = .error e ∧ Q x e := by
  induction xs with
  | nil => exact .inl ⟨[], rfl, .nil⟩
  | cons x rest ih =>
    rw [List.mapM_cons]
    rcases h x List.mem_cons_self with ⟨y, hy, hP⟩ | ⟨e, he, hQ⟩
    · rw [hy, ok_bind]
      rcases ih fun x hx => h x (List.mem_cons_of_mem _ hx) with
        ⟨ys, hys, hall⟩ | ⟨x', hx', e, he, hQ⟩
      · exact .inl ⟨y :: ys, by rw [hys]; rfl, .cons hP hall⟩
      · exact .inr ⟨x', List.mem_cons_of_mem _ hx', e, by rw [he]; rfl, hQ⟩
    · exact .inr ⟨x, List.mem_cons_self, e, by rw [he]; rfl, hQ⟩

namespace TypeModel

/-! ## 1. What a model says -/

/-- The fields of a part of the model, none if the part is not a record. -/
def fieldsOf (model : Record) (name : String) : Record :=
  match Record.get? model name with
  | some (.record fields) => fields
  | _ => []

/-- The part is missing, or a record of texts. -/
def Texts (model : Record) (name : String) : Prop :=
  Record.get? model name = none ∨
    ∃ fields : Record, Record.get? model name = some (.record fields) ∧
      ∀ f ∈ fields, ∃ s, f.2 = .text s

/-- What a definition says about its supertypes, null if it says nothing. -/
def said : Value → Value
  | .record fields => (Record.get? fields "super_types").getD .null
  | _ => .null

/-- **The definition writes the name** as its one supertype, or in the list of them. -/
def Writes (definition : Value) (name : String) : Prop :=
  said definition = .text name ∨ ∃ items, said definition = .list items ∧ .text name ∈ items

/-- **The definition names a direct supertype**: it writes it, and not as an empty text in the place
of the list. -/
def Extends (definition : Value) (name : String) : Prop :=
  Writes definition name ∧ said definition ≠ .text ""

/-- The definition is null or a record that says nothing, one text or a list of texts about its
supertypes. -/
structure Definition (definition : Value) : Prop where
  shape : definition = .null ∨ ∃ fields, definition = .record fields
  names : said definition = .null ∨ (∃ s, said definition = .text s) ∨
    ∃ names : List String, said definition = .list (names.map .text)

/-- **A model with the given types**: markers and labels are texts where they are set, and so are
the names of the types and of their supertypes. -/
structure Textual (model types : Record) : Prop where
  categories : Texts model "categories"
  labels : Texts model "edge_labels"
  listed : Record.get? model "entity_types" = some (.record types) ∨
    Record.get? model "entity_types" = none ∧ types = []
  names : ∀ entry ∈ types, ∃ name, entry.1 = .text name
  definitions : ∀ entry ∈ types, Definition entry.2

/-- The one type names the other as a direct supertype. -/
def Above (types : Record) (name above : String) : Prop :=
  ∃ definition, Record.get? types name = some definition ∧ Extends definition above

/-- An edge label of the model, or its default. -/
def label (model : Record) (name default : String) : Value :=
  (Record.get? (fieldsOf model "edge_labels") name).getD (.text default)

/-- Every supertype that a definition names is declared. -/
def Complete (types : Record) : Prop :=
  ∀ entry ∈ types, ∀ name, Extends entry.2 name → Record.has types name = true

/-- **The rules of a type model.** -/
structure Accepted (model types : Record) : Prop where
  labels : label model "process_inputs" "consumes-input" ≠
    label model "process_outputs" "produces-output"
  complete : Complete types
  acyclic : ∀ name, ¬ TransGen (Above types) name name

/-- **A cycle of types**: each names the next as a direct supertype, and the last is the first. -/
def Round (types : Record) (chain : List String) : Prop :=
  chain.IsChain (Above types) ∧ ∃ first middle, chain = first :: (middle ++ [first])

/-! ## 2. Reading it -/

/-- A part that is missing or a record is read as its fields. -/
theorem part_eq {model : Record} {name : String}
    (h : Record.get? model name = none ∨ ∃ fields : Record,
      Record.get? model name = some (.record fields)) :
    part (.record model) name = .ok (.record (fieldsOf model name)) := by
  have hpart : part (.record model) name =
      .ok (((Record.get? model name).getD .null).orElse (.record [])) := rfl
  rcases h with h | ⟨fields, h⟩
  · rw [hpart, fieldsOf, h]
    rfl
  · rw [hpart, fieldsOf, h]
    cases fields <;> rfl

theorem Texts.part {model : Record} {name : String} (h : Texts model name) :
    part (.record model) name = .ok (.record (fieldsOf model name)) :=
  part_eq (h.imp_right fun ⟨fields, hf, _⟩ => ⟨fields, hf⟩)

/-- A setting is a text, set or by default. -/
theorem Texts.setting {model : Record} {name : String} (h : Texts model name)
    (key default : String) :
    ∃ s, (Record.get? (fieldsOf model name) key).getD (.text default) = .text s := by
  cases hf : Record.get? (fieldsOf model name) key with
  | none => exact ⟨default, rfl⟩
  | some v =>
    unfold fieldsOf at hf
    rcases h with h | ⟨fields, h, htexts⟩
    · rw [h] at hf
      cases hf
    · rw [h] at hf
      obtain ⟨f, hfind, rfl⟩ := Option.map_eq_some_iff.mp hf
      exact htexts f (List.mem_of_find?_eq_some hfind)

/-- The supertypes that are read off a definition are those that it names. -/
theorem superTypes_eq {definition : Value} (h : Definition definition) :
    ∃ names : List String, superTypes definition = .ok (names.map .text) ∧
      ∀ name, name ∈ names ↔ Extends definition name := by
  rcases h.shape with rfl | ⟨fields, rfl⟩
  · exact ⟨[], rfl, by simp [Extends, Writes, said]⟩
  have hfields : (Value.record fields).orElse (.record []) = .record fields := by
    cases fields <;> rfl
  have hfield : (Value.record fields).field "super_types" = .ok (said (.record fields)) := rfl
  unfold superTypes
  rw [hfields, hfield]
  rcases h.names with hs | ⟨s, hs⟩ | ⟨names, hs⟩
  · exact ⟨[], by rw [hs]; rfl, by simp [Extends, Writes, hs]⟩
  · by_cases hblank : s = ""
    · exact ⟨[], by rw [hs, hblank]; rfl, by simp [Extends, hs, hblank]⟩
    · have horElse : (Value.text s).orElse (.list []) = .text s :=
        if_pos (by simpa [Value.truth, Scalar.truth] using hblank)
      refine ⟨[s], ?_, by simp [Extends, Writes, hs, hblank, eq_comm]⟩
      simp only [hs, Outcome.ok_bind, horElse]
      rfl
  · refine ⟨names, ?_, by simp [Extends, Writes, hs]⟩
    rw [hs]
    cases names <;> rfl

theorem hasKey_text (types : Record) (name : String) :
    Record.hasKey types (.text name) = Record.has types name := by
  rw [Record.hasKey, Record.valueOf?_text, Record.has]

/-- Named supertypes are read as themselves if all are declared; else one that is not is reported. -/
theorem declared_cases (types : Record) (name : String) (names : List String) :
    (declared types (.text name) (names.map .text) = .ok (names.map .text) ∧
        ∀ u ∈ names, Record.has types u = true) ∨
      ∃ u ∈ names, Record.has types u = false ∧ declared types (.text name) (names.map .text) =
        .error (.typeModel (.unknownSuperType (.text name) (.text u))) := by
  have hcases : (∃ ys, declared types (.text name) (names.map .text) = .ok ys ∧
        List.Forall₂ (fun v y => (∀ u, v = .text u → Record.has types u = true) ∧ v = .scalar y)
          (names.map Value.text) ys) ∨
      ∃ v ∈ names.map Value.text, ∃ e, declared types (.text name) (names.map .text) = .error e ∧
        ∃ u, v = .text u ∧ Record.has types u = false ∧
          e = .typeModel (.unknownSuperType (.text name) (.text u)) := by
    unfold declared
    refine Outcome.mapM_cases fun v hv => ?_
    obtain ⟨u, -, rfl⟩ := List.mem_map.mp hv
    simp only [Value.identifier, Outcome.ok_bind, Scalar.key, hasKey_text]
    cases hu : Record.has types u with
    | true => exact .inl ⟨.text u, rfl, by rintro _ ⟨⟩; exact hu, rfl⟩
    | false => exact .inr ⟨_, rfl, u, rfl, hu, rfl⟩
  rcases hcases with ⟨ys, hok, hall⟩ | ⟨v, hv, e, herr, u, rfl, hu, rfl⟩
  · obtain ⟨hhas, heq⟩ := (List.forall₂_and_left _ _).mp hall
    have heq : names.map Value.text = ys.map Value.scalar := by
      rw [← List.forall₂_eq_eq_eq, List.forall₂_map_right_iff]
      exact heq
    have hys : ys = names.map .text := by
      refine List.map_injective_iff.mpr (fun _ _ h => Value.scalar.inj h) ?_
      rw [← heq, List.map_map]
      rfl
    refine .inl ⟨hys ▸ hok, fun u hu => ?_⟩
    exact hhas (.text u) (List.mem_map_of_mem hu) u rfl
  · exact .inr ⟨u, by simpa using hv, hu, herr⟩

/-- A declaration says what the entry says. -/
def DeclaredAs (entry : Scalar × Value) (d : Scalar × List Scalar) : Prop :=
  d.1 = entry.1 ∧ ∃ names : List String, d.2 = names.map .text ∧
    ∀ name, name ∈ names ↔ Extends entry.2 name

/-- **The types of a textual model are read**: the declarations say what the definitions say, or a
supertype that is not declared is reported. -/
theorem Textual.read {model types : Record} (h : Textual model types) :
    (∃ ds, declarations (.record model) = .ok ds ∧ List.Forall₂ DeclaredAs types ds ∧
        Complete types) ∨
      ¬ Complete types ∧ ∃ name above, declarations (.record model) =
        .error (.typeModel (.unknownSuperType name above)) := by
  have hpart : part (.record model) "entity_types" = .ok (.record types) := by
    have := part_eq (h.listed.symm.imp (·.1) fun ht => ⟨types, ht⟩)
    rcases h.listed with ht | ⟨ht, rfl⟩ <;> simpa only [fieldsOf, ht] using this
  have hcases : (∃ ds, declarations (.record model) = .ok ds ∧
        List.Forall₂ (fun entry d => (∀ u, Extends entry.2 u → Record.has types u = true) ∧
          DeclaredAs entry d) types ds) ∨
      ∃ entry ∈ types, ∃ e, declarations (.record model) = .error e ∧
        (∃ u, Extends entry.2 u ∧ Record.has types u = false) ∧
        ∃ name above, e = .typeModel (.unknownSuperType name above) := by
    unfold TypeModel.declarations
    rw [hpart, Outcome.ok_bind]
    refine Outcome.mapM_cases fun entry hmem => ?_
    obtain ⟨name, hname⟩ := h.names entry hmem
    obtain ⟨names, hsupers, hnames⟩ := superTypes_eq (h.definitions entry hmem)
    obtain ⟨typeName, definition⟩ := entry
    obtain rfl : typeName = .text name := hname
    simp only [hsupers, Outcome.ok_bind]
    rcases declared_cases types name names with ⟨hok, hall⟩ | ⟨u, hu, hmissing, herr⟩
    · refine .inl ⟨(.text name, names.map .text), by rw [hok]; rfl, ?_, rfl, names, rfl, hnames⟩
      exact fun u hu => hall u ((hnames u).mpr hu)
    · exact .inr ⟨_, by rw [herr]; rfl, ⟨u, (hnames u).mp hu, hmissing⟩, _, _, rfl⟩
  rcases hcases with
    ⟨ds, hok, hall⟩ | ⟨entry, hmem, e, herr, ⟨u, hu, hmissing⟩, name, above, rfl⟩
  · obtain ⟨hcomplete, hall⟩ := (List.forall₂_and_left _ _).mp hall
    exact .inl ⟨ds, hok, hall, hcomplete⟩
  · refine .inr ⟨fun hcomplete => ?_, name, above, herr⟩
    exact Bool.false_ne_true (hmissing ▸ hcomplete entry hmem u hu)

/-! ## 3. Steps between names -/

section

variable {types : Record} {ds : Declarations}

/-- The declaration of a name is read from its first entry. -/
theorem superTypes_text (h : List.Forall₂ DeclaredAs types ds) (name : String) (s : Scalar) :
    s ∈ ds.superTypes (.text name) ↔ ∃ above, s = .text above ∧ Above types name above := by
  unfold Declarations.superTypes Above Record.get?
  induction h with
  | nil => simp
  | @cons entry d types ds hd hrest ih =>
    obtain ⟨hname, names, hsupers, hnames⟩ := hd
    rw [List.find?_cons, List.find?_cons, hname]
    by_cases hn : entry.1 = .text name
    · simp [hn, Scalar.key, hsupers, hnames, eq_comm, and_comm]
    · have hk : entry.1.key ≠ .text name := fun hk => hn ((Scalar.key_eq_text_iff ..).mp hk)
      rw [beq_eq_false_iff_ne.mpr hn, beq_eq_false_iff_ne.mpr hk]
      exact ih

theorem declares_text (h : List.Forall₂ DeclaredAs types ds) (name : String) :
    ds.Declares (.text name) ↔ Record.has types name = true := by
  unfold Declarations.Declares Record.has Record.get?
  induction h with
  | nil => simp
  | @cons entry d types ds hd hrest ih =>
    rw [List.find?_cons]
    by_cases hn : entry.1 = .text name
    · simp [hd.1, hn, Scalar.key]
    · have hk : d.1.key ≠ .text name := fun hk => hn (hd.1 ▸ (Scalar.key_eq_text_iff ..).mp hk)
      rw [beq_eq_false_iff_ne.mpr hn, ← ih]
      simp [hk]

/-- **A step leads from a name to one that it names as a direct supertype.** -/
theorem step_text (h : List.Forall₂ DeclaredAs types ds) (name : String) (k : Key) :
    ds.Step (.text name) k ↔ ∃ above, k = .text above ∧ Above types name above := by
  unfold Declarations.Step
  constructor
  · rintro ⟨s, hs, rfl⟩
    obtain ⟨above, rfl, hup⟩ := (superTypes_text h name s).mp hs
    exact ⟨above, rfl, hup⟩
  · rintro ⟨above, rfl, hup⟩
    exact ⟨.text above, (superTypes_text h name _).mpr ⟨above, rfl, hup⟩, rfl⟩

/-- What steps reach from a name are names. -/
theorem reaches_text (h : List.Forall₂ DeclaredAs types ds) (name : String) (k : Key) :
    ReflTransGen ds.Step (.text name) k ↔
      ∃ above, k = .text above ∧ ReflTransGen (Above types) name above := by
  constructor
  · intro hreach
    induction hreach with
    | refl => exact ⟨name, rfl, .refl⟩
    | tail _ hstep ih =>
      obtain ⟨mid, rfl, hmid⟩ := ih
      obtain ⟨above, rfl, hup⟩ := (step_text h mid _).mp hstep
      exact ⟨above, rfl, hmid.tail hup⟩
  · rintro ⟨above, rfl, hreach⟩
    exact hreach.lift Key.text fun a b hup => (step_text h a _).mpr ⟨b, rfl, hup⟩

/-- Every declaration is read from an entry. -/
theorem entry_of_declaration (h : List.Forall₂ DeclaredAs types ds) {d : Scalar × List Scalar}
    (hd : d ∈ ds) : ∃ entry ∈ types, DeclaredAs entry d := by
  induction h with
  | nil => cases hd
  | @cons entry d' types ds hhead _ ih =>
    rcases List.mem_cons.mp hd with rfl | hd
    · exact ⟨entry, List.mem_cons_self, hhead⟩
    · obtain ⟨entry, hmem, hentry⟩ := ih hd
      exact ⟨entry, List.mem_cons_of_mem _ hmem, hentry⟩

theorem Complete.declarations (hc : Complete types) (h : List.Forall₂ DeclaredAs types ds) :
    ds.Complete := by
  intro d hd s hs
  obtain ⟨entry, hmem, -, names, hsupers, hnames⟩ := entry_of_declaration h hd
  obtain ⟨u, hu, rfl⟩ := List.mem_map.mp (hsupers ▸ hs)
  exact (declares_text h u).mpr (hc entry hmem u ((hnames u).mp hu))

/-- What a step starts from is a name. -/
theorem step_from_text (h : List.Forall₂ DeclaredAs types ds)
    (hnames : ∀ entry ∈ types, ∃ name, entry.1 = .text name) {k k' : Key} (hstep : ds.Step k k') :
    ∃ name, k = .text name := by
  obtain ⟨d, hd, rfl⟩ := hstep.declares
  obtain ⟨entry, hmem, hname, -⟩ := entry_of_declaration h hd
  obtain ⟨name, htext⟩ := hnames entry hmem
  exact ⟨name, by rw [hname, htext]; rfl⟩

/-- No type is above itself exactly when no name is. -/
theorem acyclic_iff (h : List.Forall₂ DeclaredAs types ds)
    (hnames : ∀ entry ∈ types, ∃ name, entry.1 = .text name) :
    (∀ k, ¬ TransGen ds.Step k k) ↔ ∀ name, ¬ TransGen (Above types) name name := by
  constructor
  · intro hk name hup
    exact hk (.text name) (hup.lift Key.text fun a b hab => (step_text h a _).mpr ⟨b, rfl, hab⟩)
  · intro hn k hup
    obtain ⟨k', hstep, hback⟩ := TransGen.head'_iff.mp hup
    obtain ⟨name, rfl⟩ := step_from_text h hnames hstep
    obtain ⟨next, rfl, hnext⟩ := (step_text h name k').mp hstep
    obtain ⟨name', hname', hreach⟩ := (reaches_text h next _).mp hback
    cases hname'
    exact hn name (TransGen.head' hnext hreach)

/-- A chain of steps from a name is a chain of names. -/
theorem chain_text (h : List.Forall₂ DeclaredAs types ds) {name : String} {rest : List Scalar}
    (hchain : (Scalar.text name :: rest).IsChain fun s t => ds.Step s.key t.key) :
    ∃ names, rest = names.map Scalar.text ∧ (name :: names).IsChain (Above types) := by
  induction rest generalizing name with
  | nil => exact ⟨[], rfl, .singleton _⟩
  | cons s rest ih =>
    obtain ⟨hstep, htail⟩ := List.isChain_cons_cons.mp hchain
    obtain ⟨next, hkey, hup⟩ := (step_text h name s.key).mp hstep
    obtain rfl := (Scalar.key_eq_text_iff ..).mp hkey
    obtain ⟨names, rfl, hnames⟩ := ih htail
    exact ⟨next :: names, rfl, .cons_cons hup hnames⟩

/-- **A round of types is a cycle of names**, and is told as one. -/
theorem round_text (h : List.Forall₂ DeclaredAs types ds)
    (hnames : ∀ entry ∈ types, ∃ name, entry.1 = .text name) {chain : List Scalar}
    (hround : ds.Round chain) :
    ∃ names, Round types names ∧ Closure.cycle chain = .typeModel (.cycle names) := by
  obtain ⟨hchain, first, middle, last, rfl, hkey⟩ := hround
  have hstart : ∃ next, ds.Step first.key next := by
    cases middle <;> exact ⟨_, (List.isChain_cons_cons.mp hchain).1⟩
  obtain ⟨next, hstep⟩ := hstart
  obtain ⟨name, hname⟩ := step_from_text h hnames hstep
  obtain rfl := (Scalar.key_eq_text_iff ..).mp hname
  obtain rfl := (Scalar.key_eq_text_iff ..).mp hkey.symm
  obtain ⟨rest, hrest, hup⟩ := chain_text h hchain
  obtain ⟨middle', end', rfl, rfl, hend⟩ := List.map_eq_append_iff.mp hrest.symm
  obtain ⟨last', rfl, hlast⟩ := List.map_eq_singleton_iff.mp hend
  cases hlast
  refine ⟨name :: (middle' ++ [name]), ⟨hup, name, middle', rfl⟩, ?_⟩
  rw [← Closure.chain_texts]
  simp

end

/-! ## 4. Acceptance -/

/-- The taxonomy of a model, from its declarations and their closures. -/
def taxonomyOf (model : Record) (ds : Declarations) (closures : Closure.Known) : Taxonomy where
  datasetMarker := (Record.get? (fieldsOf model "categories") "dataset").getD (.text "DataSet")
  processMarker := (Record.get? (fieldsOf model "categories") "process").getD (.text "Process")
  labels := ⟨label model "process_inputs" "consumes-input",
    label model "process_outputs" "produces-output"⟩
  types := ds.map fun (name, supers) => ⟨name, supers, (closures.lookup name.key).getD []⟩

/-- A declared type has the closure that was found for it, any other type none. -/
theorem closureOf_taxonomyOf (model : Record) (ds : Declarations) (closures : Closure.Known)
    (k : Key) (s : Scalar) :
    s ∈ (taxonomyOf model ds closures).closureOf k ↔
      ds.Declares k ∧ s ∈ (closures.lookup k).getD [] := by
  have htype : (taxonomyOf model ds closures).type? k = (ds.find? fun d => d.1.key == k).map
      fun (name, supers) => ⟨name, supers, (closures.lookup name.key).getD []⟩ := by
    rw [Taxonomy.type?, taxonomyOf, List.find?_map]
    rfl
  rw [Taxonomy.closureOf, htype]
  cases hf : ds.find? fun d => d.1.key == k with
  | none =>
    have hnone : ¬ ds.Declares k := by
      rintro ⟨d, hd, hk⟩
      exact List.find?_eq_none.mp hf d hd (beq_iff_eq.mpr hk)
    simp [hnone]
  | some d =>
    have hk : d.1.key = k := by simpa using List.find?_some hf
    have hdecl : ds.Declares k := ⟨d, List.mem_of_find?_eq_some hf, hk⟩
    simp [hk, hdecl]

/-- For texts, the labels are equal in the code when they are. -/
theorem Textual.label_equal {model types : Record} (h : Textual model types) :
    (label model "process_inputs" "consumes-input").equal
        (label model "process_outputs" "produces-output") = true ↔
      label model "process_inputs" "consumes-input" =
        label model "process_outputs" "produces-output" := by
  obtain ⟨i, hi⟩ := h.labels.setting "process_inputs" "consumes-input"
  obtain ⟨o, ho⟩ := h.labels.setting "process_outputs" "produces-output"
  rw [label, label, hi, ho, Value.equal_of_text, Value.same_scalar_iff]
  simp [Scalar.key]

/-- **The reading of a textual model**, rule by rule. -/
theorem Textual.ofModel_eq {model types : Record} (h : Textual model types) :
    Taxonomy.ofModel (.record model) =
      if (label model "process_inputs" "consumes-input").equal
          (label model "process_outputs" "produces-output") then
        .error (.typeModel .equalLabels)
      else do
        let ds ← declarations (.record model)
        let closures ← Closure.all ds
        return taxonomyOf model ds closures := by
  have hread : Taxonomy.ofModel (.record model) = do
      if (label model "process_inputs" "consumes-input").equal
          (label model "process_outputs" "produces-output") then
        throw (.typeModel .equalLabels)
      let ds ← declarations (.record model)
      let closures ← Closure.all ds
      return taxonomyOf model ds closures := by
    unfold Taxonomy.ofModel
    rw [h.categories.part, h.labels.part]
    rfl
  rw [hread]
  split <;> rfl

/-- What reading a textual model answers. -/
inductive Outcomes (model types : Record) : Outcome Taxonomy → Prop where
  | accepted {ds : Declarations} {closures : Closure.Known} (rules : Accepted model types)
      (declared : List.Forall₂ DeclaredAs types ds) (exact : Closure.Exact ds closures)
      (all : ∀ d ∈ ds, (closures.lookup d.1.key).isSome) :
      Outcomes model types (.ok (taxonomyOf model ds closures))
  | refused {cause : TypeModelCause} (breaks : ¬ Accepted model types)
      (told : ∀ chain, cause = .cycle chain → Round types chain) :
      Outcomes model types (.error (.typeModel cause))

/-- **A textual model is read by the rules.** -/
theorem Textual.outcomes {model types : Record} (h : Textual model types) :
    Outcomes model types (Taxonomy.ofModel (.record model)) := by
  rw [h.ofModel_eq]
  split
  · rename_i hequal
    exact .refused (fun hrules => hrules.labels (h.label_equal.mp hequal)) nofun
  · rename_i hequal
    rcases h.read with ⟨ds, hds, hall, hcomplete⟩ | ⟨hincomplete, name, above, herr⟩
    · rw [hds, Outcome.ok_bind]
      have hanswer := Closure.all_answers (hcomplete.declarations hall)
      have hacyclic := (Closure.all_ok_iff (hcomplete.declarations hall)).trans
        (acyclic_iff hall h.names)
      generalize Closure.all ds = answer at hanswer hacyclic ⊢
      cases hanswer with
      | @found closures exact all =>
        refine .accepted ⟨fun hl => hequal (h.label_equal.mpr hl), hcomplete, ?_⟩ hall exact all
        exact hacyclic.mp ⟨closures, rfl⟩
      | round hround =>
        obtain ⟨names, hnames, hcycle⟩ := round_text hall h.names hround
        rw [hcycle]
        refine .refused (fun hrules => ?_) ?_
        · obtain ⟨_, hok⟩ := hacyclic.mpr hrules.acyclic
          cases hok
        · rintro _ ⟨⟩
          exact hnames
    · rw [herr]
      exact .refused (fun hrules => hincomplete hrules.complete) nofun

end TypeModel

open TypeModel in
/-- **A type model is accepted exactly by the rules, and its closures are what direct supertypes
reach.** What is refused is refused as a type model; a cycle that is reported is one. Any two names
can be asked about: a type that is not declared has an empty closure and is of no category. -/
theorem Taxonomy.ofModel_exact {model types : Record} (h : Textual model types) :
    ((∃ t, Taxonomy.ofModel (.record model) = .ok t) ↔ Accepted model types) ∧
    (∀ fault, Taxonomy.ofModel (.record model) = .error fault →
      ∃ cause, fault = .typeModel cause ∧ ∀ chain, cause = .cycle chain → Round types chain) ∧
    ∀ t, Taxonomy.ofModel (.record model) = .ok t → ∀ name,
      (∃ closure, t.closure (.text name) = .ok closure ∧ ∀ s, s ∈ closure ↔
        Record.has types name = true ∧
          ∃ above, s = .text above ∧ ReflTransGen (Above types) name above) ∧
      ∀ marker, ∃ answer, t.isOfCategory (.text name) (.text marker) = .ok answer ∧
        (answer = true ↔
          Record.has types name = true ∧ ReflTransGen (Above types) name marker) := by
  have houtcomes := h.outcomes
  generalize Taxonomy.ofModel (.record model) = answer at houtcomes ⊢
  cases houtcomes with
  | refused breaks told =>
    refine ⟨⟨fun ⟨_, ht⟩ => (nomatch ht), fun hrules => absurd hrules breaks⟩, ?_, nofun⟩
    rintro _ ⟨⟩
    exact ⟨_, rfl, told⟩
  | @accepted ds closures rules declared exact all =>
    refine ⟨⟨fun _ => rules, fun _ => ⟨_, rfl⟩⟩, nofun, ?_⟩
    rintro _ ⟨⟩ name
    have hmem : ∀ s, s ∈ (taxonomyOf model ds closures).closureOf (.text name) ↔
        Record.has types name = true ∧
          ∃ above, s = .text above ∧ ReflTransGen (Above types) name above := by
      intro s
      rw [closureOf_taxonomyOf, declares_text declared]
      refine and_congr_right fun hhas => ?_
      obtain ⟨d, hd, hk⟩ := (declares_text declared name).mpr hhas
      obtain ⟨c, hc⟩ := Option.isSome_iff_exists.mp (all d hd)
      rw [hk] at hc
      have hreach := exact.reaches _ c hc
      rw [hc, Option.getD_some]
      constructor
      · intro hs
        obtain ⟨above, hkey, hup⟩ := (reaches_text declared name s.key).mp
          ((hreach s.key).mp ((Closure.has_iff c s.key).mpr ⟨s, hs, rfl⟩))
        exact ⟨above, (Scalar.key_eq_text_iff ..).mp hkey, hup⟩
      · rintro ⟨above, rfl, hup⟩
        obtain ⟨x, hx, hkey⟩ := (Closure.has_iff c (.text above)).mp
          ((hreach _).mpr ((reaches_text declared name _).mpr ⟨above, rfl, hup⟩))
        exact (Scalar.key_eq_text_iff ..).mp hkey ▸ hx
    refine ⟨⟨_, rfl, hmem⟩, fun marker => ⟨_, isOfCategory_text _ name marker, ?_⟩⟩
    rw [reaches, List.any_eq_true]
    constructor
    · rintro ⟨s, hs, hkey⟩
      obtain rfl := (Scalar.key_eq_text_iff ..).mp (beq_iff_eq.mp hkey)
      obtain ⟨hhas, above, ⟨⟩, hup⟩ := (hmem _).mp hs
      exact ⟨hhas, hup⟩
    · rintro ⟨hhas, hup⟩
      exact ⟨.text marker, (hmem _).mpr ⟨hhas, marker, rfl, hup⟩, by simp [Scalar.key]⟩

/-! ## 5. Two models -/

namespace Diamond

/-- Types of which one has two supertypes that share theirs. -/
def types : Record := [
  (.text "View", .record [(.text "super_types", .list [.text "Table", .text "Topic"])]),
  (.text "Table", .record [(.text "super_types", .text "DataSet")]),
  (.text "Topic", .record [(.text "super_types", .list [.text "DataSet"])]),
  (.text "DataSet", .null)]

/-- Their model. -/
def model : Record := [
  (.text "edge_labels", .record [(.text "process_inputs", .text "reads")]),
  (.text "entity_types", .record types)]

theorem textual : TypeModel.Textual model types where
  categories := .inl rfl
  labels := .inr ⟨_, rfl, by simp⟩
  listed := .inl rfl
  names := by simp [types]
  definitions := by
    simp only [types, List.forall_mem_cons]
    refine ⟨⟨.inr ⟨_, rfl⟩, .inr (.inr ⟨["Table", "Topic"], rfl⟩)⟩,
      ⟨.inr ⟨_, rfl⟩, .inr (.inl ⟨"DataSet", rfl⟩)⟩,
      ⟨.inr ⟨_, rfl⟩, .inr (.inr ⟨["DataSet"], rfl⟩)⟩, ⟨.inl rfl, .inl rfl⟩, by simp⟩

/-- The types from the lowest to the highest. -/
def order : List String := ["View", "Table", "Topic", "DataSet"]

/-- A name that is named as a supertype comes later. -/
theorem order_extends : ∀ entry ∈ types, ∀ name, TypeModel.Extends entry.2 name →
    ∃ below, entry.1 = .text below ∧ order.idxOf below < order.idxOf name ∧ name ∈ order := by
  simp only [types, List.forall_mem_cons]
  refine ⟨?_, ?_, ?_, ?_, by simp⟩ <;> intro name hname <;> refine ⟨_, rfl, ?_⟩
  all_goals
    obtain ⟨hsaid | ⟨items, hsaid, hmem⟩, -⟩ := hname <;> cases hsaid
  · simp only [List.mem_cons, Value.scalar.injEq, Scalar.text.injEq, List.not_mem_nil,
      or_false] at hmem
    rcases hmem with rfl | rfl <;> decide
  · decide
  · simp only [List.mem_cons, Value.scalar.injEq, Scalar.text.injEq, List.not_mem_nil,
      or_false] at hmem
    subst hmem
    decide

theorem accepted : TypeModel.Accepted model types where
  labels := by simp [TypeModel.label, TypeModel.fieldsOf, model, Record.get?_cons]
  complete entry hentry name hname := by
    obtain ⟨-, -, -, hmem⟩ := order_extends entry hentry name hname
    rcases List.mem_cons.mp hmem with rfl | hmem
    · decide
    · simp only [List.mem_cons, List.not_mem_nil, or_false] at hmem
      rcases hmem with rfl | rfl | rfl <;> decide
  acyclic name hup := by
    have hstep : ∀ a b, TypeModel.Above types a b → order.idxOf a < order.idxOf b := by
      rintro a b ⟨definition, hget, hextends⟩
      obtain ⟨entry, hfind, rfl⟩ := Option.map_eq_some_iff.mp hget
      obtain ⟨below, hbelow, hlt, -⟩ :=
        order_extends _ (List.mem_of_find?_eq_some hfind) b hextends
      have ha : entry.1 = .text a := by simpa using List.find?_some hfind
      cases hbelow.symm.trans ha
      exact hlt
    have hlt : TransGen (· < ·) (order.idxOf name) (order.idxOf name) :=
      hup.lift (fun a => order.idxOf a) hstep
    rw [Relation.transGen_eq_self] at hlt
    exact Nat.lt_irrefl _ hlt

end Diamond

/-- The diamond is accepted, and its lowest type is of the category of the highest. -/
theorem Taxonomy.ofModel_exact_diamond :
    TypeModel.Textual Diamond.model Diamond.types ∧
      ∃ t, Taxonomy.ofModel (.record Diamond.model) = .ok t ∧
        t.isOfCategory (.text "View") (.text "DataSet") = .ok true := by
  obtain ⟨hiff, _, hexact⟩ := Taxonomy.ofModel_exact Diamond.textual
  obtain ⟨t, ht⟩ := hiff.mpr Diamond.accepted
  obtain ⟨answer, hanswer, hcategory⟩ := (hexact t ht "View").2 "DataSet"
  refine ⟨Diamond.textual, t, ht, ?_⟩
  rw [hanswer, hcategory.mpr ⟨rfl, ?_⟩]
  have htable : TypeModel.Above Diamond.types "View" "Table" :=
    ⟨_, rfl, .inr ⟨_, rfl, List.mem_cons_self⟩, by simp [TypeModel.said, Record.get?_cons]⟩
  have hset : TypeModel.Above Diamond.types "Table" "DataSet" :=
    ⟨_, rfl, .inl rfl, by simp [TypeModel.said, Record.get?_cons]⟩
  exact .head htable (.single hset)

namespace Blank

/-- A type with an empty text in the place of its supertypes. -/
def types : Record := [(.text "A", .record [(.text "super_types", .text "")])]

/-- Its model. -/
def model : Record := [(.text "entity_types", .record types)]

theorem textual : TypeModel.Textual model types where
  categories := .inl rfl
  labels := .inl rfl
  listed := .inl rfl
  names := by simp [types]
  definitions := by
    simp only [types, List.forall_mem_cons]
    exact ⟨⟨.inr ⟨_, rfl⟩, .inr (.inl ⟨"", rfl⟩)⟩, by simp⟩

end Blank

/-- **What a definition writes need not be declared**: an empty text in the place of the list is
accepted, though no type has that name. -/
theorem Taxonomy.ofModel_blank : ¬ ∀ model types : Record, TypeModel.Textual model types →
    (∃ t, Taxonomy.ofModel (.record model) = .ok t) →
    ∀ entry ∈ types, ∀ name, TypeModel.Writes entry.2 name → Record.has types name = true := by
  intro h
  have hok : ∃ t, Taxonomy.ofModel (.record Blank.model) = .ok t := ⟨_, by cbv⟩
  have hdeclared := h Blank.model Blank.types Blank.textual hok (.text "A", _)
    List.mem_cons_self "" (.inl rfl)
  exact absurd hdeclared (by decide)

end DataLineage
