import DataLineage.Value.Written

/-!
# Faults

Everything that can go wrong is a value of `Fault`: a refused or failed lineage request, a type
model or a seed that breaks a rule, a document that cannot be read, a database that fails, or a
value of a kind that an operation does not take. `Fault.message` holds all wording. What a run
reports beside its answer are log entries: a level and a text, written on one line.

* `LineageCause.status_of_class` -- the status follows from the class of the cause.
-/

namespace DataLineage

/-! ## 1. Requests -/

/-- Why a lineage request is refused, or why its traversal fails. -/
inductive LineageCause where
  | invalidDirection (given : Value)
  | invalidDepth (given : Value)
  | criterionWithout (name : String) (criterion : Value)
  | unknownOperator (given : Value)
  | notFound
  | notAuthorized
  | unsupportedType (typeName : Value)
  | processRootHidden (typeName : Value)
  | patternHidesNothing
  | noQueryLanguage
  | answerNotQueried
  | queryFailed (report : String)
  | nodeWithoutId (element : Int)
  | budgetExceeded (limit : Value)
  deriving Repr, Inhabited

/-- The classes of refusals and failures that callers tell apart. -/
inductive LineageClass where
  | entityNotFound
  | unsupportedEntityType
  | incompatibleRequest
  | notAuthorized
  | backendFailure
  | limitExceeded
  deriving DecidableEq, Repr, Inhabited

namespace LineageClass

/-- The name under which a class is reported. -/
def name : LineageClass → String
  | entityNotFound => "EntityNotFound"
  | unsupportedEntityType => "UnsupportedEntityType"
  | incompatibleRequest => "IncompatibleRequest"
  | notAuthorized => "NotAuthorized"
  | backendFailure => "TraversalBackendFailure"
  | limitExceeded => "TraversalLimitExceeded"

/-- The status that a web service answers for the class. -/
def httpStatus : LineageClass → Nat
  | entityNotFound => 404
  | unsupportedEntityType => 400
  | incompatibleRequest => 400
  | notAuthorized => 403
  | backendFailure => 500
  | limitExceeded => 500

end LineageClass

/-- The names of the filter operators, in alphabetical order. -/
def operatorNames : List String :=
  ["contains", "eq", "exists", "in", "neq", "not_in", "startswith"]

namespace LineageCause

/-- The class of a cause. -/
def classOf : LineageCause → LineageClass
  | invalidDirection _ => .incompatibleRequest
  | invalidDepth _ => .incompatibleRequest
  | criterionWithout _ _ => .incompatibleRequest
  | unknownOperator _ => .incompatibleRequest
  | notFound => .entityNotFound
  | notAuthorized => .notAuthorized
  | unsupportedType _ => .unsupportedEntityType
  | processRootHidden _ => .incompatibleRequest
  | patternHidesNothing => .incompatibleRequest
  | noQueryLanguage => .backendFailure
  | answerNotQueried => .backendFailure
  | queryFailed _ => .backendFailure
  | nodeWithoutId _ => .backendFailure
  | budgetExceeded _ => .limitExceeded

/-- The wording of a cause, for the request about the given guid. -/
def message (guid : Value) : LineageCause → String
  | invalidDirection given => "Invalid lineage direction: " ++ given.literal
  | invalidDepth given =>
    "Lineage depth must be a non-negative integer, got " ++ given.literal
  | criterionWithout name criterion =>
    "Filter criteria missing " ++ quote name ++ ": " ++ criterion.display
  | unknownOperator given =>
    "Unsupported filter operator " ++ given.literal ++ ". Allowed: " ++
      (Value.list (operatorNames.map .text)).literal
  | notFound => "No entity found for guid " ++ guid.display
  | notAuthorized => "Not authorized to read entity lineage: guid=" ++ guid.display
  | unsupportedType typeName =>
    "Entity " ++ guid.display ++ " of type " ++ typeName.display ++
      " is neither a dataset nor a process"
  | processRootHidden typeName =>
    "hideProcess is not supported for process entity " ++ guid.display ++ " of type " ++
      typeName.display
  | patternHidesNothing => "hideProcess is only supported by the native traversal engine"
  | noQueryLanguage =>
    "In-memory graph store has no query language; use the native traversal engine"
  | answerNotQueried => "Lineage query results cannot run further queries"
  | queryFailed report => "Neo4j query failed: " ++ report
  | nodeWithoutId element => "Node " ++ Text.ofInt element ++ " has no id property"
  | budgetExceeded limit =>
    "Lineage traversal expanded more than " ++ limit.display ++ " vertices"

/-- **The status follows from the class**: only a missing entity is 404, only a denied one 403. -/
theorem status_of_class (c : LineageCause) :
    (c.classOf.httpStatus = 404 ↔ c = .notFound) ∧
      (c.classOf.httpStatus = 403 ↔ c = .notAuthorized) := by
  cases c <;> simp [classOf, LineageClass.httpStatus]

end LineageCause

/-! ## 2. Type models and seeds -/

/-- Why a type model is rejected. -/
inductive TypeModelCause where
  | equalLabels
  | typesNotRecord
  | unknownSuperType (typeName : Scalar) (superType : Value)
  | cycle (chain : List String)
  | notMapping (path : String) (kind : String)
  deriving Repr, Inhabited

/-- The wording of a rejected type model. -/
def TypeModelCause.message : TypeModelCause → String
  | equalLabels => "edge_labels.process_inputs and process_outputs must differ"
  | typesNotRecord => "'entity_types' must be a mapping of type name -> definition"
  | unknownSuperType typeName superType =>
    "Type " ++ typeName.display ++ " extends unknown type " ++ superType.display
  | cycle chain => "Cycle in type hierarchy: " ++ " -> ".intercalate chain
  | notMapping path kind => path ++ " must contain a YAML mapping, got " ++ kind

/-- Why seed data is rejected. -/
inductive SeedCause where
  | assetsNotRecord
  | unknownType (typeName : Scalar)
  | assetsNotList (typeName : Scalar)
  | assetNotRecord (typeName : Scalar) (asset : Value)
  | assetWithoutId (typeName : Scalar) (asset : Value)
  | duplicateAsset (id : Value) (first second : Scalar)
  | relationshipsNotList
  | relationshipNotRecord (relationship : Value)
  | incompleteRelationship (relationship : Value)
  | unknownLabel (label : Value)
  | unknownEndpoint (endpoint relationship : Value)
  | startNotProcess (label start : Value) (typeName : Scalar)
  | endNotDataset (label target : Value) (typeName : Scalar)
  | duplicateRelationship (id : Value)
  | unsafeIdentifier (given : Value)
  | unsafeRelationshipType (given : Value)
  | unknownVertex (id : Value)
  deriving Repr, Inhabited

/-- The wording of rejected seed data. -/
def SeedCause.message : SeedCause → String
  | assetsNotRecord =>
    "Seed data must contain 'assets' as a mapping of TypeName -> list[objects]."
  | unknownType typeName => "Unknown entity type in assets: " ++ typeName.display
  | assetsNotList typeName => "assets." ++ typeName.display ++ " must be a list"
  | assetNotRecord typeName asset =>
    "assets." ++ typeName.display ++ " contains a non-object: " ++ asset.literal
  | assetWithoutId typeName asset =>
    typeName.display ++ " missing required property 'id'. Offending object: " ++ asset.display
  | duplicateAsset id first second =>
    "Duplicate id in assets: " ++ id.display ++ " (" ++ first.display ++ " and " ++
      second.display ++ ")"
  | relationshipsNotList => "Seed data must contain 'relationships' as a list."
  | relationshipNotRecord relationship =>
    "Relationship must be an object: " ++ relationship.literal
  | incompleteRelationship relationship =>
    "Relationship missing fields (type/from/to): " ++ relationship.display
  | unknownLabel label => "Unknown relationship type: " ++ label.display
  | unknownEndpoint endpoint relationship =>
    "Relationship endpoint " ++ endpoint.literal ++ " not found in assets: " ++
      relationship.display
  | startNotProcess label start typeName =>
    "Relationship " ++ label.display ++ " must start at a process, " ++ start.display ++ " is " ++
      typeName.display
  | endNotDataset label target typeName =>
    "Relationship " ++ label.display ++ " must end at a dataset, " ++ target.display ++ " is " ++
      typeName.display
  | duplicateRelationship id => "Duplicate relationship id: " ++ id.display
  | unsafeIdentifier given => "Unsafe identifier: " ++ given.literal
  | unsafeRelationshipType given => "Unsafe relationship type: " ++ given.literal
  | unknownVertex id => "Edge endpoint " ++ id.literal ++ " is not a known vertex"

/-! ## 3. Faults -/

/-- How a database fails: the first four kinds are its own reports, the last one is not. -/
inductive DatabaseErrorKind where
  | serviceUnavailable
  | sessionExpired
  | serverError
  | clientError
  | foreign
  deriving DecidableEq, Repr, Inhabited

/-- **The cause of a failure.** -/
inductive Fault where
  /-- a lineage request is refused or fails; the guid is null where none is known -/
  | lineage (cause : LineageCause) (guid : Value)
  /-- a type model breaks a rule -/
  | typeModel (cause : TypeModelCause)
  /-- seed data breaks a rule -/
  | seed (cause : SeedCause)
  /-- a text is not a document -/
  | malformedDocument
  /-- the database fails -/
  | database (kind : DatabaseErrorKind) (report : String)
  /-- a value of a kind that the operation does not take -/
  | wrongKind
  /-- a value that has no such operation at all -/
  | noSuchOperation
  /-- a value of the right kind outside the accepted ones -/
  | badValue
  /-- a number that is too large for what it is used for -/
  | tooLarge
  /-- a field that is not there -/
  | missingField
  /-- an item of a list that is not there -/
  | missingItem
  /-- a path without a file -/
  | noSuchFile
  /-- a path of a directory where a file is read -/
  | directory
  /-- a path that leads through a file -/
  | notDirectory
  /-- a path that is longer than paths can be -/
  | pathTooLong
  /-- a document whose collections are nested too deeply -/
  | tooDeep
  deriving Repr, Inhabited

namespace Fault

/-- The wording of a fault; faults that are only named have none. -/
def message : Fault → String
  | lineage cause guid => cause.message guid
  | typeModel cause => cause.message
  | seed cause => cause.message
  | database _ report => report
  | _ => ""

end Fault

/-- A result, or the fault that prevents it. -/
abbrev Outcome := Except Fault

namespace Outcome

variable {α β : Type}

/-- **Two steps have a result exactly when both have one.** -/
theorem bind_eq_ok {x : Outcome α} {f : α → Outcome β} {b : β} :
    (x >>= f) = .ok b ↔ ∃ a, x = .ok a ∧ f a = .ok b := by
  cases x with
  | error e => exact ⟨fun h => (nomatch h), fun ⟨_, h, _⟩ => (nomatch h)⟩
  | ok a => exact ⟨fun h => ⟨a, rfl, h⟩, fun ⟨_, ha, h⟩ => by cases ha; exact h⟩

@[simp] theorem ok_bind (a : α) (f : α → Outcome β) : (Except.ok a >>= f : Outcome β) = f a := rfl

@[simp] theorem error_bind (e : Fault) (f : α → Outcome β) :
    (Except.error e >>= f : Outcome β) = .error e := rfl

/-- What every step of a fold keeps, the fold keeps. -/
theorem foldlM_keeps {f : β → α → Outcome β} {P : β → Prop} {xs : List α} {b b' : β}
    (step : ∀ b, ∀ a ∈ xs, ∀ b', P b → f b a = .ok b' → P b') (hb : P b)
    (h : xs.foldlM f b = .ok b') : P b' := by
  induction xs generalizing b with
  | nil => cases h; exact hb
  | cons a rest ih =>
    obtain ⟨b₁, h₁, h₂⟩ := bind_eq_ok.mp h
    exact ih (fun b x hx => step b x (List.mem_cons_of_mem _ hx))
      (step b a List.mem_cons_self b₁ hb h₁) h₂

theorem bind_isOk {x : Outcome α} {f : α → Outcome β} (hx : ∃ a, x = .ok a)
    (hf : ∀ a, x = .ok a → ∃ b, f a = .ok b) : ∃ b, (x >>= f) = .ok b := by
  obtain ⟨a, ha⟩ := hx
  obtain ⟨b, hb⟩ := hf a ha
  exact ⟨b, bind_eq_ok.mpr ⟨a, ha, hb⟩⟩

/-- A fold of which no step fails does not fail. -/
theorem foldlM_isOk {f : β → α → Outcome β} {xs : List α}
    (step : ∀ b, ∀ a ∈ xs, ∃ b', f b a = .ok b') (b : β) : ∃ b', xs.foldlM f b = .ok b' := by
  induction xs generalizing b with
  | nil => exact ⟨b, rfl⟩
  | cons a rest ih =>
    rw [List.foldlM_cons]
    exact bind_isOk (step b a List.mem_cons_self) fun b' _ =>
      ih (fun b a ha => step b a (List.mem_cons_of_mem _ ha)) b'

/-- What is mapped to a value is a value. -/
theorem map_eq_ok {f : α → β} {x : Outcome α} {b : β} (h : x.map f = .ok b) :
    ∃ a, x = .ok a ∧ f a = b := by
  cases x with
  | error e => cases h
  | ok a => exact ⟨a, rfl, Except.ok.inj h⟩

/-- What is mapped keeps its fault. -/
theorem map_eq_error {f : α → β} {x : Outcome α} {e : Fault} (h : x.map f = .error e) :
    x = .error e := by
  cases x with
  | error e' => exact congrArg Except.error (Except.error.inj h)
  | ok a => cases h

end Outcome

/-! ## 4. Log entries -/

/-- How serious a log entry is. -/
inductive LogLevel where
  | info
  | warning
  deriving DecidableEq, Repr, Inhabited

/-- The name of a level. -/
def LogLevel.name : LogLevel → String
  | info => "INFO"
  | warning => "WARNING"

/-- One entry of a log. -/
structure LogEntry where
  level : LogLevel
  text : String
  deriving DecidableEq, Repr, Inhabited

/-- The line of an entry: its level, a blank and its text. -/
def LogEntry.line (e : LogEntry) : String := e.level.name ++ " " ++ e.text

end DataLineage
