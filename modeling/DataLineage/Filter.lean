import DataLineage.Graph.Basic

/-!
# Filters

A criterion compares one attribute of a vertex with a value by one of seven operators; several
criteria hold together when each of them does. A request gives criteria as records, which are
checked before anything is filtered.

* `FilterOperator.ofName?_name`, `FilterOperator.name_mem` -- the operators are the named ones.
* `Criterion.test_neq_missing`, `Criterion.test_eq_missing` -- a missing attribute differs from
  every value.
* `Criterion.test_eq_error` -- a test fails only where a set is asked for a list or a record, or a
  text for what cannot be written.
* `admitsAll_append` -- appended criteria are asked only where the first ones hold.
-/

namespace DataLineage

/-! ## 1. Operators -/

/-- How a criterion compares. -/
inductive FilterOperator where
  | eq
  | neq
  | among
  | notAmong
  | startsWith
  | contains
  | present
  deriving DecidableEq, Repr, Inhabited

namespace FilterOperator

/-- The name of an operator. -/
def name : FilterOperator → String
  | eq => "eq"
  | neq => "neq"
  | among => "in"
  | notAmong => "not_in"
  | startsWith => "startswith"
  | contains => "contains"
  | present => "exists"

/-- The operator of a name. -/
def ofName? : String → Option FilterOperator
  | "eq" => some eq
  | "neq" => some neq
  | "in" => some among
  | "not_in" => some notAmong
  | "startswith" => some startsWith
  | "contains" => some contains
  | "exists" => some present
  | _ => none

/-- **An operator is found by its name.** -/
theorem ofName?_name (op : FilterOperator) : ofName? op.name = some op := by
  cases op <;> rfl

/-- The names of the operators are the ones that messages list. -/
theorem name_mem (op : FilterOperator) : op.name ∈ operatorNames := by
  cases op <;> simp [name, operatorNames]

/-- The operator that a value names. -/
def parse (given : Value) : Outcome FilterOperator := do
  match ← given.key with
  | .text s =>
    match ofName? s with
    | some op => return op
    | none => throw (.lineage (.unknownOperator given) .null)
  | _ => throw (.lineage (.unknownOperator given) .null)

end FilterOperator

/-- The values among which one is looked for: those of a list or a set, or the value itself. -/
def Value.alternatives : Value → List Value
  | .list items => items
  | .set members => members.map .scalar
  | v => [v]

/-! ## 2. Criteria -/

/-- **A condition on one attribute.** -/
structure Criterion where
  subject : Value
  operator : FilterOperator
  value : Value
  deriving Repr, Inhabited

namespace Criterion

/-- The attribute that stands for the type of a vertex. -/
def typeNameAttribute : String := "__typeName"

/-- The criterion with the given parts, if the operator is one. -/
def make (subject operator value : Value) : Outcome Criterion := do
  return { subject, operator := ← FilterOperator.parse operator, value }

/-- A field that a described criterion needs. -/
def required (description : Value) (fields : Record) (name : String) : Outcome Value :=
  match Record.get? fields name with
  | some v => .ok v
  | none => .error (.lineage (.criterionWithout name description) .null)

/-- The criterion that a record describes. -/
def ofValue (description : Value) : Outcome Criterion :=
  match description with
  | .record fields => do
    let subject ← required description fields "attributeName"
    let operator ← required description fields "operator"
    make subject operator (Record.get fields "attributeValue")
  | _ => .error .wrongKind

/-- Does an actual value, if there is one, stand in the relation to the expected one? A set can only
be asked for what can be its member, and a text only for what can be written. -/
def test (op : FilterOperator) (actual : Option Value) (expected : Value) : Outcome Bool :=
  match op, actual with
  | .eq, some a => .ok (a.equal expected)
  | .eq, none => .ok false
  | .neq, some a => .ok (!a.equal expected)
  | .neq, none => .ok true
  | .among, some a => .ok (a.isIn expected.alternatives)
  | .among, none => .ok false
  | .notAmong, some a => .ok (!a.isIn expected.alternatives)
  | .notAmong, none => .ok true
  | .startsWith, some (.text s) => expected.written.map fun start => Text.hasStart start s
  | .startsWith, _ => .ok false
  | .contains, some (.list items) => .ok (expected.isIn items)
  | .contains, some (.set members) => expected.isMember members
  | .contains, some (.text s) => expected.written.map fun part => Text.hasPart part s
  | .contains, _ => .ok false
  | .present, some a => .ok ((!a.isNull) == (expected.isNull || expected.truth))
  | .present, none => .ok (!(expected.isNull || expected.truth))

/-- A missing attribute differs from every value. -/
theorem test_neq_missing (expected : Value) : test .neq none expected = .ok true := rfl

/-- A missing attribute equals no value. -/
theorem test_eq_missing (expected : Value) : test .eq none expected = .ok false := rfl

/-- **Only two tests fail.** One asks a set whether it contains a list or a record, the other asks a
text for a part, or for a start, that cannot be written. -/
theorem test_eq_error {op : FilterOperator} {actual : Option Value} {expected : Value} {e : Fault}
    (h : test op actual expected = .error e) :
    (op = .contains ∧ (∃ members, actual = some (.set members)) ∧ e = .wrongKind ∧
      ((∃ items, expected = .list items) ∨ ∃ fields, expected = .record fields)) ∨
    ((op = .startsWith ∨ op = .contains) ∧ (∃ s, actual = some (.text s)) ∧ e = .badValue ∧
      expected.isWritable = false) := by
  unfold test at h
  split at h <;> try cases h
  · next s => exact .inr ⟨.inl rfl, ⟨s, rfl⟩, Value.written_error (Outcome.map_eq_error h)⟩
  · next members => exact .inl ⟨rfl, ⟨members, rfl⟩, Value.isMember_error h⟩
  · next s => exact .inr ⟨.inr rfl, ⟨s, rfl⟩, Value.written_error (Outcome.map_eq_error h)⟩

/-- The value that the criterion looks at. -/
def actual (c : Criterion) (v : Vertex) : Outcome (Option Value) := do
  if c.subject.same (.text typeNameAttribute) then
    return some v.typeName
  return Record.valueOf? v.properties (← c.subject.key)

/-- **Does the criterion hold of the vertex?** -/
def holds (c : Criterion) (v : Vertex) : Outcome Bool := do
  test c.operator (← c.actual v) c.value

end Criterion

/-- Do all criteria hold of the vertex? The first that does not decides. -/
def admitsAll : List Criterion → Vertex → Outcome Bool
  | [], _ => .ok true
  | c :: rest, v => do
    if ← c.holds v then admitsAll rest v else return false

/-- **Appended criteria are asked only where the first ones hold.** -/
theorem admitsAll_append (first more : List Criterion) (v : Vertex) :
    admitsAll (first ++ more) v =
      (do if ← admitsAll first v then admitsAll more v else return false) := by
  induction first with
  | nil => rfl
  | cons c rest ih =>
    simp only [List.cons_append, admitsAll, ih, bind, Except.bind]
    cases c.holds v with
    | error e => rfl
    | ok b => cases b <;> rfl

/-- A condition that vertices are tested by. -/
abbrev VertexPredicate := Vertex → Outcome Bool

/-- Criteria are one condition: that all of them hold. -/
instance : Coe (List Criterion) VertexPredicate := ⟨admitsAll⟩

/-! ## 3. Given criteria -/

/-- One given criterion: made already, or still described by a value. -/
inductive GivenCriterion where
  | made (c : Criterion)
  | described (v : Value)
  deriving Repr, Inhabited

/-- The criterion that is given. -/
def GivenCriterion.criterion : GivenCriterion → Outcome Criterion
  | made c => .ok c
  | described v => Criterion.ofValue v

/-- Given criteria: a list of them, or a value in its place. -/
inductive GivenCriteria where
  | items (given : List GivenCriterion)
  | value (v : Value)
  deriving Repr, Inhabited

namespace GivenCriteria

/-- No criteria at all. -/
def absent : GivenCriteria := value .null

/-- The given criteria one by one; a value that counts as false gives none. -/
def toList : GivenCriteria → Outcome (List GivenCriterion)
  | items given => .ok given
  | value v => do return (← v.elementsOrNone).map .described

/-- **The criteria that are given**, or the first fault among them. -/
def criteria (given : GivenCriteria) : Outcome (List Criterion) := do
  (← given.toList).mapM GivenCriterion.criterion

end GivenCriteria

end DataLineage
