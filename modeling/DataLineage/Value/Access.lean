import DataLineage.Fault
import DataLineage.Value.Order
import DataLineage.Text.Basic

/-!
# Operations on values that can fail

Documents and requests may hold a value of any kind in any place. Each operation here takes the
kinds it is meant for and answers a fault for the others: only scalars identify something, only
lists, texts, records and sets have elements, only records have fields.

* `Value.key_eq_ok_iff` -- a value has a key exactly when it is a scalar.
* `Value.isMember_error`, `Value.written_error` -- what cannot be looked for in a set, and what
  cannot be written.
-/

namespace DataLineage.Value

/-- The scalar of a value that can identify something. -/
def identifier : Value → Outcome Scalar
  | .scalar s => .ok s
  | _ => .error .wrongKind

/-- **The identity of a value**: lists, records and sets have none. -/
def key : Value → Outcome Key
  | .scalar s => .ok s.key
  | _ => .error .wrongKind

theorem key_eq_ok_iff (v : Value) (k : Key) : v.key = .ok k ↔ ∃ s, v = .scalar s ∧ s.key = k := by
  cases v <;> simp [key]

/-- The elements of a value: the items of a list, the characters of a text, the names of a record,
the members of a set. -/
def elements : Value → Outcome (List Value)
  | .list items => .ok items
  | .text s => .ok (s.toList.map fun c => .text c.toString)
  | .record fields => .ok (fields.map fun f => .scalar f.1)
  | .set members => .ok (members.map .scalar)
  | _ => .error .wrongKind

/-- The elements of a value, none for a value that counts as false. -/
def elementsOrNone (v : Value) : Outcome (List Value) :=
  if v.truth then v.elements else .ok []

/-- The field of a record; anything but a record has no fields to ask for. -/
def field? (v : Value) (name : String) : Outcome (Option Value) :=
  match v with
  | .record fields => .ok (Record.get? fields name)
  | _ => .error .noSuchOperation

/-- The field of a record, null where it is missing. -/
def field (v : Value) (name : String) : Outcome Value := do
  return (← v.field? name).getD .null

/-- The distinct scalars of a list, each at its first place. -/
def distinctScalars (items : List Value) : Outcome (List Scalar) := do
  let scalars ← items.mapM identifier
  return scalars.foldl
    (fun seen s => if seen.any fun t => t.key = s.key then seen else seen ++ [s]) []

/-- The items in ascending order, if every two of them have an order. -/
def sortScalars (items : List Scalar) : Outcome (List Scalar) :=
  match sortBy? Scalar.family? Scalar.compare? items with
  | some sorted => .ok sorted
  | none => .error .wrongKind

/-- Is the value a member of the set? Only what identifies something can be looked for; another set
never is a member, as sets have scalars alone. -/
def isMember (v : Value) (members : List Scalar) : Outcome Bool :=
  match v with
  | .scalar s => .ok (s.isAmong members)
  | .set _ => .ok false
  | _ => .error .wrongKind

/-- **Only a list or a record cannot be looked for** in a set. -/
theorem isMember_error {v : Value} {members : List Scalar} {e : Fault}
    (h : v.isMember members = .error e) :
    e = .wrongKind ∧ ((∃ items, v = .list items) ∨ ∃ fields, v = .record fields) := by
  cases v with
  | scalar s => cases h
  | list items => exact ⟨(Except.error.inj h).symm, .inl ⟨items, rfl⟩⟩
  | record fields => exact ⟨(Except.error.inj h).symm, .inr ⟨fields, rfl⟩⟩
  | set members => cases h

/-- The text of a value, if it can be written. -/
def written (v : Value) : Outcome String :=
  if v.isWritable then .ok v.display else .error .badValue

/-- **Writing fails in one way**: the value holds a number that is too long. -/
theorem written_error {v : Value} {e : Fault} (h : v.written = .error e) :
    e = .badValue ∧ v.isWritable = false := by
  unfold written at h
  split at h
  · cases h
  · next hv => exact ⟨(Except.error.inj h).symm, Bool.eq_false_iff.mpr hv⟩

/-- Is the value one of the elements of the other? A text holds its parts, a list items equal to
the value, a record its names, a set its members. -/
def isElementOf (v container : Value) : Outcome Bool :=
  match container with
  | .list items => .ok (v.isIn items)
  | .text s =>
    match v with
    | .text part => .ok (Text.hasPart part s)
    | _ => .error .wrongKind
  | .record fields => do return Record.hasKey fields (← v.key)
  | .set members => v.isMember members
  | _ => .error .wrongKind

end DataLineage.Value
