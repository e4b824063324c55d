import DataLineage.Document.Markup
import DataLineage.Document.Plain
import DataLineage.Value.Key

/-!
# What markup stands for

A scalar between quotes is a text, a plain one is what it is written like. Fields are identified by
their keys: a later field with an equal key takes the place of the earlier one. A key is a scalar.
The fields of the records under the key `<<` come first, so the fields beside that key win
(`Markup.flatten`).

When several nodes stand for nothing, the first of them level by level is the fault
(`Markup.check`): the scalars directly in a collection come before those further inside.

* `Markup.value_text` -- a scalar between quotes is its text.
* `Record.valueOf?_put` -- what is put under a key is found under it.
-/

namespace DataLineage

/-! ## 1. Fields -/

/-- The fields with one more; a field with an equal key keeps its place and name and takes the
value. -/
def Record.put : Record → Scalar → Value → Record
  | [], name, v => [(name, v)]
  | f :: rest, name, v =>
    if f.1.key = name.key then (f.1, v) :: rest else f :: Record.put rest name v

/-- **What is put under a key is found under it.** -/
theorem Record.valueOf?_put (r : Record) (name : Scalar) (v : Value) :
    (Record.put r name v).valueOf? name.key = some v := by
  induction r with
  | nil => simp [Record.put, Record.valueOf?]
  | cons f rest ih =>
    by_cases h : f.1.key = name.key
    · simp [Record.put, Record.valueOf?, h]
    · simpa [Record.put, Record.valueOf?, h] using ih

namespace Markup

/-! ## 2. Scalars -/

/-- What a scalar stands for. -/
def scalarOf (plain : Bool) (text : String) : Outcome Scalar :=
  if plain then Plain.resolve text else .ok (.text text)

/-- What a key stands for: only scalars are keys, and the word for a value is a text. -/
def keyOf : Markup → Outcome Scalar
  | .scalar plain text => scalarOf (plain && text != Plain.valueWord) text
  | _ => .error .malformedDocument

/-- Is it the key of merged records? -/
def isMerge : Markup → Bool
  | .scalar plain text => plain && text == Plain.mergeWord
  | _ => false

/-! ## 3. Merged records -/

mutual

/-- The fields of the records that are merged into the fields. -/
def merged : List (Markup × Markup) → Outcome (List (Markup × Markup))
  | [] => .ok []
  | (key, value) :: rest => do
    let here ← if isMerge key then mergedFrom value else pure []
    return here ++ (← merged rest)

/-- The fields of a record, or of several ones, the last first. -/
def mergedFrom : Markup → Outcome (List (Markup × Markup))
  | .mapping fields => do return (← merged fields) ++ fields.filter fun f => !isMerge f.1
  | .sequence items => do return (← mergedItems items).reverse.flatten
  | .scalar _ _ => .error .malformedDocument

/-- The fields of each of several records. -/
def mergedItems : List Markup → Outcome (List (List (Markup × Markup)))
  | [] => .ok []
  | .mapping fields :: rest => do
    let first ← merged fields
    return (first ++ fields.filter fun f => !isMerge f.1) :: (← mergedItems rest)
  | _ :: _ => .error .malformedDocument

end

/-- **All fields, those of merged records first.** -/
def flatten (fields : List (Markup × Markup)) : Outcome (List (Markup × Markup)) := do
  return (← merged fields) ++ fields.filter fun f => !isMerge f.1

/-! ## 4. Faults -/

/-- A scalar has to stand for something now, a collection is looked into later. -/
def later : Markup → Outcome (List Markup)
  | .scalar plain text => (scalarOf plain text).map fun _ => []
  | collection => .ok [collection]

/-- The collections directly in a node, if the scalars directly in it stand for something. -/
def inner : Markup → Outcome (List Markup)
  | .sequence items => do return (← items.mapM later).flatten
  | .mapping fields => do
    let parts ← (← flatten fields).mapM fun f => do
      discard (keyOf f.1)
      later f.2
    return parts.flatten
  | .scalar plain text => later (.scalar plain text)

/-- Do all nodes stand for something? They are looked at level by level. -/
def check : Nat → List Markup → Outcome Unit
  | 0, _ => .ok ()
  | _, [] => .ok ()
  | depth + 1, nodes => do check depth (← nodes.mapM inner).flatten

/-! ## 5. Values -/

/-- What a node of at most the given depth stands for. -/
def valueWithin : Nat → Markup → Outcome Value
  | _, .scalar plain text => (scalarOf plain text).map .scalar
  | 0, _ => .error .malformedDocument
  | depth + 1, .sequence items => do return .list (← items.mapM (valueWithin depth))
  | depth + 1, .mapping fields => do
    let fields ← (← flatten fields).mapM fun f => do
      return (← keyOf f.1, ← valueWithin depth f.2)
    return .record (fields.foldl (fun r f => Record.put r f.1 f.2) [])

/-- **What a node of at most the given depth stands for**, or the first fault level by level. -/
def value (depth : Nat) (n : Markup) : Outcome Value := do
  check depth [n]
  valueWithin depth n

/-- **A scalar between quotes is its text.** -/
theorem value_text (depth : Nat) (text : String) :
    value depth (.scalar false text) = .ok (.text text) := by
  cases depth with
  | zero => rfl
  | succ depth => cases depth <;> rfl

end Markup

end DataLineage
