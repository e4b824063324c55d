import DataLineage.Decimal.Double
import DataLineage.Value.Moment

/-!
# Values

The data that documents, properties and requests are made of. A `Scalar` is a single piece of data
and can identify things; a `Value` is a scalar, a list of values, a record of named values in their
written order, or a set of scalars. The names in a record are texts as a rule, but any scalar can be
one. No document holds a set; a program that adds vertices can give them one as a property.

* `Record.get?_cons` -- a field is found by the first entry with its name.
* `Value.truth_record` -- a record counts as true exactly when it has a field.
-/

namespace DataLineage

/-! ## 1. Scalars and values -/

/-- A single piece of data: nothing, a truth value, a whole number of any size, a double, a text, or
a moment. -/
inductive Scalar where
  | null
  | bool (b : Bool)
  | int (n : Int)
  | float (x : Double)
  | text (s : String)
  | moment (m : Moment)
  deriving DecidableEq, Repr, Inhabited

/-- A text is a scalar. -/
instance : Coe String Scalar := ⟨.text⟩

/-- A scalar, a list, a record: named values in their written order, no name twice; or a set: its
members in the order in which they are gone through, no member twice. -/
inductive Value where
  | scalar (s : Scalar)
  | list (items : List Value)
  | record (fields : List (Scalar × Value))
  | set (members : List Scalar)
  deriving Repr, Inhabited

/-- Named values in their written order. -/
abbrev Record := List (Scalar × Value)

namespace Value

/-- No value. -/
@[match_pattern] abbrev null : Value := .scalar .null

/-- A truth value. -/
@[match_pattern] abbrev bool (b : Bool) : Value := .scalar (.bool b)

/-- A whole number. -/
@[match_pattern] abbrev int (n : Int) : Value := .scalar (.int n)

/-- A double. -/
@[match_pattern] abbrev float (x : Double) : Value := .scalar (.float x)

/-- A text. -/
@[match_pattern] abbrev text (s : String) : Value := .scalar (.text s)

/-- Is it the null value? -/
def isNull : Value → Bool
  | .null => true
  | _ => false

theorem isNull_iff (v : Value) : v.isNull = true ↔ v = .null := by
  unfold isNull
  split
  · exact ⟨fun _ => rfl, fun _ => rfl⟩
  · rename_i h
    exact ⟨fun h' => (nomatch h'), fun h' => absurd h' h⟩

/-- A scalar other than null is not the null value. -/
theorem isNull_scalar {s : Scalar} (h : s ≠ .null) : (Value.scalar s).isNull = false :=
  Bool.eq_false_iff.mpr fun hn => h (Value.scalar.inj ((isNull_iff _).mp hn))

end Value

/-! ## 2. Fields of a record -/

namespace Record

/-- The value of the first field with the name. -/
def get? (r : Record) (name : String) : Option Value :=
  (r.find? fun f => f.1 == .text name).map (·.2)

/-- Is there a field with the name? -/
def has (r : Record) (name : String) : Bool := (get? r name).isSome

/-- The value of the field, null where there is none. -/
def get (r : Record) (name : String) : Value := (get? r name).getD .null

/-- The record without the fields of that name. -/
def erase (r : Record) (name : String) : Record := r.filter fun f => f.1 != .text name

@[simp] theorem get?_nil (name : String) : get? [] name = none := rfl

/-- **The first field with the name is found.** -/
theorem get?_cons (n : Scalar) (v : Value) (r : Record) (name : String) :
    get? ((n, v) :: r) name = if n = .text name then some v else get? r name := by
  by_cases h : n = .text name <;> simp [get?, h]

end Record

/-! ## 3. Truth -/

namespace Scalar

/-- A scalar counts as true unless it is null, false, a zero or the empty text. -/
def truth : Scalar → Bool
  | .null => false
  | .bool b => b
  | .int n => n != 0
  | .float (.finite _ m _) => m != 0
  | .float _ => true
  | .text s => !s.isEmpty
  | .moment _ => true

end Scalar

namespace Value

/-- A value counts as true unless it is a false scalar, or empty. -/
def truth : Value → Bool
  | .scalar s => s.truth
  | .list items => !items.isEmpty
  | .record fields => !fields.isEmpty
  | .set members => !members.isEmpty

/-- A record counts as true exactly when it has a field. -/
theorem truth_record (fields : Record) : (Value.record fields).truth = true ↔ fields ≠ [] := by
  cases fields <;> simp [truth]

/-- The value if it counts as true, otherwise the fallback. -/
def orElse (v fallback : Value) : Value := if v.truth then v else fallback

/-- The name of the kind of a value, as reports write it. -/
def kindName : Value → String
  | .null => "NoneType"
  | .bool _ => "bool"
  | .int _ => "int"
  | .float _ => "float"
  | .text _ => "str"
  | .scalar (.moment (.day _)) => "date"
  | .scalar (.moment _) => "datetime"
  | .list _ => "list"
  | .record _ => "dict"
  | .set _ => "set"

end Value

end DataLineage
