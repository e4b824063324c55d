import DataLineage.Value.Basic

/-!
# Identity of scalars, equality of values

Two scalars are the same thing when their keys agree (`Scalar.key`): numbers by their exact value,
whatever kind of number they are, and a truth value as 0 or 1; texts by their characters; moments by
their kind and their place in time. Lists are the same item by item, records field by field and sets
member by member whatever the order (`Value.same`). What is not a number is the same thing as
itself, but equal to nothing (`Value.equal`).

* `Value.same_refl_scalar`, `Value.same_scalar_iff` -- sameness of scalars is equality of keys.
* `Value.equal_of_text` -- for a text, equal and the same are one.
* `Scalar.key_bool`, `Scalar.key_float` -- numbers of different kinds share keys.
* `Scalar.same_iff` -- scalars are compared by their keys.
* `Record.valueOf?_text` -- the field of a text key is the field of that name.
-/

namespace DataLineage

/-! ## 1. Keys -/

/-- What a scalar is identified by. -/
inductive Key where
  | null
  | number (q : Rat)
  | infinite (negative : Bool)
  | nan
  | text (s : String)
  | moment (kind : MomentKind) (place : Int)
  deriving DecidableEq, Hashable, Repr, Inhabited

/-- The key of a double: its exact value. -/
def Double.key : Double → Key
  | .finite negative m e => .number (Double.scaled (if negative then -(m : Int) else m) e)
  | .infinite negative => .infinite negative
  | .nan => .nan

namespace Scalar

/-- **The identity of a scalar.** -/
def key : Scalar → Key
  | .null => .null
  | .bool b => .number (if b then 1 else 0)
  | .int n => .number n
  | .float x => x.key
  | .text s => .text s
  | .moment m => .moment m.kind m.place

/-- A truth value is the number 0 or 1. -/
theorem key_bool (b : Bool) : (Scalar.bool b).key = (Scalar.int (if b then 1 else 0)).key := by
  cases b <;> rfl

/-- A double without fraction is the whole number that it equals. -/
theorem key_float (n : Nat) : (Scalar.float (.finite false n 0)).key = (Scalar.int n).key := by
  simp [key, Double.key, Double.scaled]

/-- Are two scalars the same thing? -/
def same : Scalar → Scalar → Bool
  | .text s, .text t => s == t
  | a, b => a.key == b.key

theorem same_eq (a b : Scalar) : a.same b = (a.key == b.key) := by
  unfold same
  split
  · rw [Bool.eq_iff_iff]
    simp [key]
  · rfl

/-- **Scalars are the same exactly when their keys are.** -/
theorem same_iff (a b : Scalar) : a.same b = true ↔ a.key = b.key := by simp [same_eq]

/-- Is one of the scalars the same thing? -/
def isAmong (s : Scalar) (members : List Scalar) : Bool := members.any fun t => s.key == t.key

/-- Only a text has the key of a text. -/
theorem key_eq_text_iff (a : Scalar) (s : String) : a.key = .text s ↔ a = .text s := by
  cases a with
  | float x => cases x <;> simp [key, Double.key]
  | _ => simp [key]

end Scalar

/-! ## 2. Fields by key -/

namespace Record

/-- The value of the first field whose name has the key. -/
def valueOf? (r : Record) (key : Key) : Option Value :=
  (r.find? fun f => f.1.key == key).map (·.2)

/-- Is there a field whose name has the key? -/
def hasKey (r : Record) (key : Key) : Bool := (valueOf? r key).isSome

/-- **The field of a text key is the field of that name.** -/
theorem valueOf?_text (r : Record) (name : String) : valueOf? r (.text name) = get? r name := by
  have h (f : Scalar × Value) : (f.1.key == Key.text name) = (f.1 == .text name) := by
    rw [Bool.eq_iff_iff]
    simp [Scalar.key_eq_text_iff]
  simp [valueOf?, get?, h]

end Record

/-! ## 3. Sameness and equality of values -/

namespace Value

mutual

/-- Sameness of values: scalars by key, lists item by item, records field by field, sets member by
member. -/
def same : Value → Value → Bool
  | .scalar a, .scalar b => a.key == b.key
  | .list xs, .list ys => sameItems xs ys
  | .record xs, .record ys => xs.length == ys.length && sameFields xs ys
  | .set xs, .set ys => xs.all (·.isAmong ys) && ys.all (·.isAmong xs)
  | _, _ => false

/-- Sameness of lists of values, item by item. -/
def sameItems : List Value → List Value → Bool
  | [], [] => true
  | x :: xs, y :: ys => same x y && sameItems xs ys
  | _, _ => false

/-- Every field of the first record has the same field in the second. -/
def sameFields : List (Scalar × Value) → Record → Bool
  | [], _ => true
  | (name, v) :: rest, ys =>
    (match Record.valueOf? ys name.key with
      | some w => same v w
      | none => false) && sameFields rest ys

end

/-- **Scalars are the same exactly when their keys agree.** -/
theorem same_scalar_iff (a b : Scalar) :
    same (.scalar a) (.scalar b) = true ↔ a.key = b.key := by
  simp [same]

/-- A scalar is the same as itself. -/
theorem same_refl_scalar (a : Scalar) : same (.scalar a) (.scalar a) = true := by
  simp [same]

/-- Is some item the same as the value? -/
def isIn (v : Value) (items : List Value) : Bool := items.any fun w => same v w

/-- Equality of values: what is the same is equal, but for what is not a number. -/
def equal (v w : Value) : Bool :=
  match v with
  | .float .nan => false
  | v => same v w

/-- For a text, equal and the same are one. -/
theorem equal_of_text (s : String) (w : Value) : equal (.text s) w = same (.text s) w := rfl

end Value

end DataLineage
