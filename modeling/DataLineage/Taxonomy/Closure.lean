import DataLineage.Taxonomy.Basic
import Std.Data.HashSet

/-!
# Closures of types

The closure of a type is the type itself and the closures of its direct supertypes. It is computed
depth first over the declared types; a type met again on the way up is a cycle, reported as the
chain that leads back to it. A chain without repetition is no longer than the list of types, which
bounds the recursion.

* `Closure.mem_union_iff`, `Closure.mem_union` -- a union holds what either side holds.
* `Closure.chain_texts` -- a cycle of types that are named by texts is reported.
-/

namespace DataLineage

/-- Declared types with their direct supertypes. -/
abbrev Declarations := List (Scalar × List Scalar)

namespace Declarations

/-- The direct supertypes of a type. -/
def superTypes (ds : Declarations) (name : Key) : List Scalar :=
  ((ds.find? fun d => d.1.key == name).map (·.2)).getD []

end Declarations

namespace Closure

/-- Closures that are known already. -/
abbrev Known := List (Key × List Scalar)

/-- Is a scalar with the key in the list? -/
def has (xs : List Scalar) (key : Key) : Bool := xs.any fun x => x.key == key

/-- The first list and what the second adds to it. -/
def union (xs ys : List Scalar) : List Scalar :=
  let keys := Std.HashSet.ofList (xs.map Scalar.key)
  xs ++ ys.filter fun y => !keys.contains y.key

/-- A member of a union is one of the first list, or one of the second whose key is new. -/
theorem mem_union_iff (xs ys : List Scalar) (z : Scalar) :
    z ∈ union xs ys ↔ z ∈ xs ∨ z ∈ ys ∧ has xs z.key = false := by
  simp [union, has, Std.HashSet.contains_ofList]

/-- **A union holds what either side holds.** -/
theorem mem_union (xs ys : List Scalar) (k : Key) :
    has (union xs ys) k = (has xs k || has ys k) := by
  have mem (zs : List Scalar) (k : Key) : has zs k = true ↔ ∃ z ∈ zs, z.key = k := by simp [has]
  rw [Bool.eq_iff_iff, Bool.or_eq_true, mem, mem, mem]
  simp only [mem_union_iff]
  constructor
  · rintro ⟨z, hx | hy, hk⟩
    · exact .inl ⟨z, hx, hk⟩
    · exact .inr ⟨z, hy.1, hk⟩
  · rintro (⟨x, hx, hk⟩ | ⟨y, hy, hk⟩)
    · exact ⟨x, .inl hx, hk⟩
    · cases h : has xs y.key with
      | false => exact ⟨y, .inr ⟨hy, h⟩, hk⟩
      | true =>
        obtain ⟨x, hx, hxk⟩ := (mem ..).mp h
        exact ⟨x, .inl hx, hxk.trans hk⟩

/-- The fault of a chain that leads back to its first type. It is told only where all its types are
named by texts. -/
def cycle (chain : List Scalar) : Fault :=
  match chain.mapM fun s => match s with
    | .text name => some name
    | _ => none with
  | some names => .typeModel (.cycle names)
  | none => .wrongKind

/-- **A cycle of types that are named by texts is reported.** -/
theorem chain_texts (names : List String) :
    cycle (names.map .text) = .typeModel (.cycle names) := by
  have h : ((names.map Scalar.text).mapM fun s => match s with
      | .text name => some name
      | _ => none) = some names := by
    induction names with
    | nil => rfl
    | cons n rest ih => simp [ih]
  simp [cycle, h]

mutual

/-- The closure of a type; `path` is the chain of types below it, nearest first. -/
def resolve (ds : Declarations) (fuel : Nat) (path : List Scalar) (known : Known) (name : Scalar) :
    Outcome (List Scalar × Known) :=
  match known.lookup name.key with
  | some closure => .ok (closure, known)
  | none =>
    if has path name.key then
      .error (cycle ((path.reverse.dropWhile fun s => s.key != name.key) ++ [name]))
    else
      match fuel with
      | 0 => .error (cycle (path.reverse ++ [name]))
      | fuel + 1 =>
        match resolveAll ds fuel (name :: path) known (ds.superTypes name.key) [name] with
        | .ok (closure, known) => .ok (closure, (name.key, closure) :: known)
        | .error e => .error e
termination_by (fuel, 0)

/-- The union of a closure so far and the closures of the given types. -/
def resolveAll (ds : Declarations) (fuel : Nat) (path : List Scalar) (known : Known) :
    List Scalar → List Scalar → Outcome (List Scalar × Known)
  | [], closure => .ok (closure, known)
  | name :: rest, closure =>
    match resolve ds fuel path known name with
    | .ok (more, known) => resolveAll ds fuel path known rest (union closure more)
    | .error e => .error e
termination_by names _ => (fuel, names.length + 1)

end

/-- The closures of all declared types, each after those it needs. -/
def all (ds : Declarations) : Outcome Known :=
  ds.foldlM (fun known d => do
    let (_, known) ← resolve ds (ds.length + 1) [] known d.1
    return known) []

end Closure

end DataLineage
