import DataLineage.Decimal.Double

/-!
# The shortest decimal of a double

Every double is the nearest double to a whole interval of reals. Its shortest decimal is the one
with the fewest digits in that interval and, among those, the nearest to the double
(`Shortest.digits`). The search tries one digit, then two, and so on; on each decimal grid only the
two neighbours of the value can be the nearest hit.

* `Shortest.nearestHit_readsBack` -- what a grid offers lies in the interval.
-/

namespace DataLineage

/-- A positive finite double, `mantissa * 2 ^ exponent`. -/
structure Magnitude where
  mantissa : Nat
  exponent : Int
  deriving Repr

/-- The decimal number `digits * 10 ^ exponent`. -/
structure DecimalNumber where
  digits : Nat
  exponent : Int
  deriving DecidableEq, Repr

namespace Shortest

/-- Compares `a * 10 ^ i` with `n * 2 ^ j`, exactly. -/
def compareScaled (a : Nat) (i : Int) (n : Nat) (j : Int) : Ordering :=
  compare (a * Nat.pow 10 i.toNat * Nat.pow 2 (-j).toNat)
    (n * Nat.pow 2 j.toNat * Nat.pow 10 (-i).toNat)

/-- The gap to the double below is half the gap above just where the mantissa starts a new power
of two, except at the bottom of the range. -/
def narrowBelow (x : Magnitude) : Bool := x.mantissa == Nat.pow 2 52 && x.exponent > -1074

/-- **Does the decimal round to the double?** It does between the two halfway points, and on them
when the mantissa is even. -/
def readsBack (x : Magnitude) (d : DecimalNumber) : Bool :=
  let lo := if narrowBelow x then 4 * x.mantissa - 1 else 4 * x.mantissa - 2
  let hi := 4 * x.mantissa + 2
  let ends := x.mantissa % 2 == 0
  let below := compareScaled d.digits d.exponent lo (x.exponent - 2)
  let above := compareScaled d.digits d.exponent hi (x.exponent - 2)
  (below == .gt || (ends && below == .eq)) && (above == .lt || (ends && above == .eq))

/-- The multiple of `10 ^ grid` at or just below the double, as a count of grid steps. -/
def stepsBelow (x : Magnitude) (grid : Int) : Nat :=
  (x.mantissa * Nat.pow 2 x.exponent.toNat * Nat.pow 10 (-grid).toNat) /
    (Nat.pow 2 (-x.exponent).toNat * Nat.pow 10 grid.toNat)

/-- The neighbour of the double on the grid that reads back; of two, the nearer, and on a tie the
even one. -/
def nearestHit (x : Magnitude) (grid : Int) : Option DecimalNumber :=
  let d := stepsBelow x grid
  let below : DecimalNumber := ⟨d, grid⟩
  let above : DecimalNumber := ⟨d + 1, grid⟩
  if readsBack x below then
    if readsBack x above then
      match compareScaled (2 * d + 1) grid x.mantissa (x.exponent + 1) with
      | .gt => some below
      | .lt => some above
      | .eq => some (if d % 2 = 0 then below else above)
    else some below
  else if readsBack x above then some above
  else none

/-- **What a grid offers reads back.** -/
theorem nearestHit_readsBack (x : Magnitude) (grid : Int) (d : DecimalNumber)
    (h : nearestHit x grid = some d) : readsBack x d = true := by
  simp only [nearestHit] at h
  split at h
  · split at h
    · split at h
      · cases h; assumption
      · cases h; assumption
      · split at h <;> cases h <;> assumption
    · cases h; assumption
  · split at h
    · cases h; assumption
    · cases h

/-- The least `k` with the double below `10 ^ k`, from an estimate that is at most one short. -/
def decimalOrder (x : Magnitude) : Int :=
  let estimate : Int := ((x.mantissa.log2 : Int) + x.exponent) * 30103 / 100000
  if compareScaled 1 estimate x.mantissa x.exponent == .gt then estimate
  else if compareScaled 1 (estimate + 1) x.mantissa x.exponent == .gt then estimate + 1
  else estimate + 2

/-- Trailing zeros of the digits move into the exponent. -/
def stripZeros : Nat → DecimalNumber → DecimalNumber
  | 0, d => d
  | fuel + 1, d =>
    if d.digits % 10 = 0 ∧ d.digits ≠ 0 then stripZeros fuel ⟨d.digits / 10, d.exponent + 1⟩ else d

/-- The exact decimal value of the double, for the case that no grid has a hit. -/
def exact (x : Magnitude) : DecimalNumber :=
  ⟨x.mantissa * Nat.pow 2 x.exponent.toNat * Nat.pow 5 (-x.exponent).toNat, min x.exponent 0⟩

/-- **The shortest decimal that reads back**, without trailing zeros. -/
def digits (x : Magnitude) : DecimalNumber :=
  let order := decimalOrder x
  let found := (List.range 17).findSome? fun (n : Nat) => nearestHit x (order - (n + 1 : Nat))
  let d := found.getD (exact x)
  stripZeros (Nat.toDigits 10 d.digits).length d

example : digits ⟨7205759403792794, -56⟩ = ⟨1, -1⟩ := by decide +kernel
example : digits ⟨1, -1074⟩ = ⟨5, -324⟩ := by decide +kernel

end Shortest

end DataLineage
