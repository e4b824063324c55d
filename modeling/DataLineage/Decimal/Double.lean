/-!
# Doubles as exact numbers

A double is kept as the number it stands for: a sign, a mantissa and a power of two
(`Double.finite`), an infinity, or no number at all. Rounding to a double is exact integer
arithmetic: the nearest multiple of the spacing at that magnitude, halves to the even neighbour
(`Double.nearest`).

* `roundDiv_near` -- a rounded quotient is within half a unit of the exact one.
* `roundDiv_tie` -- on an exact tie the rounded quotient is even.
-/

namespace DataLineage

/-! ## 1. Rounding a quotient -/

/-- The quotient rounded to the nearest natural number, halves to the even one. -/
def roundDiv (num den : Nat) : Nat :=
  let q := num / den
  let r := num % den
  if 2 * r < den then q
  else if den < 2 * r then q + 1
  else if q % 2 = 0 then q else q + 1

/-- **A rounded quotient is within half a unit of the exact one.** -/
theorem roundDiv_near (num den : Nat) (h : 0 < den) :
    2 * (roundDiv num den * den) ≤ 2 * num + den ∧
      2 * num ≤ 2 * (roundDiv num den * den) + den := by
  have e : den * (num / den) + num % den = num := Nat.div_add_mod num den
  have l : num % den < den := Nat.mod_lt _ h
  simp only [roundDiv]
  generalize num / den = q at *
  generalize num % den = r at *
  have hs : (q + 1) * den = den * q + den := by rw [Nat.add_mul, Nat.mul_comm]; simp
  have hq : q * den = den * q := Nat.mul_comm ..
  generalize den * q = p at *
  split
  · omega
  · split
    · omega
    · split <;> omega

/-- On an exact tie the even neighbour is taken. -/
theorem roundDiv_tie (num den : Nat) (h : 2 * (num % den) = den) : roundDiv num den % 2 = 0 := by
  simp only [roundDiv]
  rw [if_neg (by omega), if_neg (by omega)]
  split <;> omega

/-! ## 2. The numbers -/

/-- A double: `mantissa * 2 ^ exponent` with a sign, an infinity, or what is not a number. Zero has
a sign too. -/
inductive Double where
  | finite (negative : Bool) (mantissa : Nat) (exponent : Int)
  | infinite (negative : Bool)
  | nan
  deriving DecidableEq, Repr, Inhabited

namespace Double

/-- Zero, with the given sign. -/
def zero (negative : Bool) : Double := .finite negative 0 0

/-- The rational number `n * 2 ^ e`. -/
def scaled (n : Int) (e : Int) : Rat :=
  if 0 ≤ e then ((n * (Nat.pow 2 e.toNat : Nat) : Int) : Rat) else mkRat n (Nat.pow 2 (-e).toNat)

/-- The exact value of a double; an infinity and what is not a number have none. -/
def toRat? : Double → Option Rat
  | .finite negative m e => some (scaled (if negative then -(m : Int) else m) e)
  | _ => none

/-- The power of two just below a positive quotient: `2 ^ e ≤ num / den < 2 ^ (e + 1)`. -/
def binaryOrder (num den : Nat) : Int :=
  let e : Int := (num.log2 : Int) - (den.log2 : Int)
  if den * Nat.pow 2 e.toNat ≤ num * Nat.pow 2 (-e).toNat then e else e - 1

/-- **The double nearest to a quotient**, halves to the even mantissa. The spacing is 2 ^ -52 of
the magnitude, and never below 2 ^ -1074; beyond the largest double stands an infinity. -/
def nearest (negative : Bool) (num den : Nat) : Double :=
  if num = 0 then zero negative
  else
    let e := max (binaryOrder num den - 52) (-1074)
    let m := roundDiv (num * Nat.pow 2 (-e).toNat) (den * Nat.pow 2 e.toNat)
    if m = 0 then zero negative
    else
      let (m, e) := if m = Nat.pow 2 53 then (Nat.pow 2 52, e + 1) else (m, e)
      if e > 971 then .infinite negative else .finite negative m e

/-- The double nearest to a rational number; a zero result takes the given sign. -/
def ofRat (negativeZero : Bool) (q : Rat) : Double :=
  nearest (if q.num = 0 then negativeZero else q.num < 0) q.num.natAbs q.den

/-- The double nearest to `digits * 10 ^ exponent`. Beyond four hundred places on either side the
answer is known without computing the power. -/
def ofScientific (negative : Bool) (digits : Nat) (exponent : Int) : Double :=
  let order : Int := (Nat.toDigits 10 digits).length + exponent
  if digits = 0 ∨ order < -400 then zero negative
  else if order > 400 then .infinite negative
  else nearest negative (digits * Nat.pow 10 exponent.toNat)
    (Nat.pow 10 (-exponent).toNat)

/-- The double with the given sign. -/
def withSign (negative : Bool) : Double → Double
  | .finite _ m e => .finite negative m e
  | .infinite _ => .infinite negative
  | .nan => .nan

/-- One less, rounded to a double. -/
def pred (x : Double) : Double :=
  match x.toRat? with
  | some q => ofRat false (q - 1)
  | none => x

/-- The sum of two doubles without sign, rounded to a double. -/
def plus (x y : Double) : Double :=
  match x.toRat?, y.toRat? with
  | some p, some q => ofRat false (p + q)
  | some _, none => y
  | none, _ => x

/-- The product of a double and a positive number, rounded to a double. -/
def times (x : Double) (q : Rat) : Double :=
  match x.toRat? with
  | some p => ofRat false (p * q)
  | none => x

example : nearest false 1 10 = .finite false 7205759403792794 (-56) := by decide +kernel

end Double

end DataLineage
