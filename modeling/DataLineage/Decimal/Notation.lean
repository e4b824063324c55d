import DataLineage.Decimal.Shortest

/-!
# How a double is written

A double is written with its shortest digits. `DecimalLayout` holds the decisions of the layout:
which decimal exponents are written positionally, and how the infinities and what is not a number
are named. A number in
positional notation always shows a point (`12.0`), and an exponent has a sign and at least two
digits.

* `render_zero` -- zero keeps its sign.
-/

namespace DataLineage

/-- The decisions of a way to write doubles. -/
structure DecimalLayout where
  /-- the least exponent of the leading digit that is written positionally -/
  plainFrom : Int
  /-- the first exponent above which is written with an exponent mark -/
  plainBelow : Int
  /-- the name of infinity -/
  infinity : String
  /-- the name of what is not a number -/
  notNumber : String

namespace DecimalLayout

/-- The digits with a point after the first `point` of them, padded with zeros where needed. -/
def positional (ds : List Char) (point : Int) : List Char :=
  if point ≤ 0 then '0' :: '.' :: (List.replicate (-point).toNat '0' ++ ds)
  else
    let n := point.toNat
    if ds.length ≤ n then ds ++ List.replicate (n - ds.length) '0' ++ ['.', '0']
    else ds.take n ++ '.' :: ds.drop n

/-- One digit, the others behind a point, and the exponent with its sign and two digits or more. -/
def scientific (ds : List Char) (exponent : Int) : List Char :=
  let mantissa := match ds with
    | [] => []
    | [d] => [d]
    | d :: rest => d :: '.' :: rest
  let power := Nat.toDigits 10 exponent.natAbs
  let power := if power.length < 2 then '0' :: power else power
  mantissa ++ 'e' :: (if exponent < 0 then '-' else '+') :: power

/-- The text of a positive finite double. -/
def magnitude (layout : DecimalLayout) (x : Magnitude) : List Char :=
  let d := Shortest.digits x
  let ds := Nat.toDigits 10 d.digits
  let exponent := d.exponent + ds.length - 1
  if layout.plainFrom ≤ exponent ∧ exponent < layout.plainBelow then positional ds (exponent + 1)
  else scientific ds exponent

/-- **The text of a double.** -/
def render (layout : DecimalLayout) : Double → String
  | .nan => layout.notNumber
  | .infinite negative => (if negative then "-" else "") ++ layout.infinity
  | .finite negative m e =>
    let sign := if negative then ['-'] else []
    if m = 0 then String.ofList (sign ++ ['0', '.', '0'])
    else String.ofList (sign ++ layout.magnitude ⟨m, e⟩)

theorem render_zero (layout : DecimalLayout) (negative : Bool) :
    layout.render (.zero negative) = if negative then "-0.0" else "0.0" := by
  cases negative <;> rfl

end DecimalLayout

end DataLineage
