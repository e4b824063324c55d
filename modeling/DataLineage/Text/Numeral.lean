import DataLineage.Text.Basic

/-!
# Decimal numerals

Reading an integer from text (`readInt?`): blanks at the ends, a sign, and digits of any script
with single underscores between them. Writing one is core's decimal writing (`ofInt`).

Numerals have at most `maxDigits` digits. Every reader of a numeral keeps to this, and so does every
writer whose text decides what happens next: patterns (`LineagePattern.make`), criteria on texts
(`Criterion.test`) and the check of supertypes (`TypeModel.declared`) refuse a number that is too
long. The messages of all other faults write a number whatever its length.

* `decimalDigit?_ascii` -- the ASCII digits have their own values.
* `readDigits?_digit` -- a single digit reads as its value.
-/

namespace DataLineage.Text

/-- The zeros of the decimal digits of Unicode 14; each is followed by its nine other digits. -/
def decimalZeros : List Nat :=
  [0x30, 0x660, 0x6F0, 0x7C0, 0x966, 0x9E6, 0xA66, 0xAE6, 0xB66, 0xBE6,
   0xC66, 0xCE6, 0xD66, 0xDE6, 0xE50, 0xED0, 0xF20, 0x1040, 0x1090, 0x17E0,
   0x1810, 0x1946, 0x19D0, 0x1A80, 0x1A90, 0x1B50, 0x1BB0, 0x1C40, 0x1C50, 0xA620,
   0xA8D0, 0xA900, 0xA9D0, 0xA9F0, 0xAA50, 0xABF0, 0xFF10, 0x104A0, 0x10D30, 0x11066,
   0x110F0, 0x11136, 0x111D0, 0x112F0, 0x11450, 0x114D0, 0x11650, 0x116C0, 0x11730, 0x118E0,
   0x11950, 0x11C50, 0x11D50, 0x11DA0, 0x16A60, 0x16AC0, 0x16B50, 0x1D7CE, 0x1D7D8, 0x1D7E2,
   0x1D7EC, 0x1D7F6, 0x1E140, 0x1E2F0, 0x1E950, 0x1FBF0]

/-- The value of a decimal digit of any script. -/
def decimalDigit? (c : Char) : Option Nat :=
  (decimalZeros.find? fun z => z ≤ c.toNat && c.toNat < z + 10).map (c.toNat - ·)

/-- Is the character a decimal digit of some script? -/
def isDecimalDigit (c : Char) : Bool := (decimalDigit? c).isSome

theorem decimalDigit?_ascii : "0123456789".toList.map decimalDigit? =
    [some 0, some 1, some 2, some 3, some 4, some 5, some 6, some 7, some 8, some 9] := by decide

/-- The most digits a numeral may have. -/
def maxDigits : Nat := 4300

/-- The least number that has more digits. -/
@[irreducible] def firstTooLong : Nat := Nat.pow 10 maxDigits

/-- Numbers of up to a hundred digits are not too long. -/
theorem pow_le_firstTooLong : Nat.pow 10 100 ≤ firstTooLong := by
  have h (m : Nat) (hm : 100 ≤ m) : Nat.pow 10 100 ≤ Nat.pow 10 m :=
    Nat.pow_le_pow_right (by decide) hm
  unfold firstTooLong
  exact h maxDigits (by decide)

/-- Digits with single underscores between them, most significant first. -/
def readDigits? : List Char → Option (List Nat)
  | [] => none
  | [c] => (decimalDigit? c).map ([·])
  | c :: '_' :: rest => do
    let d ← decimalDigit? c
    let ds ← readDigits? rest
    return d :: ds
  | c :: rest => do
    let d ← decimalDigit? c
    let ds ← readDigits? rest
    return d :: ds

theorem readDigits?_digit (c : Char) : readDigits? [c] = (decimalDigit? c).map ([·]) := rfl

/-- The number that digits write in base ten. -/
def digitsValue (ds : List Nat) : Nat := ds.foldl (fun n d => 10 * n + d) 0

/-- A natural number of at most `maxDigits` digits. -/
def readNat? (s : List Char) : Option Nat := do
  let ds ← readDigits? s
  if ds.length ≤ maxDigits then some (digitsValue ds) else none

/-- Blanks that may stand around a numeral: those of `isBlank` but the information separators. -/
def isNumeralBlank (c : Char) : Bool := isBlank c && !(0x1C ≤ c.toNat && c.toNat ≤ 0x1F)

/-- **An integer**: blanks, a sign if any, digits, blanks. -/
def readInt? (s : String) : Option Int :=
  match (trimBy isNumeralBlank s).toList with
  | '-' :: rest => (readNat? rest).map fun n => -(n : Int)
  | '+' :: rest => (readNat? rest).map fun n => (n : Int)
  | rest => (readNat? rest).map fun n => (n : Int)

/-- An integer in decimal digits, with a minus sign when negative. -/
def ofInt (n : Int) : String :=
  if n < 0 then String.ofList ('-' :: Nat.toDigits 10 n.natAbs)
  else String.ofList (Nat.toDigits 10 n.natAbs)

end DataLineage.Text
