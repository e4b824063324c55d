import DataLineage.Value.Basic
import DataLineage.Decimal.Notation
import DataLineage.Text.Half
import DataLineage.Text.Printable
import DataLineage.Text.Numeral

/-!
# How values are written in messages

A message shows a value in one of two ways. `Value.literal` writes it so that its kind can be seen:
texts are quoted, moments are taken apart, lists stand in brackets, records and sets in braces.
`Value.display` writes a text as it is, a moment as documents write it, and anything else as its
literal.

* `Value.display_text`, `Value.display_int` -- the two plain cases.
* `Scalar.isWritable_int`, `Value.isWritable` -- only a huge number is too long to be written, and a
  value that holds one.
* `quote_printable` -- a printable text without quote or backslash is only put between quotes.
-/

namespace DataLineage

/-- Doubles are positional from 0.0001 up to below ten to the sixteenth. -/
def messageLayout : DecimalLayout := ⟨-4, 16, "inf", "nan"⟩

/-! ## 1. Quoted text -/

/-- A number in hexadecimal digits, padded with zeros to a width. -/
def hexDigits (width n : Nat) : List Char :=
  let ds := Nat.toDigits 16 n
  List.replicate (width - ds.length) '0' ++ ds

/-- One character between quotes of the given kind. -/
def quoteChar (mark c : Char) : List Char :=
  if c = mark ∨ c = '\\' then ['\\', c]
  else if c = '\n' then ['\\', 'n']
  else if c = '\r' then ['\\', 'r']
  else if c = '\t' then ['\\', 't']
  else if Text.isPrintable c then [c]
  else
    let n := Text.codePoint c
    if n < 0x100 then '\\' :: 'x' :: hexDigits 2 n
    else if n < 0x10000 then '\\' :: 'u' :: hexDigits 4 n
    else '\\' :: 'U' :: hexDigits 8 n

/-- Single quotes, or double quotes around a text that holds single quotes and no double ones. -/
def quoteMark (s : List Char) : Char :=
  if s.contains '\'' && !s.contains '"' then '"' else '\''

/-- **A quoted text**: what is not printable is escaped by its code point. -/
def quote (s : String) : String :=
  let mark := quoteMark s.toList
  String.ofList (mark :: s.toList.flatMap (quoteChar mark) ++ [mark])

/-- A printable text without quotes or backslashes is only put between single quotes. -/
theorem quote_printable (s : List Char)
    (h : ∀ c ∈ s, Text.isPrintable c = true ∧ c ≠ '\'' ∧ c ≠ '\\' ∧ c ≠ '\n' ∧ c ≠ '\r' ∧
      c ≠ '\t') :
    quote (String.ofList s) = String.ofList ('\'' :: s ++ ['\'']) := by
  have hm : quoteMark s = '\'' := by
    have hn : '\'' ∉ s := fun hc => (h _ hc).2.1 rfl
    simp [quoteMark, hn]
  have hf : s.flatMap (quoteChar '\'') = s := by
    clear hm
    induction s with
    | nil => rfl
    | cons c rest ih =>
      obtain ⟨hp, h1, h2, h3, h4, h5⟩ := h c (by simp)
      have hr := ih fun d hd => h d (by simp [hd])
      simp [quoteChar, hp, h1, h2, h3, h4, h5, hr]
  simp [quote, hm, hf]

/-! ## 2. Values -/

/-- The literal of a scalar. -/
def Scalar.literal : Scalar → String
  | .null => "None"
  | .bool b => if b then "True" else "False"
  | .int n => Text.ofInt n
  | .float x => messageLayout.render x
  | .text s => quote s
  | .moment m => m.literal

/-- The text of a scalar in a sentence: a text as it is, a moment as documents write it, anything
else as its literal. -/
def Scalar.display : Scalar → String
  | .text s => s
  | .moment m => m.written
  | s => s.literal

/-- Can the scalar be written? A whole number of more than `Text.maxDigits` digits cannot. -/
def Scalar.isWritable : Scalar → Bool
  | .int n => n.natAbs < Text.firstTooLong
  | _ => true

/-- A whole number of up to a hundred digits can be written. -/
theorem Scalar.isWritable_int (n : Int) (h : n.natAbs < Nat.pow 10 100) :
    (Scalar.int n).isWritable = true := by
  simp only [isWritable, decide_eq_true_eq]
  exact Nat.lt_of_lt_of_le h Text.pow_le_firstTooLong

namespace Value

mutual

/-- **The literal of a value**: the kind of every part can be read off it. -/
def literal : Value → String
  | .scalar s => s.literal
  | .list items => "[" ++ ", ".intercalate (literals items) ++ "]"
  | .record fields => "\x7b" ++ ", ".intercalate (fieldLiterals fields) ++ "\x7d"
  | .set [] => "set()"
  | .set members => "\x7b" ++ ", ".intercalate (members.map Scalar.literal) ++ "\x7d"

/-- The literals of the items of a list. -/
def literals : List Value → List String
  | [] => []
  | v :: rest => literal v :: literals rest

/-- The fields of a record, each as the literal of its name, a colon and its literal. -/
def fieldLiterals : List (Scalar × Value) → List String
  | [] => []
  | (name, v) :: rest => (name.literal ++ ": " ++ literal v) :: fieldLiterals rest

end

mutual

/-- Can the value be written? Every scalar in it has to be writable. -/
def isWritable : Value → Bool
  | .scalar s => s.isWritable
  | .list items => areWritable items
  | .record fields => fieldsAreWritable fields
  | .set members => members.all Scalar.isWritable

/-- Can all items of a list be written? -/
def areWritable : List Value → Bool
  | [] => true
  | v :: rest => isWritable v && areWritable rest

/-- Can the names and the values of all fields be written? -/
def fieldsAreWritable : List (Scalar × Value) → Bool
  | [] => true
  | (name, v) :: rest => name.isWritable && isWritable v && fieldsAreWritable rest

end

/-- The text of a value in a sentence: a scalar as it is displayed, anything else as its literal. -/
def display : Value → String
  | .scalar s => s.display
  | v => v.literal

@[simp] theorem display_text (s : String) : display (.text s) = s := rfl

@[simp] theorem display_int (n : Int) : display (.int n) = Text.ofInt n := rfl

end Value

end DataLineage
