import DataLineage.Value.Written

/-!
# Values as JSON text

A value is written either on one line without blanks or, indented, with one field or item on each
line. All text is ASCII: other characters are escaped by their UTF-16 units, and a half of a pair is
one unit.

* `Json.unit_printing` -- which characters stand for themselves.
* `Json.text_empty` -- empty lists and records are written without lines of their own.
* `Value.hasJson` -- which values are JSON as they are.
-/

namespace DataLineage

/-- How JSON text is laid out: on one line, or with so many blanks for each level. -/
inductive JsonLayout where
  | compact
  | indented (blanks : Nat)
  deriving DecidableEq, Repr, Inhabited

namespace Json

/-- Doubles are written as in messages, but for the names of the infinite and of no number. -/
def numberLayout : DecimalLayout := ⟨-4, 16, "Infinity", "NaN"⟩

/-- The escape of one UTF-16 unit. -/
def escapedUnit (n : Nat) : List Char := '\\' :: 'u' :: hexDigits 4 n

/-- One character inside quotes. -/
def unit (c : Char) : List Char :=
  if c = '"' then ['\\', '"']
  else if c = '\\' then ['\\', '\\']
  else if c = '\n' then ['\\', 'n']
  else if c = '\r' then ['\\', 'r']
  else if c = '\t' then ['\\', 't']
  else if c = '\x08' then ['\\', 'b']
  else if c = '\x0c' then ['\\', 'f']
  else if 0x20 ≤ c.toNat ∧ c.toNat < 0x7F then [c]
  else
    let n := Text.codePoint c
    if n < 0x10000 then escapedUnit n
    else
      let pair := n - 0x10000
      escapedUnit (0xD800 + pair / 0x400) ++ escapedUnit (0xDC00 + pair % 0x400)

/-- **A printing ASCII character stands for itself**, but for the quote and the backslash. -/
theorem unit_printing (c : Char) (h : 0x20 ≤ c.toNat ∧ c.toNat < 0x7F) (hq : c ≠ '"')
    (hb : c ≠ '\\') : unit c = [c] := by
  have ne (d : Char) (hd : d.toNat < 0x20) : c ≠ d := by
    rintro rfl; omega
  have h3 := ne '\n' (by decide)
  have h4 := ne '\r' (by decide)
  have h5 := ne '\t' (by decide)
  have h6 := ne '\x08' (by decide)
  have h7 := ne '\x0c' (by decide)
  simp [unit, hq, hb, h3, h4, h5, h6, h7, h]

/-- A text between quotes. -/
def quoted (s : String) : String := String.ofList ('"' :: s.toList.flatMap unit ++ ['"'])

/-- A scalar. -/
def scalar : Scalar → String
  | .null => "null"
  | .bool b => if b then "true" else "false"
  | .int n => Text.ofInt n
  | .float x => numberLayout.render x
  | .text s => quoted s
  | .moment m => quoted m.written

/-- The name of the field of a scalar: a text itself, anything else as it is written. -/
def fieldName : Scalar → String
  | .text s => s
  | .moment m => m.written
  | s => scalar s

/-- What stands before an item at some level. -/
def lineStart (layout : JsonLayout) (level : Nat) : String :=
  match layout with
  | .compact => ""
  | .indented blanks => "\n" ++ String.ofList (List.replicate (blanks * level) ' ')

/-- What stands between the name of a field and its value. -/
def colon : JsonLayout → String
  | .compact => ":"
  | .indented _ => ": "

/-- Parts between brackets, each on its own line where there are lines. -/
def enclosed (layout : JsonLayout) (level : Nat) (opening closing : String) (parts : List String) :
    String :=
  if parts.isEmpty then opening ++ closing
  else
    let start := lineStart layout (level + 1)
    opening ++ start ++ ("," ++ start).intercalate parts ++ lineStart layout level ++ closing

mutual

/-- The text of a value that stands at some level. -/
def text (layout : JsonLayout) (level : Nat) : Value → String
  | .scalar s => scalar s
  | .list items => enclosed layout level "[" "]" (itemTexts layout (level + 1) items)
  | .record fields => enclosed layout level "\x7b" "\x7d" (fieldTexts layout (level + 1) fields)
  | .set members => enclosed layout level "[" "]" (members.map scalar)

/-- The texts of items. -/
def itemTexts (layout : JsonLayout) (level : Nat) : List Value → List String
  | [] => []
  | v :: rest => text layout level v :: itemTexts layout level rest

/-- The texts of fields. -/
def fieldTexts (layout : JsonLayout) (level : Nat) : List (Scalar × Value) → List String
  | [] => []
  | (name, v) :: rest =>
    (quoted (fieldName name) ++ colon layout ++ text layout level v) :: fieldTexts layout level rest

end

/-- Empty lists and records are written without lines of their own. -/
theorem text_empty (layout : JsonLayout) (level : Nat) :
    text layout level (.list []) = "[]" ∧ text layout level (.record []) = "\x7b\x7d" := by
  constructor <;> simp [text, itemTexts, fieldTexts, enclosed]

end Json

/-- **A value as JSON text.** What JSON does not have is written as what comes nearest: a moment as a
text, a set as a list. -/
def Value.toJson (v : Value) (layout : JsonLayout) : String := Json.text layout 0 v

/-- Does JSON have the scalar? It has no moments. -/
def Scalar.hasJson : Scalar → Bool
  | .moment _ => false
  | _ => true

namespace Value

mutual

/-- Does JSON have the value? It has neither moments nor sets. -/
def hasJson : Value → Bool
  | .scalar s => s.hasJson
  | .list items => itemsHaveJson items
  | .record fields => fieldsHaveJson fields
  | .set _ => false

/-- Does JSON have all items? -/
def itemsHaveJson : List Value → Bool
  | [] => true
  | v :: rest => hasJson v && itemsHaveJson rest

/-- Does JSON have all fields, their names and their values? -/
def fieldsHaveJson : List (Scalar × Value) → Bool
  | [] => true
  | (name, v) :: rest => name.hasJson && hasJson v && fieldsHaveJson rest

end

end Value

end DataLineage
