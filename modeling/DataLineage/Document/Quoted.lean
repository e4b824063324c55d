import DataLineage.Document.Cursor
import DataLineage.Fault
import DataLineage.Text.Half

/-!
# Quoted scalars of a document

Between single quotes a quote is written twice and nothing else is special. Between double quotes a
backslash starts an escape. In both, a line break stands for a blank, and further line breaks for
themselves; blanks around line breaks are left out. No line inside of quotes can be a separator of
documents. An escape can mean half of a surrogate pair, and halves in a row are not put together.

* `Quoted.single_twice` -- a quote that is written twice is read once.
* `Quoted.character_valid`, `Quoted.character_half` -- the escape of a code point stands for its
  character, also that of a half.
-/

namespace DataLineage.Quoted

/-! ## 1. Blanks and line breaks -/

/-- What was met since the last character that counts. -/
inductive Gap where
  /-- blanks on one line, the latest first -/
  | blanks (cs : List Char)
  /-- line breaks, the latest first -/
  | folded (breaks : List Char)
  /-- a line break that is taken back, and further ones, the latest first -/
  | taken (breaks : List Char)
  deriving Repr, Inhabited

namespace Gap

/-- Nothing was met. -/
def nothing : Gap := blanks []

/-- The characters that a gap stands for, the latest first. -/
def chars : Gap → List Char
  | blanks cs => cs
  | folded breaks => (Cursor.joined breaks.reverse).reverse
  | taken breaks => breaks

/-- The gap with one more blank. -/
def blank (c : Char) : Gap → Gap
  | blanks cs => blanks (c :: cs)
  | g => g

/-- The gap with one more line break. -/
def lineBreak (c : Char) : Gap → Gap
  | blanks _ => folded [Cursor.keptBreak c]
  | folded breaks => folded (Cursor.keptBreak c :: breaks)
  | taken breaks => taken (Cursor.keptBreak c :: breaks)

end Gap

/-- Is the character a blank that a line break swallows? -/
def isLineBlank (c : Char) : Bool := c == ' ' || c == '\t'

/-! ## 2. Single quotes -/

/-- **Reads up to the closing single quote**: the text, and what follows the quote. -/
def single (acc : List Char) (gap : Gap) : List Char → Outcome (List Char × List Char)
  | [] => .error .malformedDocument
  | '\'' :: '\'' :: rest => single ('\'' :: (gap.chars ++ acc)) .nothing rest
  | '\'' :: rest => .ok ((gap.chars ++ acc).reverse, rest)
  | c :: rest =>
    if isLineBlank c then single acc (gap.blank c) rest
    else if Cursor.isBreak c then
      if Cursor.isSeparator rest then .error .malformedDocument
      else single acc (gap.lineBreak c) rest
    else single (c :: (gap.chars ++ acc)) .nothing rest

/-- A quote that is written twice is read once. -/
theorem single_twice (acc rest : List Char) :
    single acc .nothing ('\'' :: '\'' :: rest) = single ('\'' :: acc) .nothing rest := by
  simp [single, Gap.chars, Gap.nothing]

/-! ## 3. Double quotes -/

/-- The character of an escape of one letter. -/
def letter? : Char → Option Char
  | '0' => some '\x00'
  | 'a' => some '\x07'
  | 'b' => some '\x08'
  | 't' => some '\t'
  | '\t' => some '\t'
  | 'n' => some '\n'
  | 'v' => some '\x0b'
  | 'f' => some '\x0c'
  | 'r' => some '\r'
  | 'e' => some '\x1b'
  | ' ' => some ' '
  | '"' => some '"'
  | '\\' => some '\\'
  | '/' => some '/'
  | 'N' => some '\u0085'
  | '_' => some '\u00a0'
  | 'L' => some '\u2028'
  | 'P' => some '\u2029'
  | _ => none

/-- How many hexadecimal digits an escape takes. -/
def hexWidth? : Char → Option Nat
  | 'x' => some 2
  | 'u' => some 4
  | 'U' => some 8
  | _ => none

/-- The value of a hexadecimal digit. -/
def hexDigit? (c : Char) : Option Nat :=
  if '0' ≤ c ∧ c ≤ '9' then some (c.toNat - 48)
  else if 'a' ≤ c ∧ c ≤ 'f' then some (c.toNat - 87)
  else if 'A' ≤ c ∧ c ≤ 'F' then some (c.toNat - 55)
  else none

/-- The character of a code point; beyond the last code point there is none. -/
def character (n : Nat) : Outcome Char :=
  if n.isValidChar then .ok (Char.ofNat n)
  else if Text.isHalf n then .ok (Text.half n)
  else if n < 0x80000000 then .error .badValue
  else .error .tooLarge

/-- **The escape of a code point stands for its character.** -/
theorem character_valid (n : Nat) (h : n.isValidChar) : character n = .ok (Char.ofNat n) := by
  simp [character, h]

/-- The escape of a half stands for that half. -/
theorem character_half (n : Nat) (h : Text.isHalf n = true) : character n = .ok (Text.half n) := by
  have hn : 0xD800 ≤ n ∧ n < 0xE000 := by simpa [Text.isHalf] using h
  have hv : ¬ n.isValidChar := by
    rintro (h1 | ⟨h1, h2⟩) <;> omega
  simp [character, hv, h]

/-- Where the reading of double quotes stands: between characters, after a backslash, or in a code
point of which so many digits are missing. -/
inductive Mode where
  | text
  | escape
  | code (missing : Nat) (n : Nat)
  deriving Repr, Inhabited

/-- **Reads up to the closing double quote**: the text, and what follows the quote. -/
def double (acc : List Char) (gap : Gap) : Mode → List Char → Outcome (List Char × List Char)
  | _, [] => .error .malformedDocument
  | .text, c :: rest =>
    if c = '"' then .ok ((gap.chars ++ acc).reverse, rest)
    else if c = '\\' then double (gap.chars ++ acc) .nothing .escape rest
    else if isLineBlank c then double acc (gap.blank c) .text rest
    else if Cursor.isBreak c then
      if Cursor.isSeparator rest then .error .malformedDocument
      else double acc (gap.lineBreak c) .text rest
    else double (c :: (gap.chars ++ acc)) .nothing .text rest
  | .escape, c :: rest =>
    if Cursor.isBreak c then
      if Cursor.isSeparator rest then .error .malformedDocument
      else double acc (.taken []) .text rest
    else match letter? c, hexWidth? c with
      | some d, _ => double (d :: acc) .nothing .text rest
      | none, some width => double acc .nothing (.code width 0) rest
      | none, none => .error .malformedDocument
  | .code missing n, c :: rest =>
    match hexDigit? c with
    | none => .error .malformedDocument
    | some d =>
      let n := 16 * n + d
      if 1 < missing then double acc .nothing (.code (missing - 1) n) rest
      else match character n with
        | .ok c => double (c :: acc) .nothing .text rest
        | .error e => .error e

end DataLineage.Quoted
