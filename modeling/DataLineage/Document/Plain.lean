import DataLineage.Document.Stamp

/-!
# What a plain scalar of a document stands for

A scalar without quotes is null, a truth value, a whole number, a number with a fraction or a moment
when it is written like one, and otherwise a text. A numeral may be refused although it is written
like one: a prefix without digits, or too many digits.

* `Plain.resolve_words` -- the words that stand for something else than themselves.
* `Plain.resolve_reserved` -- the words that stand for nothing in a value.
-/

namespace DataLineage.Plain

/-! ## 1. Digits -/

/-- The value of a digit in a base up to sixteen. -/
def digit? (base : Nat) (c : Char) : Option Nat :=
  let n :=
    if '0' ≤ c ∧ c ≤ '9' then c.toNat - 48
    else if 'a' ≤ c ∧ c ≤ 'f' then c.toNat - 87
    else if 'A' ≤ c ∧ c ≤ 'F' then c.toNat - 55
    else 16
  if n < base then some n else none

/-- The number of a list of digits, underscores left out. -/
def number? (base : Nat) (s : List Char) : Option Nat := do
  let ds ← (s.filter (· != '_')).mapM (digit? base)
  return ds.foldl (fun n d => base * n + d) 0

/-- Is there a decimal digit, and then only digits and underscores? -/
def isCount : List Char → Bool
  | [] => false
  | c :: rest => c.isDigit && rest.all fun d => d.isDigit || d == '_'

/-- Is it a number below sixty in one or two digits? -/
def isSixtieth : List Char → Bool
  | [d] => d.isDigit
  | [c, d] => '0' ≤ c && c ≤ '5' && d.isDigit
  | _ => false

/-- The parts of a text between occurrences of a character. -/
def splitAt (mark : Char) : List Char → List (List Char)
  | [] => [[]]
  | c :: rest =>
    if c = mark then [] :: splitAt mark rest
    else match splitAt mark rest with
      | part :: parts => (c :: part) :: parts
      | [] => [[c]]

/-- A sign and what follows it. -/
def sign : List Char → Bool × List Char
  | '-' :: rest => (true, rest)
  | '+' :: rest => (false, rest)
  | s => (false, s)

/-! ## 2. Whole numbers -/

/-- Digits behind the prefix of a base; there has to be one. -/
def prefixed? (base : Nat) (s : List Char) : Option (Outcome Nat) := do
  let n ← number? base s
  if s.isEmpty then none
  else some (if s.all (· == '_') then .error .badValue else .ok n)

/-- A decimal number, of at most `Text.maxDigits` digits. -/
def decimal (s : List Char) : Outcome Nat :=
  if Text.maxDigits < (s.filter (· != '_')).length then .error .badValue
  else .ok ((number? 10 s).getD 0)

/-- A whole number without sign: binary, octal, decimal, hexadecimal or in base sixty. -/
def natural? : List Char → Option (Outcome Nat)
  | ['0'] => some (.ok 0)
  | '0' :: 'b' :: rest => prefixed? 2 rest
  | '0' :: 'x' :: rest => prefixed? 16 rest
  | '0' :: rest => (number? 8 rest).map .ok
  | s =>
    match splitAt ':' s with
    | first :: rest =>
      if isCount first && rest.all isSixtieth then
        some ((decimal first).map fun n =>
          rest.foldl (fun n part => 60 * n + (number? 10 part).getD 0) n)
      else none
    | [] => none

/-- A whole number. -/
def integer? (s : List Char) : Option (Outcome Int) :=
  let (negative, rest) := sign s
  (natural? rest).map fun n => n.map fun n => if negative then -(n : Int) else n

/-! ## 3. Numbers with a fraction -/

/-- The exponent of a number: a letter, a sign and digits; no text at all is the exponent 0. -/
def exponent? : List Char → Option Int
  | [] => some 0
  | e :: s :: ds =>
    if (e == 'e' || e == 'E') && (s == '+' || s == '-') && !ds.isEmpty && ds.all Char.isDigit then
      (number? 10 ds).map fun n => if s == '-' then -(n : Int) else n
    else none
  | _ => none

/-- Digits around a point, then an exponent. Without a digit before the point there is one behind
it, and no sign. -/
def pointed? (s : List Char) : Option Double := do
  let (negative, unsigned) := sign s
  let isPlace (c : Char) : Bool := c.isDigit || c == '_'
  let whole := unsigned.takeWhile isPlace
  let places ← match unsigned.dropWhile isPlace with
    | '.' :: rest => some (rest.takeWhile isPlace)
    | _ => none
  let exponent ← exponent? ((unsigned.dropWhile isPlace).tail.dropWhile isPlace)
  if isCount whole || (whole.isEmpty && unsigned == s && isCount places) then
    let places := places.filter (· != '_')
    some (.ofScientific negative (← number? 10 (whole ++ places)) (exponent - places.length))
  else none

/-- A power of sixty as a double. -/
def sixtyTo (n : Nat) : Outcome Double :=
  match Double.ofRat false (Nat.pow 60 n : Nat) with
  | .finite negative m e => .ok (.finite negative m e)
  | _ => .error .tooLarge

/-- The sum of parts in base sixty, the least one first. -/
def sixtieths (parts : List Double) : Outcome Double :=
  parts.zipIdx.foldlM (fun total (x, n) => do
    let base ← sixtyTo n
    return total.plus (x.times (base.toRat?.getD 0))) (.zero false)

/-- A number in base sixty, the last part with a point. -/
def sexagesimal? (s : List Char) : Option (Outcome Double) := do
  let (negative, unsigned) := sign s
  let parts := splitAt ':' unsigned
  let first ← parts.head?
  let last ← parts.getLast?
  let middle := parts.tail.dropLast
  let places := (last.dropWhile Char.isDigit).tail
  if isCount first && 2 ≤ parts.length && middle.all isSixtieth &&
      isSixtieth (last.takeWhile Char.isDigit) && last.contains '.' &&
      (last.dropWhile Char.isDigit).head? == some '.' &&
      places.all fun c => c.isDigit || c == '_' then
    let whole ← (first :: middle).mapM fun part => do
      return Double.ofScientific false (← number? 10 part) 0
    let last ← pointed? last
    some ((sixtieths (last :: whole.reverse)).map (.withSign negative))
  else none

/-- An infinity, or what is not a number. -/
def special? (s : List Char) : Option Double :=
  let (negative, unsigned) := sign s
  if [".inf", ".Inf", ".INF"].contains (String.ofList unsigned) then some (.infinite negative)
  else if [".nan", ".NaN", ".NAN"].contains (String.ofList s) then some .nan
  else none

/-- A number with a fraction. -/
def fraction? (s : List Char) : Option (Outcome Double) :=
  (((pointed? s).or (special? s)).map .ok).or (sexagesimal? s)

/-! ## 4. Scalars -/

/-- The words for nothing. -/
def nullWords : List String := ["", "~", "null", "Null", "NULL"]

/-- The words for a truth value that holds. -/
def trueWords : List String := ["yes", "Yes", "YES", "true", "True", "TRUE", "on", "On", "ON"]

/-- The words for a truth value that does not hold. -/
def falseWords : List String := ["no", "No", "NO", "false", "False", "FALSE", "off", "Off", "OFF"]

/-- The key of fields that are taken from other records. -/
def mergeWord : String := "<<"

/-- The key of a value beside further fields. -/
def valueWord : String := "="

/-- The number or moment of a plain text, if it is written like one. -/
def numeral? (s : List Char) : Option (Outcome Scalar) :=
  ((fraction? s).map (·.map .float)).or
    (((integer? s).map (·.map .int)).or ((Stamp.moment? s).map (·.map .moment)))

/-- **The scalar that a plain text stands for.** -/
def resolve (s : String) : Outcome Scalar :=
  if nullWords.contains s then .ok .null
  else if trueWords.contains s then .ok (.bool true)
  else if falseWords.contains s then .ok (.bool false)
  else if s = mergeWord ∨ s = valueWord then .error .malformedDocument
  else match numeral? s.toList with
    | some n => n
    | none => .ok (.text s)

/-- The words that stand for something else than themselves. -/
theorem resolve_words :
    resolve "~" = .ok .null ∧ resolve "on" = .ok (.bool true) ∧ resolve "No" = .ok (.bool false) :=
  ⟨rfl, rfl, rfl⟩

/-- The words for keys alone stand for nothing in a value. -/
theorem resolve_reserved (s : String) (h : s = mergeWord ∨ s = valueWord) :
    resolve s = .error .malformedDocument := by
  rcases h with rfl | rfl <;> rfl

example : ["017", "1_0", "-0x1F", "1:30", "1e5", "089"].map (fun s => (resolve s).toOption) =
    [some (.int 15), some (.int 10), some (.int (-31)), some (.int 90), some (.text "1e5"),
      some (.text "089")] := by
  decide +kernel

end DataLineage.Plain
