import DataLineage.Document.Quoted
import DataLineage.Document.Token
import DataLineage.Document.Unquoted

/-!
# Cutting a text into tokens

The text is read from the left. A scalar or an opening bracket may turn out to be a key: only the
colon behind it tells. Until then it is a `PendingKey`, one for each level of brackets, and its
entry among the tokens read is remembered. When the colon comes, the token that announces the key is
put before that entry, and before it, where the column is a new one, the start of fields. A key has
to be on one line and not longer than 1024 characters.

Outside of brackets the columns of the collections around are a stack (`Lexer.columns`); a line that
starts further left ends the collections of the columns that it leaves.

What follows a pending key cannot be used before the key is decided. So when the text cannot be read
further, the tokens from the first pending key on are given up (`Lexer.stop`).

* `Lexer.unwind_columns` -- after unwinding, no column is right of the given one.
* `Token.ofText_nil` -- an empty text has no tokens.
-/

namespace DataLineage

/-- A token that may turn out to be a key: its entry, the level of brackets, the place where it
starts, and whether it has to be a key. -/
structure PendingKey where
  entry : Nat
  level : Nat
  place : Cursor
  required : Bool
  deriving Repr, Inhabited

/-- A token that was read, and the tokens that were put before it. -/
structure Entry where
  before : List Token
  token : Token
  deriving Repr, Inhabited

/-- Where the reading of a text stands. -/
structure Lexer where
  place : Cursor
  entries : Array Entry
  /-- the columns of the collections around, the innermost first -/
  columns : List Nat
  /-- how many brackets are open -/
  level : Nat
  /-- may a key start here? -/
  keyAllowed : Bool
  /-- the pending keys, that of the innermost level first -/
  pending : List PendingKey
  deriving Repr, Inhabited

namespace Lexer

/-- The start of a text. -/
def start (text : List Char) : Lexer := ⟨.start text, #[], [], 0, true, []⟩

/-- Is a bracket open? -/
def inBrackets (l : Lexer) : Bool := l.level != 0

/-- The column of the innermost collection, -1 outside of all. -/
def indent (l : Lexer) : Int :=
  match l.columns with
  | [] => -1
  | column :: _ => column

/-! ## 1. Tokens -/

/-- One more token. -/
def put (l : Lexer) (t : Token) : Lexer := { l with entries := l.entries.push ⟨[], t⟩ }

/-- One more token, which is so many characters long. -/
def take (l : Lexer) (width : Nat) (t : Token) : Lexer :=
  { l.put t with place := l.place.forward width }

/-- The tokens that were read, each behind those that were put before it. -/
def tokens (l : Lexer) : List Token := l.entries.toList.flatMap fun e => e.before ++ [e.token]

/-- The text cannot be read further: what follows the first pending key is given up. -/
def stop (l : Lexer) (cause : Fault) : Lexer :=
  let kept := l.pending.foldl (fun n k => min n k.entry) l.entries.size
  { l with entries := (l.entries.take kept).push ⟨[], .broken cause⟩ }

/-! ## 2. Columns -/

/-- Ends the collections right of a column. -/
def unwind (l : Lexer) (column : Int) : Lexer :=
  if l.inBrackets then l
  else
    let ended := l.columns.takeWhile fun (c : Nat) => column < c
    { ended.foldl (fun l _ => l.put .blockEnd) l with
      columns := l.columns.dropWhile fun (c : Nat) => column < c }

/-- **After unwinding, the innermost collection is not right of the given column.** -/
theorem unwind_columns (l : Lexer) (column : Int) (h : l.inBrackets = false) :
    (l.unwind column).indent ≤ max column (-1) := by
  simp only [unwind, h, indent]
  split
  · omega
  · rename_i c rest hc
    have hd := List.head?_dropWhile_not (fun c : Nat => decide (column < (c : Int))) l.columns
    simp only [Bool.false_eq_true, if_false] at hc
    rw [hc] at hd
    simp at hd
    omega

/-- Starts a collection in a column, unless it goes on there. -/
def begin (l : Lexer) (column : Nat) (t : Token) : Lexer :=
  if l.indent < column then { l.put t with columns := column :: l.columns } else l

/-! ## 3. Pending keys -/

/-- Is it too late for the colon of a key? -/
def isLate (l : Lexer) (k : PendingKey) : Bool :=
  k.place.line != l.place.line || 1024 < l.place.index - k.place.index

/-- Gives up the keys whose colon is too late. -/
def settle (l : Lexer) : Outcome Lexer :=
  if l.pending.any fun k => l.isLate k && k.required then .error .malformedDocument
  else .ok { l with pending := l.pending.filter fun k => !l.isLate k }

/-- Gives up the pending key of this level. -/
def dropKey (l : Lexer) : Outcome Lexer :=
  if l.pending.any fun k => k.level == l.level && k.required then .error .malformedDocument
  else .ok { l with pending := l.pending.filter fun k => k.level != l.level }

/-- What starts here may turn out to be a key. -/
def offerKey (l : Lexer) : Outcome Lexer :=
  if l.keyAllowed then do
    let l ← l.dropKey
    let required := !l.inBrackets && l.indent == l.place.column
    return { l with pending := ⟨l.entries.size, l.level, l.place, required⟩ :: l.pending }
  else .ok l

/-! ## 4. The next token -/

/-- How many characters in front belong to blanks, comments and line breaks, and is there a line
break? -/
def gap : Bool → List Char → Nat × Bool
  | _, [] => (0, false)
  | inComment, c :: rest =>
    if Cursor.isBreak c then ((gap false rest).1 + 1, true)
    else if inComment || c == '#' then ((gap true rest).1 + 1, (gap true rest).2)
    else if c = ' ' then ((gap false rest).1 + 1, (gap false rest).2)
    else (0, false)

/-- The next place where something stands. A byte order mark counts only at the very start. -/
def skip (l : Lexer) : Lexer :=
  let p := if l.place.index == 0 && l.place.rest.head? == some '\ufeff' then l.place.next
    else l.place
  let (count, lineEnded) := gap false p.rest
  { l with
    place := p.forward count
    keyAllowed := l.keyAllowed || (lineEnded && !l.inBrackets) }

/-- A line that separates documents. -/
def separator (l : Lexer) (t : Token) : Outcome Lexer := do
  let l ← (l.unwind (-1)).dropKey
  return { l with keyAllowed := false }.take 3 t

/-- An opening bracket. -/
def enter (l : Lexer) (t : Token) : Outcome Lexer := do
  let l ← l.offerKey
  return { l with level := l.level + 1, keyAllowed := true }.take 1 t

/-- A closing bracket. -/
def leave (l : Lexer) (t : Token) : Outcome Lexer := do
  let l ← l.dropKey
  if l.inBrackets then return { l with level := l.level - 1, keyAllowed := false }.take 1 t
  else throw .malformedDocument

/-- A comma. -/
def comma (l : Lexer) : Outcome Lexer := do
  let l ← { l with keyAllowed := true }.dropKey
  return l.take 1 .comma

/-- Starts a collection here if a mark outside of brackets needs one. -/
def beginHere (l : Lexer) (t : Token) : Outcome Lexer :=
  if l.inBrackets then .ok l
  else if l.keyAllowed then .ok (l.begin l.place.column t)
  else .error .malformedDocument

/-- The dash of an item. -/
def dash (l : Lexer) : Outcome Lexer := do
  let l ← l.beginHere .sequenceStart
  let l ← { l with keyAllowed := true }.dropKey
  return l.take 1 .dash

/-- The question mark of a key. -/
def questionMark (l : Lexer) : Outcome Lexer := do
  let l ← l.beginHere .mappingStart
  let l ← { l with keyAllowed := !l.inBrackets }.dropKey
  return l.take 1 .key

/-- The colon of a value: the pending key of this level is a key. -/
def colon (l : Lexer) : Outcome Lexer := do
  match l.pending.find? fun k => k.level == l.level with
  | some k =>
    let isNew := !l.inBrackets && l.indent < k.place.column
    let before := if isNew then [Token.mappingStart, .key] else [.key]
    return {
      l with
      entries := l.entries.modify k.entry fun e => { e with before }
      columns := if isNew then k.place.column :: l.columns else l.columns
      pending := l.pending.filter fun k => k.level != l.level
      keyAllowed := false }.take 1 .value
  | none =>
    let l ← l.beginHere .mappingStart
    return { l with keyAllowed := !l.inBrackets }.take 1 .value

/-- A scalar between quotes: its text, and what follows it. -/
def quoted (l : Lexer) (read : Outcome (List Char × List Char)) : Outcome Lexer := do
  let l ← l.offerKey
  let (text, rest) ← read
  return { l.put (.scalar false (String.ofList text)) with
    place := l.place.reach rest
    keyAllowed := false }

/-- A scalar without quotes. -/
def unquoted (l : Lexer) : Outcome Lexer := do
  let l ← l.offerKey
  let s := Unquoted.read l.inBrackets l.indent l.place
  return { l.put (.scalar true (String.ofList s.text)) with
    place := s.place
    keyAllowed := s.lineEnded }

/-- Reads the token at the place; at the end of the text all collections end. -/
def fetch (l : Lexer) : Outcome Lexer := do
  let l := (← l.settle).unwind l.place.column
  let lineStart := l.place.column == 0
  match l.place.rest with
  | [] => (l.unwind (-1)).dropKey
  | c :: rest =>
    if lineStart && Cursor.isTriple '-' (c :: rest) then l.separator .documentStart
    else if lineStart && Cursor.isTriple '.' (c :: rest) then l.separator .documentEnd
    else if c = '[' then l.enter .openBracket
    else if c = '\x7b' then l.enter .openBrace
    else if c = ']' then l.leave .closeBracket
    else if c = '\x7d' then l.leave .closeBrace
    else if c = ',' then l.comma
    else if c = '-' ∧ Cursor.isGap rest then l.dash
    else if c = '?' ∧ (l.inBrackets || Cursor.isGap rest) then l.questionMark
    else if c = ':' ∧ (l.inBrackets || Cursor.isGap rest) then l.colon
    else if c = '\'' then l.quoted (Quoted.single [] .nothing rest)
    else if c = '"' then l.quoted (Quoted.double [] .nothing .text rest)
    else if Unquoted.starts l.inBrackets c rest then l.unquoted
    else throw .malformedDocument

/-- Reads tokens up to the end of the text, so many at most. -/
def scan : Nat → Lexer → Lexer
  | 0, l => l
  | steps + 1, l =>
    match l.settle with
    | .error e => l.stop e
    | .ok l =>
      let here := l.skip
      match here.fetch with
      | .error e => l.stop e
      | .ok next => if here.place.rest.isEmpty then next else scan steps next

end Lexer

/-- **The tokens of a text.** Every token takes a character, so the length of the text is enough. -/
def Token.ofText (text : List Char) : List Token :=
  (Lexer.scan (text.length + 1) (.start text)).tokens

/-- An empty text has no tokens. -/
theorem Token.ofText_nil : Token.ofText [] = [] := by decide +kernel

end DataLineage
