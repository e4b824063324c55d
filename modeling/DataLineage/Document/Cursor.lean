/-!
# Places in a text

A `Cursor` is a place in the text of a document: what follows, how many characters stand before it,
and its line and column. Four characters end a line; a byte order mark takes no column. Lines of
three dashes or three points separate documents.

* `Cursor.forward_rest` -- going forward drops characters from the front.
* `Cursor.isGap_nil` -- the end of the text counts as a blank.
-/

namespace DataLineage

/-- **A place in a text.** -/
structure Cursor where
  rest : List Char
  index : Nat
  line : Nat
  column : Nat
  deriving Repr, Inhabited

namespace Cursor

/-! ## 1. Characters -/

/-- Does the character end a line? -/
def isBreak (c : Char) : Bool := c == '\n' || c == '\u0085' || c == '\u2028' || c == '\u2029'

/-- A line break as it is kept in a text: the plain one, or one of the separators of Unicode. -/
def keptBreak (c : Char) : Char := if c = '\u0085' then '\n' else c

/-- Is the character a blank, a tab or a line break? -/
def isBlank (c : Char) : Bool := c == ' ' || c == '\t' || isBreak c

/-- Does nothing, a blank, a tab or a line break stand here? -/
def isGap : List Char → Bool
  | [] => true
  | c :: _ => isBlank c

/-- The end of the text counts as a blank. -/
theorem isGap_nil : isGap [] = true := rfl

/-- Do three of the given characters stand here alone? -/
def isTriple (mark : Char) : List Char → Bool
  | a :: b :: c :: rest => a == mark && b == mark && c == mark && isGap rest
  | _ => false

/-- Does the mark of the start or the end of a document stand here? -/
def isSeparator (cs : List Char) : Bool := isTriple '-' cs || isTriple '.' cs

/-- The characters that lines are joined with which so many line breaks, the earliest first, stand
between: a single plain line break becomes a blank, and of several the first one is left out. -/
def joined : List Char → List Char
  | ['\n'] => [' ']
  | '\n' :: more => more
  | breaks => breaks

/-! ## 2. Moving -/

/-- The place at the start of a text. -/
def start (text : List Char) : Cursor := ⟨text, 0, 0, 0⟩

/-- The place behind the next character. -/
def next (p : Cursor) : Cursor :=
  match p.rest with
  | [] => p
  | c :: rest =>
    if isBreak c then ⟨rest, p.index + 1, p.line + 1, 0⟩
    else ⟨rest, p.index + 1, p.line, if c = '\ufeff' then p.column else p.column + 1⟩

/-- The place behind so many characters. -/
def forward : Nat → Cursor → Cursor
  | 0, p => p
  | n + 1, p => forward n p.next

theorem next_rest (p : Cursor) : p.next.rest = p.rest.drop 1 := by
  unfold next
  split
  · rename_i h; simp [h]
  · rename_i h; split <;> simp [h]

/-- **Going forward drops characters from the front.** -/
theorem forward_rest (n : Nat) (p : Cursor) : (forward n p).rest = p.rest.drop n := by
  induction n generalizing p with
  | zero => rfl
  | succ n ih => simp [forward, ih, next_rest]

/-- The place where so much less follows. -/
def reach (p : Cursor) (rest : List Char) : Cursor := forward (p.rest.length - rest.length) p

end Cursor

end DataLineage
