import DataLineage.Document.Cursor

/-!
# Scalars without quotes

A scalar without quotes is made of runs, which end at blanks, line breaks and the marks of
collections. Between two runs of one scalar stand blanks or line breaks; a line break joins the runs
by a blank. The scalar ends at a comment, at a separator of documents, and outside of brackets where
a line is not indented further than what is around it.

* `Unquoted.run_append` -- a run is what the text starts with.
* `Unquoted.breaks_cons` -- a text that starts otherwise has no line break in front.
-/

namespace DataLineage

/-- A scalar without quotes: its text, the place behind it, and whether a line break was read
after its last run. -/
structure Unquoted where
  text : List Char
  place : Cursor
  lineEnded : Bool
  deriving Repr, Inhabited

namespace Unquoted

/-! ## 1. Runs -/

/-- Can a scalar without quotes start with the character before these ones? -/
def starts (inBrackets : Bool) (c : Char) (rest : List Char) : Bool :=
  if c == '-' then !Cursor.isGap rest
  else if c == '?' || c == ':' then !inBrackets && !Cursor.isGap rest
  else !(Cursor.isBlank c || ",[]\x7b\x7d#&*!|>'\"%@\x60".toList.contains c)

/-- Does a run end before these characters? -/
def pauses (inBrackets : Bool) : List Char → Bool
  | [] => true
  | c :: rest =>
    Cursor.isBlank c || (inBrackets && ",?[]\x7b\x7d".toList.contains c) ||
      (c == ':' && (Cursor.isGap rest ||
        (inBrackets && rest.head?.any fun d => ",[]\x7b\x7d".toList.contains d)))

/-- The run at the start of a text. -/
def run (inBrackets : Bool) : List Char → List Char
  | [] => []
  | c :: rest => if pauses inBrackets (c :: rest) then [] else c :: run inBrackets rest

/-- **A run is what the text starts with.** -/
theorem run_append (inBrackets : Bool) (cs : List Char) :
    run inBrackets cs ++ cs.drop (run inBrackets cs).length = cs := by
  induction cs with
  | nil => rfl
  | cons c rest ih => by_cases h : pauses inBrackets (c :: rest) = true <;> simp [run, h, ih]

/-! ## 2. What stands between runs -/

/-- The line breaks in front, up to a separator of documents, and how many characters they and the
blanks around them are. -/
def breaks : List Char → List Char × Nat
  | [] => ([], 0)
  | c :: rest =>
    if c = ' ' then
      let (lines, width) := breaks rest
      (lines, width + 1)
    else if Cursor.isBreak c then
      if Cursor.isSeparator rest then ([Cursor.keptBreak c], 1)
      else
        let (lines, width) := breaks rest
        (Cursor.keptBreak c :: lines, width + 1)
    else ([], 0)

/-- A text that starts with neither a blank nor a line break has no line break in front. -/
theorem breaks_cons (c : Char) (rest : List Char) (h : c ≠ ' ') (hb : Cursor.isBreak c = false) :
    breaks (c :: rest) = ([], 0) := by
  simp [breaks, h, hb]

/-- What stands between two runs: the characters that it stands for, none where the scalar ends
here, the place behind it, and whether there is a line break in it. -/
structure Joint where
  chars : List Char
  place : Cursor
  lineEnded : Bool
  deriving Repr, Inhabited

/-- The joint at a place. -/
def joint (p : Cursor) : Joint :=
  let (lines, width) := breaks p.rest
  let q := p.forward width
  if lines.isEmpty then ⟨p.rest.takeWhile (· == ' '), q, false⟩
  else if q.column == 0 && Cursor.isSeparator q.rest then ⟨[], q, true⟩
  else ⟨Cursor.joined lines, q, true⟩

/-! ## 3. Scalars -/

/-- Reads on behind a joint, for a scalar that is indented further than the given column; what was
read comes with the latest character first. Every run takes a character, so the text that was left
at the start bounds their number. -/
def readOn (inBrackets : Bool) (indent : Int) : List Char → List Char → Joint → Unquoted
  | [], acc, j => ⟨acc.reverse, j.place, j.lineEnded⟩
  | _ :: bound, acc, j =>
    let line := run inBrackets j.place.rest
    if j.chars.isEmpty || j.place.rest.head? == some '#' || line.isEmpty ||
        (!inBrackets && j.place.column ≤ indent) then
      ⟨acc.reverse, j.place, j.lineEnded⟩
    else readOn inBrackets indent bound (line.reverse ++ (j.chars.reverse ++ acc))
      (joint (j.place.forward line.length))

/-- **Reads a scalar without quotes** that is indented further than the given column. -/
def read (inBrackets : Bool) (indent : Int) (p : Cursor) : Unquoted :=
  let line := run inBrackets p.rest
  readOn inBrackets indent p.rest line.reverse (joint (p.forward line.length))

end Unquoted

end DataLineage
