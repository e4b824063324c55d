/-!
# Characters and parts of texts

A class of characters is a list of closed ranges of code points (`inRanges`); the tables are
ascending and keep the ranges apart (`ascending`). Blanks are what is trimmed off the ends of a text:
the white space of Unicode and the four information separators U+001C to U+001F.

Keywords are Latin capitals. A text is compared with one after each character that has a single
ASCII capital is replaced by it: the small letters a to z, the dotless i and the long s. Every
other character outside ASCII has no such capital, so it can belong to no keyword.

* `inRanges_iff` -- a code point is in a class exactly when some range holds it.
* `isBlank_of_isWhitespace` -- every character of the core white space is blank.
* `trim_blank_left` -- a blank at the front of a text does not matter to `trim`.
* `capital_of_upper` -- a capital stays as it is.
* `hasPart_iff` -- a text has a part exactly when it is that part between two other texts.
-/

namespace DataLineage.Text

/-! ## 1. Classes of characters -/

/-- Does one of the closed ranges hold the code point? -/
def inRanges (ranges : List (Nat × Nat)) (n : Nat) : Bool :=
  ranges.any fun r => r.1 ≤ n && n ≤ r.2

/-- **Membership is membership in one range.** -/
theorem inRanges_iff (ranges : List (Nat × Nat)) (n : Nat) :
    inRanges ranges n = true ↔ ∃ r ∈ ranges, r.1 ≤ n ∧ n ≤ r.2 := by
  simp [inRanges]

/-- Each range is written in order and ends before the next one starts, with a gap between. -/
def ascending : List (Nat × Nat) → Bool
  | [] => true
  | [r] => r.1 ≤ r.2
  | r :: s :: rest => r.1 ≤ r.2 && r.2 + 1 < s.1 && ascending (s :: rest)

/-! ## 2. Blanks -/

/-- Blank code points: Unicode white space and the information separators. -/
def blankRanges : List (Nat × Nat) :=
  [(0x9, 0xD), (0x1C, 0x20), (0x85, 0x85), (0xA0, 0xA0), (0x1680, 0x1680), (0x2000, 0x200A),
   (0x2028, 0x2029), (0x202F, 0x202F), (0x205F, 0x205F), (0x3000, 0x3000)]

theorem blankRanges_ascending : ascending blankRanges = true := by decide

/-- Is the character blank? -/
def isBlank (c : Char) : Bool := inRanges blankRanges c.toNat

/-- Core's four white space characters are blank; the table adds to them. -/
theorem isBlank_of_isWhitespace (c : Char) (h : c.isWhitespace = true) : isBlank c = true := by
  simp [Char.isWhitespace] at h
  rcases h with ((h | h) | h) | h <;> subst h <;> decide

/-- The text without the characters of a class at its two ends. -/
def trimBy (drop : Char → Bool) (s : String) : String :=
  let front := s.toList.dropWhile drop
  String.ofList ((front.reverse.dropWhile drop).reverse)

/-- The text without blanks at its two ends. -/
def trim (s : String) : String := trimBy isBlank s

theorem trim_blank_left (c : Char) (s : List Char) (h : isBlank c = true) :
    trim (String.ofList (c :: s)) = trim (String.ofList s) := by
  simp [trim, trimBy, h]

/-- The words of a text: its longest runs of characters that are not blank. -/
def words (s : String) : List String :=
  let rec go : List Char → List Char → List String
    | [], word => if word.isEmpty then [] else [String.ofList word.reverse]
    | c :: rest, word =>
      if isBlank c then
        if word.isEmpty then go rest [] else String.ofList word.reverse :: go rest []
      else go rest (c :: word)
  go s.toList []

/-- Every run of blanks becomes one space, and the ends have none. -/
def singleSpaced (s : String) : String := " ".intercalate (words s)

/-! ## 3. Letter case of keywords -/

/-- The ASCII capital of a character that has one; any other character is left alone. -/
def capital (c : Char) : Char :=
  if 'a' ≤ c ∧ c ≤ 'z' then Char.ofNat (c.toNat - 32)
  else if c = 'ı' then 'I'
  else if c = 'ſ' then 'S'
  else c

/-- The ASCII small letter of a character that has one: A to Z and the kelvin sign. -/
def small (c : Char) : Char :=
  if 'A' ≤ c ∧ c ≤ 'Z' then Char.ofNat (c.toNat + 32)
  else if c = '\u212a' then 'k'
  else c

/-- The text with each character replaced by its capital. -/
def inCapitals (s : String) : String := s.map capital

/-- The text with each character replaced by its small letter. -/
def inSmall (s : String) : String := s.map small

theorem capital_of_upper (c : Char) (h : 'A' ≤ c ∧ c ≤ 'Z') : capital c = c := by
  have h1 : ¬ ('a' ≤ c ∧ c ≤ 'z') := by
    rintro ⟨ha, -⟩
    have := Char.le_trans ha h.2
    exact absurd this (by decide)
  have h2 : c ≠ 'ı' := by rintro rfl; exact absurd h.2 (by decide)
  have h3 : c ≠ 'ſ' := by rintro rfl; exact absurd h.2 (by decide)
  simp [capital, h1, h2, h3]

/-! ## 4. Parts of a text -/

/-- Does the list of characters start with the other? -/
def startsWith : List Char → List Char → Bool
  | [], _ => true
  | _ :: _, [] => false
  | p :: ps, c :: cs => p == c && startsWith ps cs

/-- Does the part occur somewhere in the characters? -/
def occursIn (part : List Char) : List Char → Bool
  | [] => part.isEmpty
  | c :: rest => startsWith part (c :: rest) || occursIn part rest

/-- Does the text begin with the other one? -/
def hasStart (start s : String) : Bool := startsWith start.toList s.toList

/-- Does the text contain the other one? -/
def hasPart (part s : String) : Bool := occursIn part.toList s.toList

theorem startsWith_iff (p cs : List Char) : startsWith p cs = true ↔ ∃ rest, cs = p ++ rest := by
  induction p generalizing cs with
  | nil => simp [startsWith]
  | cons c p ih =>
    cases cs with
    | nil => simp [startsWith]
    | cons d cs =>
      simp only [startsWith, Bool.and_eq_true, beq_iff_eq, ih, List.cons_append, List.cons.injEq]
      constructor
      · rintro ⟨rfl, rest, rfl⟩; exact ⟨rest, rfl, rfl⟩
      · rintro ⟨rest, rfl, rfl⟩; exact ⟨rfl, rest, rfl⟩

theorem occursIn_iff (p cs : List Char) :
    occursIn p cs = true ↔ ∃ front rest, cs = front ++ p ++ rest := by
  induction cs with
  | nil =>
    cases p with
    | nil => simp [occursIn]
    | cons c p => simp [occursIn]
  | cons c cs ih =>
    simp only [occursIn, Bool.or_eq_true, startsWith_iff, ih]
    constructor
    · rintro (⟨rest, h⟩ | ⟨front, rest, rfl⟩)
      · exact ⟨[], rest, by simpa using h⟩
      · exact ⟨c :: front, rest, by simp⟩
    · rintro ⟨front, rest, h⟩
      cases front with
      | nil => exact Or.inl ⟨rest, by simpa using h⟩
      | cons d front =>
        simp only [List.cons_append, List.cons.injEq] at h
        exact Or.inr ⟨front, rest, h.2⟩

/-- **A part is what stands between a front and a rest.** -/
theorem hasPart_iff (part s : String) :
    hasPart part s = true ↔ ∃ front rest, s.toList = front ++ part.toList ++ rest :=
  occursIn_iff _ _

end DataLineage.Text
