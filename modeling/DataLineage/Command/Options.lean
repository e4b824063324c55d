import DataLineage.Text.Numeral

/-!
# Options on a command line

Words that start with two dashes name options, in full or by any start of the name that no other
option shares; a value follows as the next word or after an equality sign. Flags of one letter can
share a word that starts with one dash. Negative numbers, words with blanks and everything behind a
lone pair of dashes are plain words.

* `Options.parse_nil` -- no words at all.
* `Options.matching_exact` -- a full name is never ambiguous.
* `Options.valuesOf_dashes` -- a pair of dashes behind an equality sign is no value.
* `Options.read_last` -- behind an option that is the last one nothing is looked at.
-/

namespace DataLineage.Options

/-- How many values an option takes: none, one, or at most one. An option can be the last one: it
takes no value, and what stands behind it does not count. -/
inductive Arity where
  | flag
  | one
  | optional
  | last
  deriving DecidableEq, Repr, Inhabited

/-- Does the option take no value? -/
def Arity.takesNone : Arity → Bool
  | flag | last => true
  | one | optional => false

/-- An option by its full name, the dashes included. -/
structure Spec where
  name : String
  arity : Arity
  deriving DecidableEq, Repr, Inhabited

/-- What a word is: a plain word, the pair of dashes behind which all words are plain, flags of one
letter, or an option with the value that its word holds; an option can be unknown. -/
inductive Token where
  | word (text : String)
  | dashes
  | flags (specs : List Spec)
  | option (spec : Option Spec) (value : Option String)
  deriving Repr, Inhabited

/-! ## 1. What a word is -/

/-- Does the text look like a negative number? A line break at its end does not count. -/
def isNegativeNumber (s : String) : Bool :=
  match s.toList with
  | '-' :: rest =>
    let rest := if rest.getLast? == some '\n' then rest.dropLast else rest
    let whole := rest.takeWhile Text.isDecimalDigit
    match rest.dropWhile Text.isDecimalDigit with
    | [] => !whole.isEmpty
    | '.' :: places => !places.isEmpty && places.all Text.isDecimalDigit
    | _ => false
  | _ => false

/-- The text before the first equality sign, and the text behind it if there is one. -/
def splitValue (s : String) : String × Option String :=
  let front := s.toList.takeWhile (· != '=')
  match s.toList.dropWhile (· != '=') with
  | _ :: value => (String.ofList front, some (String.ofList value))
  | [] => (s, none)

/-- The options that a text can mean: the one of that name, or all whose names it starts. -/
def matching (specs : List Spec) (text : String) : List Spec :=
  match specs.find? fun s => s.name == text with
  | some spec => [spec]
  | none => specs.filter fun s => Text.hasStart text s.name

/-- **A full name is never ambiguous.** -/
theorem matching_exact {specs : List Spec} {text : String} {spec : Spec}
    (h : (specs.find? fun s => s.name == text) = some spec) : matching specs text = [spec] := by
  simp [matching, h]

/-- What a word that no option can mean is. -/
def unknown (word : String) : Token :=
  if isNegativeNumber word || word.toList.contains ' ' then .word word else .option none none

/-- The option of one letter. -/
def short? (specs : List Spec) (letter : Char) : Option Spec :=
  specs.find? fun s => s.name == String.ofList ['-', letter]

/-- What a word with an option of one letter is: where the option takes no value, the characters
behind it have to be further such options. -/
def shortToken (specs : List Spec) (spec : Spec) (rest : List Char) : Token :=
  let value := if rest.head? == some '=' then rest.drop 1 else rest
  match spec.arity.takesNone, value.mapM (short? specs) with
  | true, some more =>
    if more.isEmpty || more.any fun s => !s.arity.takesNone then
      .option (some spec) (some (String.ofList value))
    else .flags (spec :: more)
  | _, _ => .option (some spec) (some (String.ofList value))

/-- What a word is; a word that can mean several options is nothing. -/
def token? (specs : List Spec) (word : String) : Option Token :=
  match specs.find? fun s => s.name == word, word.toList with
  | some spec, _ => some (.option (some spec) none)
  | none, '-' :: '-' :: _ =>
    let (name, value) := splitValue word
    match matching specs name with
    | [spec] => some (.option (some spec) value)
    | [] => some (unknown word)
    | _ => none
  | none, '-' :: letter :: rest =>
    match short? specs letter with
    | some spec => some (shortToken specs spec rest)
    | none => some (unknown word)
  | none, _ => some (.word word)

/-- What the words of a command line are. -/
def tokens? (specs : List Spec) : List String → Option (List Token)
  | [] => some []
  | word :: rest =>
    if word = "--" then some (.dashes :: rest.map .word)
    else do
      let t ← token? specs word
      return t :: (← tokens? specs rest)

/-! ## 2. What a command line says -/

/-- What was given: options in order, each with its values, which are at most one; plain words for
the expected places; and whether there was more than is expected. -/
structure Given where
  options : List (String × List String)
  words : List String
  surplus : Bool
  deriving Repr, Inhabited

/-- Nothing was given. -/
def Given.nothing : Given := ⟨[], [], false⟩

/-- One more option. -/
def Given.withOption (g : Given) (name : String) (values : List String) : Given :=
  { g with options := (name, values) :: g.options }

/-- The values that stand behind an equality sign: the text there, unless it is a pair of dashes. -/
def valuesOf (text : String) : List String := if text = "--" then [] else [text]

/-- **A pair of dashes behind an equality sign is no value.** -/
theorem valuesOf_dashes : valuesOf "--" = [] := rfl

/-- One more plain word. -/
def Given.withWord (g : Given) (word : String) : Given := { g with words := word :: g.words }

/-- More than is expected. -/
def Given.withSurplus (g : Given) : Given := { g with surplus := true }

/-- A plain word: for the next expected place, if one is left. -/
def Given.take (places : Nat) (word : String) (g : Given) : Given :=
  if places = 0 then g.withSurplus else g.withWord word

/-- Reads tokens with so many plain words expected. A pair of dashes beside a plain word belongs to
it; one that stands alone is more than is expected. -/
def read (places : Nat) : List Token → Option Given
  | [] => some .nothing
  | .word text :: .dashes :: rest => (read (places - 1) rest).map (Given.take places text)
  | .word text :: rest => (read (places - 1) rest).map (Given.take places text)
  | .dashes :: .word text :: rest => (read (places - 1) rest).map (Given.take places text)
  | .dashes :: rest => (read places rest).map Given.withSurplus
  | .option none _ :: rest => (read places rest).map Given.withSurplus
  | .flags specs :: rest =>
    if specs.any fun s => s.arity == .last then some (flags specs .nothing)
    else (read places rest).map (flags specs)
  | .option (some spec) (some value) :: rest =>
    if spec.arity.takesNone then none
    else (read places rest).map (·.withOption spec.name (valuesOf value))
  | .option (some spec) none :: rest =>
    match spec.arity with
    | .last => some (Given.nothing.withOption spec.name [])
    | .flag => (read places rest).map (·.withOption spec.name [])
    | .one =>
      match rest with
      | .word text :: rest => (read places rest).map (·.withOption spec.name [text])
      | _ => none
    | .optional =>
      match rest with
      | .word text :: rest => (read places rest).map (·.withOption spec.name [text])
      | rest => (read places rest).map (·.withOption spec.name [])
where
  /-- Options without values. -/
  flags (specs : List Spec) (g : Given) : Given :=
    specs.foldr (fun spec g => g.withOption spec.name []) g

/-- **Behind an option that is the last one nothing is looked at.** -/
theorem read_last (places : Nat) (spec : Spec) (rest : List Token) (h : spec.arity = .last) :
    read places (.option (some spec) none :: rest) = some ⟨[(spec.name, [])], [], false⟩ := by
  unfold read
  simp only [h]
  rfl

/-- **What a command line says**, if every option is known by its word and has the values that it
takes. -/
def parse (specs : List Spec) (places : Nat) (words : List String) : Option Given := do
  read places (← tokens? specs words)

/-- No words say nothing. -/
theorem parse_nil (specs : List Spec) (places : Nat) :
    parse specs places [] = some .nothing := by
  simp [parse, tokens?, read]

end DataLineage.Options
