import DataLineage.Document.Token

/-!
# The markup of a document

The tokens of a document describe a tree of nodes: scalars, sequences of items, and mappings of
fields. Where a mark stands in the place of a key, a value or an item, the node there is the empty
one. A document ends with its text or with marks of its end; a second document is refused.

The recursion is on a bound for the steps; every four steps take a token.

* `Markup.ofTokens_nil` -- without tokens the document is the empty node.
* `Markup.ofTokens_scalar` -- a single scalar is a document.
* `Markup.read_tooDeep` -- where no more collections may be nested, none is read.
-/

namespace DataLineage

/-- **A node of a document.** -/
inductive Markup where
  /-- a scalar, plain or between quotes -/
  | scalar (plain : Bool) (text : String)
  | sequence (items : List Markup)
  | mapping (fields : List (Markup × Markup))
  deriving Repr, Inhabited

namespace Markup

/-- The node of a place where nothing stands. -/
def empty : Markup := .scalar true ""

/-- Where a node stands: inside brackets, alone or as an item, or as a part of a field, whose items
may start with their dashes at once. -/
inductive Slot where
  | inBrackets
  | item
  | field
  deriving DecidableEq, Repr, Inhabited

/-- Does the token close brackets or braces? -/
def closes (braces : Bool) : Token → Bool
  | .closeBracket => !braces
  | .closeBrace => braces
  | _ => false

/-- What stands between brackets, as items: a key and a value are one item. -/
def items (entries : List (Markup × Option Markup)) : List Markup :=
  entries.map fun (first, value?) =>
    match value? with
    | some value => .mapping [(first, value)]
    | none => first

/-- What stands between braces, as fields: a lone node is a key. -/
def fields (entries : List (Markup × Option Markup)) : List (Markup × Markup) :=
  entries.map fun (first, value?) => (first, value?.getD empty)

/-- How deep collections may be nested. -/
def maxDepth : Nat := 488

/-- How many collections may be nested one level further in. -/
def inside (room : Nat) : Outcome Nat :=
  match room with
  | 0 => .error .tooDeep
  | room + 1 => .ok room

mutual

/-- Reads a node, in which so many collections may be nested. -/
def read (steps room : Nat) (slot : Slot) (ts : List Token) : Outcome (Markup × List Token) :=
  match steps with
  | 0 => .error .malformedDocument
  | steps + 1 =>
    match slot, ts with
    | _, .scalar plain text :: rest => .ok (.scalar plain text, rest)
    | _, .openBracket :: rest => do
      let room ← inside room
      let (entries, rest) ← readEntries steps room false rest
      return (.sequence (items entries), rest)
    | _, .openBrace :: rest => do
      let room ← inside room
      let (entries, rest) ← readEntries steps room true rest
      return (.mapping (fields entries), rest)
    | .inBrackets, _ => .error (Token.unexpected ts)
    | _, .sequenceStart :: rest => do
      let room ← inside room
      let (items, rest) ← readItems steps room true rest
      return (.sequence items, rest)
    | _, .mappingStart :: rest => do
      let room ← inside room
      let (fields, rest) ← readFields steps room rest
      return (.mapping fields, rest)
    | .field, .dash :: _ => do
      let room ← inside room
      let (items, rest) ← readItems steps room false ts
      return (.sequence items, rest)
    | _, _ => .error (Token.unexpected ts)
termination_by structural steps

/-- Reads a part of a collection, the empty node where a mark stands. -/
def readPart (steps room : Nat) (slot : Slot) (ts : List Token) : Outcome (Markup × List Token) :=
  match steps with
  | 0 => .error .malformedDocument
  | steps + 1 =>
    match slot, ts with
    | .field, .dash :: _ => read steps room slot ts
    | _, t :: _ => if t.isMark then .ok (empty, ts) else read steps room slot ts
    | _, [] => .error .malformedDocument
termination_by structural steps

/-- Reads the value behind a key, the empty node where there is none. -/
def readValue (steps room : Nat) (slot : Slot) (ts : List Token) : Outcome (Markup × List Token) :=
  match steps with
  | 0 => .error .malformedDocument
  | steps + 1 =>
    match ts with
    | .value :: rest => readPart steps room slot rest
    | _ => .ok (empty, ts)
termination_by structural steps

/-- Reads items by their dashes, with or without a token for their end. -/
def readItems (steps room : Nat) (hasEnd : Bool) (ts : List Token) :
    Outcome (List Markup × List Token) :=
  match steps with
  | 0 => .error .malformedDocument
  | steps + 1 =>
    match hasEnd, ts with
    | _, .dash :: rest => do
      let (item, rest) ← readPart steps room .item rest
      let (more, rest) ← readItems steps room hasEnd rest
      return (item :: more, rest)
    | false, _ => .ok ([], ts)
    | true, .blockEnd :: rest => .ok ([], rest)
    | true, _ => .error (Token.unexpected ts)
termination_by structural steps

/-- Reads fields by indentation. -/
def readFields (steps room : Nat) (ts : List Token) :
    Outcome (List (Markup × Markup) × List Token) :=
  match steps with
  | 0 => .error .malformedDocument
  | steps + 1 =>
    match ts with
    | .key :: rest => do
      let (key, rest) ← readPart steps room .field rest
      let (value, rest) ← readValue steps room .field rest
      let (more, rest) ← readFields steps room rest
      return ((key, value) :: more, rest)
    | .blockEnd :: rest => .ok ([], rest)
    | _ => .error (Token.unexpected ts)
termination_by structural steps

/-- Reads what stands between brackets or braces, up to the closing one. A field between brackets is
a collection of its own. -/
def readEntries (steps room : Nat) (braces : Bool) (ts : List Token) :
    Outcome (List (Markup × Option Markup) × List Token) :=
  match steps with
  | 0 => .error .malformedDocument
  | steps + 1 =>
    match ts with
    | .key :: rest => do
      let part ← if braces then pure room else inside room
      let (key, rest) ← readPart steps part .inBrackets rest
      let (value, rest) ← readValue steps part .inBrackets rest
      let (more, rest) ← readMore steps room braces rest
      return ((key, some value) :: more, rest)
    | t :: rest =>
      if closes braces t then .ok ([], rest)
      else do
        let (first, rest) ← read steps room .inBrackets ts
        let (more, rest) ← readMore steps room braces rest
        return ((first, none) :: more, rest)
    | [] => .error .malformedDocument
termination_by structural steps

/-- Reads further entries behind a comma, or the closing bracket. -/
def readMore (steps room : Nat) (braces : Bool) (ts : List Token) :
    Outcome (List (Markup × Option Markup) × List Token) :=
  match steps with
  | 0 => .error .malformedDocument
  | steps + 1 =>
    match ts with
    | .comma :: rest => readEntries steps room braces rest
    | t :: rest => if closes braces t then .ok ([], rest) else .error (Token.unexpected ts)
    | [] => .error .malformedDocument
termination_by structural steps

end

/-- Reads the node of a document, which may be missing behind the mark of its start. -/
def readDocument (ts : List Token) : Outcome (Markup × List Token) :=
  let steps := 4 * ts.length + 4
  match ts with
  | [] => .ok (empty, [])
  | .documentStart :: rest =>
    if rest.head?.all Token.isSeparator then .ok (empty, rest) else read steps maxDepth .item rest
  | _ => read steps maxDepth .item ts

/-- Is the token the mark of the end of a document? -/
def isDocumentEnd : Token → Bool
  | .documentEnd => true
  | _ => false

/-- **The node of a document**; only marks of its end may follow. -/
def ofTokens (ts : List Token) : Outcome Markup := do
  let (node, rest) ← readDocument ts
  match rest.dropWhile isDocumentEnd with
  | [] => return node
  | more => throw (Token.unexpected more)

/-- **Without tokens the document is the empty node.** -/
theorem ofTokens_nil : ofTokens [] = .ok empty := rfl

/-- A single scalar is a document. -/
theorem ofTokens_scalar (plain : Bool) (text : String) :
    ofTokens [.scalar plain text] = .ok (.scalar plain text) := rfl

/-- Where no more collections may be nested, none is read. -/
theorem read_tooDeep (steps : Nat) (slot : Slot) (rest : List Token) :
    read (steps + 1) 0 slot (.openBracket :: rest) = .error .tooDeep := by
  cases slot <;> rfl

end Markup

end DataLineage
