import DataLineage.Document.Lexer
import DataLineage.Document.Meaning

/-!
# Reading documents

Type models and seed data are written as documents in a part of YAML: mappings and sequences, by
indentation or in brackets, and plain or quoted scalars, with comments. Anchors, tags, directives
and literal blocks are not part of it.

A text is cut into tokens, the tokens describe nodes, and the nodes stand for values.

* `Yaml.read_empty` -- an empty text is the null document.
* `Yaml.read_unallowed` -- a text with a control character is no document.
-/

namespace DataLineage.Yaml

/-- Line breaks in one spelling. -/
def unixLines : List Char → List Char
  | [] => []
  | '\r' :: '\n' :: rest => '\n' :: unixLines rest
  | '\r' :: rest => '\n' :: unixLines rest
  | c :: rest => c :: unixLines rest

/-- May the character stand in a document? -/
def isAllowed (c : Char) : Bool :=
  c == '\t' || c == '\n' || c == '\u0085' || (0x20 ≤ c.toNat && c.toNat ≤ 0x7E) ||
    (0xA0 ≤ c.toNat && c.toNat != 0xFFFE && c.toNat != 0xFFFF)

/-- **Reads a document.** -/
def read (text : String) : Outcome Value := do
  let text := unixLines text.toList
  if text.all isAllowed then
    (← Markup.ofTokens (Token.ofText text)).value text.length
  else throw .malformedDocument

/-- An empty text is the null document. -/
theorem read_empty : read "" = .ok .null := by
  rw [read, show unixLines "".toList = [] from rfl]
  simp only [List.all_nil, if_true, Token.ofText_nil]
  rfl

/-- A text with a character that may not stand in a document is none. -/
theorem read_unallowed (text : String) (h : (unixLines text.toList).all isAllowed = false) :
    read text = .error .malformedDocument := by
  simp only [read, h, Bool.false_eq_true, if_false]
  rfl

end DataLineage.Yaml
