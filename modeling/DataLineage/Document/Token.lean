import DataLineage.Fault

/-!
# The tokens of a document

A document is a list of tokens: its scalars, the marks written in it, and the starts and ends of
collections that follow from the indentation. A text that cannot be read further ends in a `broken`
token with the cause.

* `Token.isMark_scalar` -- no scalar is a mark.
-/

namespace DataLineage

/-- **A token of a document.** -/
inductive Token where
  | documentStart
  | documentEnd
  /-- items by indentation start -/
  | sequenceStart
  /-- fields by indentation start -/
  | mappingStart
  /-- items or fields by indentation end -/
  | blockEnd
  | openBracket
  | closeBracket
  | openBrace
  | closeBrace
  | dash
  | comma
  /-- the key of a field follows -/
  | key
  /-- the value of a field follows -/
  | value
  /-- a scalar, plain or between quotes -/
  | scalar (plain : Bool) (text : String)
  /-- the text cannot be read further -/
  | broken (cause : Fault)
  deriving Repr, Inhabited

namespace Token

/-- Is the token a mark that no node starts with? -/
def isMark : Token → Bool
  | blockEnd | closeBracket | closeBrace | dash | comma | key | value => true
  | _ => false

/-- **No scalar is a mark.** -/
theorem isMark_scalar (plain : Bool) (text : String) : isMark (.scalar plain text) = false := rfl

/-- Does the token separate documents? -/
def isSeparator : Token → Bool
  | documentStart | documentEnd => true
  | _ => false

/-- The fault of a document that cannot go on with these tokens. -/
def unexpected : List Token → Fault
  | broken cause :: _ => cause
  | _ => .malformedDocument

end Token

end DataLineage
