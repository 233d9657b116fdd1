/-!
# What is wrong with a JSON text

The ways in which a text can fail to be JSON, with the wording of each.  A text that merely ends
too soon is told apart from one that is malformed.
-/

namespace PropCatalog.Json

/-- Why reading stopped. -/
inductive Fault where
  | endInValue | endInObject | endInList | endInString
  | expectedValue | expectedIdent | expectedColon | expectedCommaOrBrace | expectedCommaOrBracket
  | trailingComma | trailingCharacters | keyNotString
  | invalidNumber | numberOutOfRange
  | invalidEscape | unfinishedSurrogatePair | loneSurrogate | controlCharacter
deriving DecidableEq, Repr

namespace Fault

/-- Whether the text ended where more was needed. -/
def isEnd : Fault → Bool
  | endInValue | endInObject | endInList | endInString => true
  | _ => false

/-- The wording of a fault. -/
def message : Fault → String
  | endInValue => "EOF while parsing a value"
  | endInObject => "EOF while parsing an object"
  | endInList => "EOF while parsing a list"
  | endInString => "EOF while parsing a string"
  | expectedValue => "expected value"
  | expectedIdent => "expected ident"
  | expectedColon => "expected `:`"
  | expectedCommaOrBrace => "expected `,` or `\x7d`"
  | expectedCommaOrBracket => "expected `,` or `]`"
  | trailingComma => "trailing comma"
  | trailingCharacters => "trailing characters"
  | keyNotString => "key must be a string"
  | invalidNumber => "invalid number"
  | numberOutOfRange => "number out of range"
  | invalidEscape => "invalid escape"
  | unfinishedSurrogatePair => "unexpected end of hex escape"
  | loneSurrogate => "lone leading surrogate in hex escape"
  | controlCharacter => "control character (\\u0000-\\u001F) found while parsing a string"

end Fault

/-- Where a text breaks off: the fault met when the value there is used, and the one met when it
is only skipped over. -/
structure Break where
  used : Fault
  skipped : Fault
deriving DecidableEq, Repr

/-- A break that shows itself the same way in both cases. -/
def Break.both (f : Fault) : Break := ⟨f, f⟩

end PropCatalog.Json
