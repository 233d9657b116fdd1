import PropCatalog.Source.Token
import PropCatalog.Tree.Nodes

/-!
# Reading trees from tokens

A reader consumes tokens from a cursor and gives a value, or refuses.  A refusal gives no reason
and leaves the cursor of an alternative where it was.  Repetition is bounded by the characters that
remain.
-/

namespace PropCatalog.Source

/-- What reads a value at a cursor. -/
abbrev Reader (α : Type) := StateT Cursor Option α

namespace Reader

variable {α : Type}

/-! ## Tokens -/

/-- Consume a token. -/
def next : Reader Lexed := fun c => c.next.map fun l => (l, l.after)

/-- Look at a token without consuming it. -/
def look : Reader Lexed := fun c => c.next.map fun l => (l, c)

/-- Look at the token after the next one. -/
def lookSecond : Reader Lexed := fun c => do
  let l ← (← c.next).after.next
  return (l, c)

/-- Whether the next token is the given one. -/
def isNext (t : Token) : Reader Bool := return (← look).token == t

/-- Whether the next token is a mark. -/
def isMark (m : String) : Reader Bool := isNext (.mark m)

/-- Whether the next token is a word. -/
def isWord (w : String) : Reader Bool := isNext (.word w)

/-- Consume the given token if it is next, and say whether it was. -/
def takes (t : Token) : Reader Bool := do
  let l ← look
  if l.token == t then set l.after
  return l.token == t

/-- Consume a mark that must be next. -/
def mark (m : String) : Reader Unit := do
  let l ← next
  guard (l.token == .mark m)

/-- Consume a word that must be next. -/
def word (w : String) : Reader Unit := do
  let l ← next
  guard (l.token == .word w)

/-- Consume any word. -/
def anyWord : Reader String := do
  let .word w := (← next).token | failure
  return w

/-- Consume a word that modifies what follows it, if it is next, and say whether it was.  The token
after the word can show that it is no modifier. -/
def modifier (w : String) (isOther : Lexed → Bool) : Reader Bool := do
  unless ← isWord w do return false
  if isOther (← lookSecond) then return false
  takes (.word w)

/-- Whether a line ends before the next token. -/
def isNewLine : Reader Bool := return (← look).newLine

/-- The end of a statement: a semicolon, or a place where one may be left out. -/
def semicolon : Reader Unit := do
  let l ← look
  if l.token == .mark ";" then set l.after
  else guard (l.token == .mark "\x7d" || l.token == .finish || l.newLine)

/-! ## Repetition -/

/-- Collect what a reader gives until it gives nothing, at most so many times. -/
def collect (step : Reader (Option α)) : Nat → Reader (List α)
  | 0 => failure
  | n + 1 => do
      match ← step with
      | none => return []
      | some a => return a :: (← collect step n)

/-- Collect what a reader gives until it gives nothing.  The reader consumes a character whenever
it gives something, so the characters that remain bound the repetition. -/
def many (step : Reader (Option α)) : Reader (List α) := do
  collect step ((← get).rest.length + 1)

/-- Extend a value as long as a reader can, at most so many times. -/
def extend (step : α → Reader (Option α)) : Nat → α → Reader α
  | 0, _ => failure
  | n + 1, a => do
      match ← step a with
      | none => return a
      | some b => extend step n b

/-- Extend a value as long as a reader can, the reader consuming a character each time. -/
def extendAll (step : α → Reader (Option α)) (a : α) : Reader α := do
  extend step ((← get).rest.length + 1) a

/-- One turn of a series: an item with the comma after it, unless the closing mark is next.  A comma
may follow the last item. -/
def seriesStep (close : String) (item : Reader α) : Reader (Option α) := do
  if ← isMark close then return none
  let a ← item
  unless ← isMark close do mark ","
  return some a

/-- Items separated by commas up to a closing mark, which is consumed. -/
def series (close : String) (item : Reader α) : Reader (List α) := do
  let items ← many (seriesStep close item)
  mark close
  return items

/-! ## Trees -/

/-- Where the next token starts. -/
def position : Reader Nat := fun c => c.gap.map fun g => (g.offset, c)

/-- The span from a position to where reading has come. -/
def spanFrom (start : Nat) : Reader Tree := return .span ⟨start, (← get).offset⟩

/-- A node of a kind, given its parts. -/
def node (kind : Tree.Kind) (parts : List Tree) : Tree := .node (.known kind) parts

/-- The context of everything read. -/
def context : Tree := .leaf (.number "0")

/-- A reference to an identifier. -/
def reference (span : Tree) (x : String) : Tree :=
  .node (.identifier x) [span, context, .bool false]

/-- A binding of an identifier. -/
def binding (span : Tree) (x : String) (optional : Bool) (type : Tree) : Tree :=
  .node (.identifier x) [span, context, .bool optional, type]

/-- A spelling that refers to nothing. -/
def plainName (span : Tree) (x : String) : Tree := .node (.name x) [span]

/-- Words that cannot be identifiers. -/
def reservedWords : List String := [
  "await", "break", "case", "catch", "class", "const", "continue", "debugger", "default", "delete",
  "do", "else", "enum", "export", "extends", "false", "finally", "for", "function", "if", "import",
  "in", "instanceof", "new", "null", "return", "super", "switch", "this", "throw", "true", "try",
  "typeof", "var", "void", "while", "with", "yield"]

/-- Whether a word can be an identifier. -/
def isIdentifier (w : String) : Bool := !reservedWords.contains w

/-- An identifier, with where it starts. -/
def identifierWord : Reader (Nat × String) := do
  let l ← next
  let .word w := l.token | failure
  guard (isIdentifier w)
  return (l.start, w)

/-- An identifier as a reference. -/
def identifier : Reader Tree := do
  let (start, w) ← identifierWord
  return reference (← spanFrom start) w

/-- Any word as a reference. -/
def anyReference : Reader Tree := do
  let start ← position
  let w ← anyWord
  return reference (← spanFrom start) w

/-- Any word as a name. -/
def anyName : Reader Tree := do
  let start ← position
  let w ← anyWord
  return plainName (← spanFrom start) w

/-- A string literal. -/
def stringLiteral : Reader Tree := do
  let l ← next
  let .string spelling value := l.token | failure
  return .string (← spanFrom l.start) (.text value) (.text spelling)

/-- A number literal. -/
def numberLiteral : Reader Tree := do
  let l ← next
  let .number spelling := l.token | failure
  return node .numericLiteral
    [← spanFrom l.start, .leaf (.number spelling), .text spelling]

end Reader

end PropCatalog.Source
