import PropCatalog.Text.Blank
import PropCatalog.Text.Name

/-!
# Tokens of source text

Tokens are read one at a time from a cursor, since what a character begins depends on where it
stands: inside a markup element, text runs up to the next brace or angle bracket.  Between tokens
come gaps, made of white space and comments.  A comment to the end of a line is kept together with
the position of the token after it.
-/

namespace PropCatalog.Source

open Text

/-- The smallest meaningful piece of source text. -/
inductive Token where
  | word (spelling : String)
  | number (spelling : String)
  | string (spelling value : String)
  | mark (spelling : String)
  | finish
deriving DecidableEq, Repr

/-- Characters of one line, the last one first. -/
structure Line where
  reversed : List Char
  unbroken : ∀ c ∈ reversed, isLineEnd c = false
deriving DecidableEq, Repr

namespace Line

/-- A line without characters. -/
def blank : Line := ⟨[], by simp⟩

/-- A line with one more character. -/
def push (l : Line) (c : Char) (h : isLineEnd c = false) : Line :=
  ⟨c :: l.reversed, List.forall_mem_cons.mpr ⟨h, l.unbroken⟩⟩

/-- What a line says. -/
def text (l : Line) : String := String.ofList l.reversed.reverse

end Line

/-- A comment to the end of its line, and the position of the token after it. -/
structure Comment where
  before : Nat
  line : Line
deriving DecidableEq, Repr

/-- A place in the source text, with what remains and the comments met so far, latest first. -/
structure Cursor where
  offset : Nat
  rest : List Char
  comments : List Comment
deriving DecidableEq, Repr

/-- The start of a text. -/
def Cursor.start (text : String) : Cursor := ⟨0, text.toList, []⟩

/-! ## Gaps -/

/-- Where in a gap a character stands. -/
inductive GapState where
  | between
  | lineComment (line : Line)
  | blockComment

/-- A gap: where it ends, what follows, whether a line ended in it, and its line comments, latest
first. -/
structure Gap where
  offset : Nat
  rest : List Char
  lineEnded : Bool
  comments : List Line
deriving DecidableEq, Repr

/-- Read a gap.  Only a block comment that is never closed is refused. -/
def Gap.read : GapState → Nat → Bool → List Line → List Char → Option Gap
  | .between, n, ended, comments, [] => some ⟨n, [], ended, comments⟩
  | .between, n, ended, comments, '/' :: '/' :: cs =>
      read (.lineComment .blank) (n + 2) ended comments cs
  | .between, n, ended, comments, '/' :: '*' :: cs => read .blockComment (n + 2) ended comments cs
  | .between, n, ended, comments, c :: cs =>
      if isLineEnd c then read .between (n + 1) true comments cs
      else if isGap c then read .between (n + 1) ended comments cs
      else some ⟨n, c :: cs, ended, comments⟩
  | .lineComment line, n, ended, comments, [] => some ⟨n, [], ended, line :: comments⟩
  | .lineComment line, n, ended, comments, c :: cs =>
      if h : isLineEnd c then read .between (n + 1) true (line :: comments) cs
      else
        read (.lineComment (line.push c (eq_false_of_ne_true h))) (n + 1) ended comments cs
  | .blockComment, _, _, _, [] => none
  | .blockComment, n, ended, comments, '*' :: '/' :: cs => read .between (n + 2) ended comments cs
  | .blockComment, n, ended, comments, c :: cs =>
      read .blockComment (n + 1) (ended || isLineEnd c) comments cs

/-- The gap at a cursor. -/
def Cursor.gap (c : Cursor) : Option Gap := Gap.read .between c.offset false [] c.rest

/-- The cursor behind a gap, which has taken note of the comments in it. -/
def Cursor.past (c : Cursor) (g : Gap) : Cursor :=
  ⟨g.offset, g.rest, g.comments.map (Comment.mk g.offset) ++ c.comments⟩

/-- The cursor some characters further on. -/
def Cursor.advance (c : Cursor) (n : Nat) : Cursor :=
  { c with offset := c.offset + n, rest := c.rest.drop n }

/-! ## Strings -/

/-- The value of a hexadecimal digit. -/
def hexDigit? (c : Char) : Option Nat :=
  if c.isDigit then some (c.toNat - '0'.toNat)
  else if 'a' ≤ c && c ≤ 'f' then some (c.toNat - 'a'.toNat + 10)
  else if 'A' ≤ c && c ≤ 'F' then some (c.toNat - 'A'.toNat + 10)
  else none

/-- The number that hexadecimal digits write. -/
def hexNumber? (cs : List Char) : Option Nat :=
  cs.foldlM (fun n c => (hexDigit? c).map (16 * n + ·)) 0

/-- The character that a letter stands for after a backslash. -/
def escapedChar (c : Char) : Char :=
  match c with
  | 'n' => '\n'
  | 't' => '\t'
  | 'r' => '\r'
  | 'b' => '\x08'
  | 'v' => '\x0b'
  | 'f' => '\x0c'
  | '0' => '\x00'
  | c => c

/-- The characters that the body of a string literal stands for.  The number is that of a braced
escape being read. -/
def unescape : Option Nat → List Char → Option (List Char)
  | none, [] => some []
  | some _, [] => none
  | some n, '\x7d' :: cs => (unescape none cs).map (Char.ofNat n :: ·)
  | some n, c :: cs => do unescape (some (16 * n + (← hexDigit? c))) cs
  | none, '\\' :: 'u' :: '\x7b' :: cs => unescape (some 0) cs
  | none, '\\' :: 'u' :: h :: i :: j :: k :: cs => do
      let n ← hexNumber? [h, i, j, k]
      (unescape none cs).map (Char.ofNat n :: ·)
  | none, '\\' :: 'x' :: h :: i :: cs => do
      let n ← hexNumber? [h, i]
      (unescape none cs).map (Char.ofNat n :: ·)
  | none, '\\' :: '\r' :: '\n' :: cs => unescape none cs
  | none, '\\' :: c :: cs =>
      if c == 'u' || c == 'x' then none
      else if isLineEnd c then unescape none cs
      else (unescape none cs).map (escapedChar c :: ·)
  | none, c :: cs => (unescape none cs).map (c :: ·)

/-- The body of a string literal up to its closing quote, which is left out. -/
def stringBody (quote : Char) : List Char → Option (List Char)
  | [] => none
  | '\\' :: c :: cs => (stringBody quote cs).map fun body => '\\' :: c :: body
  | c :: cs =>
      if c == quote then some []
      else if c == '\n' || c == '\r' then none
      else (stringBody quote cs).map (c :: ·)

/-- A string literal whose opening quote has been read. -/
def stringToken (quote : Char) (cs : List Char) : Option (Token × Nat) := do
  let body ← stringBody quote cs
  let value ← unescape none body
  return (.string (String.ofList (quote :: body ++ [quote])) (String.ofList value),
    body.length + 2)

/-! ## Numbers -/

/-- Digits and the marks that separate groups of them. -/
def digits (cs : List Char) : List Char := cs.takeWhile fun c => c.isDigit || c == '_'

/-- A spelling that must not be empty. -/
def present? (spelling : List Char) : Option (List Char) :=
  if spelling.isEmpty then none else some spelling

/-- The sign at the start of a text, empty if there is none. -/
def sign : List Char → List Char
  | '+' :: _ => ['+']
  | '-' :: _ => ['-']
  | _ => []

/-- The exponent at the start of a text, empty if there is none.  It must have digits. -/
def exponent? : List Char → Option (List Char)
  | [] => some []
  | e :: cs =>
      if e == 'e' || e == 'E' then
        (present? (digits (cs.drop (sign cs).length))).map fun ds => e :: (sign cs ++ ds)
      else some []

/-- The fraction at the start of a text, empty if there is none. -/
def fraction : List Char → List Char
  | '.' :: cs => '.' :: digits cs
  | _ => []

/-- A number in decimal form. -/
def decimalNumber? (cs : List Char) : Option (List Char) :=
  let whole := digits cs
  let part := fraction (cs.drop whole.length)
  (exponent? (cs.drop (whole.length + part.length))).map fun power => whole ++ part ++ power

/-- The number at the start of a text. -/
def number? : List Char → Option (List Char)
  | '0' :: base :: cs =>
      if "xXbBoO".toList.contains base then
        (present? (cs.takeWhile fun c => (hexDigit? c).isSome || c == '_')).map fun ds =>
          '0' :: base :: ds
      else decimalNumber? ('0' :: base :: cs)
  | cs => decimalNumber? cs

/-- The number token at the start of a text.  No name may follow it directly. -/
def numberToken (cs : List Char) : Option (Token × Nat) := do
  let plain ← number? cs
  let spelling := if (cs.drop plain.length).head? == some 'n' then plain ++ ['n'] else plain
  let next := (cs.drop spelling.length).head?
  if (next.map isNamePart).getD false then none
  else some (.number (String.ofList spelling), spelling.length)

/-! ## Words and marks -/

/-- Every mark, longer ones before their beginnings. -/
def marks : List String := [
  ">>>=", "...", "===", "!==", "**=", "<<=", ">>=", ">>>", "&&=", "||=", "??=", "=>", "==", "!=",
  "<=", ">=", "&&", "||", "??", "?.", "++", "--", "+=", "-=", "*=", "/=", "%=", "&=", "|=", "^=",
  "<<", ">>", "**", "\x7b", "\x7d", "(", ")", "[", "]", ";", ",", "<", ">", "+", "-", "*", "/",
  "%", "&", "|", "^", "!", "~", "?", ":", "=", "."]

/-- The mark at the start of a text. -/
def markToken (cs : List Char) : Option (Token × Nat) :=
  (marks.find? fun m => m.toList.isPrefixOf cs).map fun m => (.mark m, m.length)

/-- The token at the start of a text, with its length. -/
def tokenAt : List Char → Option (Token × Nat)
  | [] => some (.finish, 0)
  | c :: cs =>
      if isNameStart c then
        let spelling := (c :: cs).takeWhile isNamePart
        some (.word (String.ofList spelling), spelling.length)
      else if c.isDigit || (c == '.' && (cs.head?.map Char.isDigit).getD false) then
        numberToken (c :: cs)
      else if c == '"' || c == '\'' then stringToken c cs
      else markToken (c :: cs)

/-- A token in its place. -/
structure Lexed where
  token : Token
  start : Nat
  /-- Whether a line ended between this token and the one before it. -/
  newLine : Bool
  after : Cursor
deriving DecidableEq, Repr

/-- The token at a cursor. -/
def Cursor.next (c : Cursor) : Option Lexed := do
  let g ← c.gap
  let (token, width) ← tokenAt g.rest
  return ⟨token, g.offset, g.lineEnded, (c.past g).advance width⟩

/-! ## Markup

Names in markup may hold dashes, strings in it have no escapes, and text runs up to the next brace
or angle bracket. -/

/-- The markup name at a cursor. -/
def Cursor.markupName (c : Cursor) : Option (String × Nat × Cursor) := do
  let g ← c.gap
  let first ← g.rest.head?
  if isNameStart first then
    let spelling := g.rest.takeWhile fun c => isNamePart c || c == '-'
    some (String.ofList spelling, g.offset, (c.past g).advance spelling.length)
  else none

/-- The markup string at a cursor, with its quotes. -/
def Cursor.markupString (c : Cursor) : Option (String × Nat × Cursor) := do
  let g ← c.gap
  match g.rest with
  | quote :: cs =>
      if quote == '"' || quote == '\'' then
        let body := cs.takeWhile (· != quote)
        if body.length < cs.length then
          some (String.ofList (quote :: body ++ [quote]), g.offset,
            (c.past g).advance (body.length + 2))
        else none
      else none
  | [] => none

/-- The markup text at a cursor. -/
def Cursor.markupText (c : Cursor) : String × Cursor :=
  let spelling := c.rest.takeWhile fun x => x != '\x7b' && x != '<'
  (String.ofList spelling, c.advance spelling.length)

end PropCatalog.Source
