import PropCatalog.Json.Lexeme
import PropCatalog.Json.Value

/-!
# JSON text as far as it can be read

A reading is what a text says up to the place where it breaks off.  Whoever takes a value out of
a reading meets its faults in the order of the text, and only the faults of what is used: a
number out of range or an unpaired surrogate does no harm in a value that is skipped.

A reading without faults is a JSON value (`Reading.plain?`), and every JSON value is such a
reading (`Reading.ofJson`).
-/

namespace PropCatalog.Json

/-- What a JSON text says, as far as it can be read.  An array or an object may break off before
it is closed. -/
inductive Reading where
  | null
  | bool (value : Bool)
  | number (lexeme : String)
  | text (value : Except Fault String)
  | array (items : List Reading) (ending : Option Break)
  | object (members : List (Except Fault String × Reading)) (ending : Option Break)
  | broken (place : Break)

namespace Reading

/-- Whether a character may stand between the parts of a JSON text. -/
def isBlank (c : Char) : Bool := c = ' ' || c = '\n' || c = '\t' || c = '\r'

/-- The text from its first character that is not blank. -/
def skipBlank (cs : List Char) : List Char := cs.dropWhile isBlank

/-- What follows a word whose first letter has been read. -/
def skipWord : List Char → List Char → Except Fault (List Char)
  | [], cs => .ok cs
  | _ :: _, [] => .error .endInValue
  | w :: ws, c :: cs => if w = c then skipWord ws cs else .error .expectedIdent

/-- A reading and the text after it; no text if the reading broke off. -/
abbrev Result (α : Type) := α × Option (List Char)

/-- A word that stands for a value. -/
def readWord (word : String) (value : Reading) (cs : List Char) : Result Reading :=
  match skipWord word.toList cs with
  | .ok rest => (value, some rest)
  | .error f => (.broken (.both f), none)

/-- A string whose opening quote has been read. -/
def readText (cs : List Char) : Except Break (Except Fault String × List Char) :=
  match readString cs, skipString cs with
  | .ok (chars, _), .ok rest => .ok (.ok (String.ofList chars), rest)
  | .error f, .ok rest => .ok (.error f, rest)
  | .error f, .error g => .error ⟨f, g⟩
  | .ok _, .error g => .error (.both g)

mutual

/-- Read a value.  The first argument bounds the depth of the recursion. -/
def readValue : Nat → List Char → Result Reading
  | 0, _ => (.broken (.both .endInValue), none)
  | fuel + 1, cs =>
      match skipBlank cs with
      | [] => (.broken (.both .endInValue), none)
      | c :: cs =>
          if c = 'n' then readWord "ull" .null cs
          else if c = 't' then readWord "rue" (.bool true) cs
          else if c = 'f' then readWord "alse" (.bool false) cs
          else if c = '"' then
            match readText cs with
            | .ok (value, rest) => (.text value, some rest)
            | .error b => (.broken b, none)
          else if c = '[' then
            let ((items, ending), rest) := readItems fuel true cs
            (.array items ending, rest)
          else if c = '\x7b' then
            let ((members, ending), rest) := readMembers fuel true cs
            (.object members ending, rest)
          else if c = '-' || c.isDigit then
            match scanNumber (c :: cs) with
            | .ok (lexeme, rest) => (.number (String.ofList lexeme), some rest)
            | .error b => (.broken b, none)
          else (.broken (.both .expectedValue), none)

/-- Read the items of an array up to its end, the first of them or a later one being next. -/
def readItems : Nat → Bool → List Char → Result (List Reading × Option Break)
  | 0, _, _ => (([], some (.both .endInList)), none)
  | fuel + 1, first, cs =>
      match skipBlank cs with
      | [] => (([], some (.both .endInList)), none)
      | c :: cs =>
          if c = ']' then (([], none), some cs)
          else if first then readItem fuel (c :: cs)
          else if c = ',' then
            match skipBlank cs with
            | [] => (([], some (.both .endInValue)), none)
            | c :: cs =>
                if c = ']' then (([], some ⟨.trailingComma, .expectedValue⟩), none)
                else readItem fuel (c :: cs)
          else (([], some (.both .expectedCommaOrBracket)), none)

/-- Read one item of an array and those after it. -/
def readItem : Nat → List Char → Result (List Reading × Option Break)
  | 0, _ => (([], some (.both .endInList)), none)
  | fuel + 1, cs =>
      match readValue fuel cs with
      | (value, none) => (([value], none), none)
      | (value, some rest) =>
          let ((values, ending), rest) := readItems fuel false rest
          ((value :: values, ending), rest)

/-- Read the members of an object up to its end, the first of them or a later one being next. -/
def readMembers :
    Nat → Bool → List Char → Result (List (Except Fault String × Reading) × Option Break)
  | 0, _, _ => (([], some (.both .endInObject)), none)
  | fuel + 1, first, cs =>
      match skipBlank cs with
      | [] => (([], some (.both .endInObject)), none)
      | c :: cs =>
          if c = '\x7d' then (([], none), some cs)
          else if first then readMember fuel (c :: cs)
          else if c = ',' then
            match skipBlank cs with
            | [] => (([], some ⟨.endInValue, .endInObject⟩), none)
            | c :: cs =>
                if c = '\x7d' then (([], some ⟨.trailingComma, .keyNotString⟩), none)
                else readMember fuel (c :: cs)
          else (([], some (.both .expectedCommaOrBrace)), none)

/-- Read one member of an object and those after it. -/
def readMember : Nat → List Char → Result (List (Except Fault String × Reading) × Option Break)
  | 0, _ => (([], some (.both .endInObject)), none)
  | _ + 1, [] => (([], some (.both .endInObject)), none)
  | fuel + 1, c :: cs =>
      if c = '"' then
        match readText cs with
        | .error b => (([], some b), none)
        | .ok (key, rest) =>
            match skipBlank rest with
            | [] => (([(key, .broken (.both .endInObject))], none), none)
            | c :: cs =>
                if c = ':' then
                  match readValue fuel cs with
                  | (value, none) => (([(key, value)], none), none)
                  | (value, some rest) =>
                      let ((members, ending), rest) := readMembers fuel false rest
                      (((key, value) :: members, ending), rest)
                else (([(key, .broken (.both .expectedColon))], none), none)
      else (([], some (.both .keyNotString)), none)

end

/-- What a whole text says.  Every step of the reader takes a character or is followed by one
that does, so twice the length of the text bounds its depth. -/
def ofText (s : String) : Result Reading :=
  let cs := s.toList
  readValue (2 * cs.length + 2) cs

mutual

/-- A reading without faults is a JSON value. -/
def plain? : Reading → Option Json
  | .null => some .null
  | .bool b => some (.bool b)
  | .number n => some (.number n)
  | .text (.ok s) => some (.text s)
  | .text (.error _) => none
  | .array items none => (plainItems? items).map .array
  | .object members none => (plainMembers? members).map .object
  | _ => none

/-- Items without faults. -/
def plainItems? : List Reading → Option (List Json)
  | [] => some []
  | r :: rs => do return (← plain? r) :: (← plainItems? rs)

/-- Members without faults. -/
def plainMembers? : List (Except Fault String × Reading) → Option (List (String × Json))
  | [] => some []
  | (.ok k, r) :: ms => do return (k, ← plain? r) :: (← plainMembers? ms)
  | (.error _, _) :: _ => none

end

mutual

/-- The reading of a JSON value, which has no faults. -/
def ofJson : Json → Reading
  | .null => .null
  | .bool b => .bool b
  | .number n => .number n
  | .text s => .text (.ok s)
  | .array items => .array (ofItems items) none
  | .object members => .object (ofMembers members) none

/-- The readings of the items of an array. -/
def ofItems : List Json → List Reading
  | [] => []
  | j :: js => ofJson j :: ofItems js

/-- The readings of the members of an object. -/
def ofMembers : List (String × Json) → List (Except Fault String × Reading)
  | [] => []
  | (k, j) :: ms => (.ok k, ofJson j) :: ofMembers ms

end

end Reading

/-- The value that a text spells, if nothing but that value stands in it. -/
def parse? (s : String) : Option Json :=
  match Reading.ofText s with
  | (reading, some rest) => if (Reading.skipBlank rest).isEmpty then reading.plain? else none
  | (_, none) => none

end PropCatalog.Json
