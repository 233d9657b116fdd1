import PropCatalog.Json.Fault

/-!
# Strings and numbers in JSON text

A string can be read, which decodes its escapes, or skipped, which only finds its end.  Skipping
is the more lenient of the two: it does not ask that surrogate escapes come in pairs.  A number is
scanned for its spelling alone; what it denotes is decided when it is used.
-/

namespace PropCatalog.Json

/-- The value of a hexadecimal digit. -/
def hexValue? (c : Char) : Option Nat :=
  if '0' ≤ c ∧ c ≤ '9' then some (c.toNat - '0'.toNat)
  else if 'a' ≤ c ∧ c ≤ 'f' then some (c.toNat - 'a'.toNat + 10)
  else if 'A' ≤ c ∧ c ≤ 'F' then some (c.toNat - 'A'.toNat + 10)
  else none

/-- The number that four hexadecimal digits spell. -/
def hexUnit? (a b c d : Char) : Option Nat := do
  let a ← hexValue? a
  let b ← hexValue? b
  let c ← hexValue? c
  let d ← hexValue? d
  return ((a * 16 + b) * 16 + c) * 16 + d

/-- Whether a number is the first half of a surrogate pair. -/
def isLeading (u : Nat) : Bool := 0xD800 ≤ u && u ≤ 0xDBFF

/-- Whether a number is the second half of a surrogate pair. -/
def isTrailing (u : Nat) : Bool := 0xDC00 ≤ u && u ≤ 0xDFFF

/-- The character that a surrogate pair stands for. -/
def pairChar (leading trailing : Nat) : Char :=
  Char.ofNat (0x10000 + (leading - 0xD800) * 0x400 + (trailing - 0xDC00))

/-- The fault of a hexadecimal escape that four digits do not follow.  The text has ended if
fewer than four bytes are left. -/
def hexFault (rest : List Char) : Fault :=
  if (rest.map Char.utf8Size).foldr (· + ·) 0 < 4 then .endInString else .invalidEscape

/-- The character that a one-letter escape stands for. -/
def escaped? : Char → Option Char
  | '"' => some '"'
  | '\\' => some '\\'
  | '/' => some '/'
  | 'b' => some '\x08'
  | 'f' => some '\x0c'
  | 'n' => some '\n'
  | 'r' => some '\r'
  | 't' => some '\t'
  | _ => none

/-- Whether a character may not stand in a string as it is. -/
def isControl (c : Char) : Bool := c.toNat < 32

/-- Find the end of a string whose opening quote has been read. -/
def skipString : List Char → Except Fault (List Char)
  | [] => .error .endInString
  | '"' :: cs => .ok cs
  | '\\' :: 'u' :: a :: b :: c :: d :: cs =>
      match hexUnit? a b c d with
      | none => .error .invalidEscape
      | some _ => skipString cs
  | '\\' :: 'u' :: cs => .error (hexFault cs)
  | '\\' :: e :: cs => if (escaped? e).isSome then skipString cs else .error .invalidEscape
  | ['\\'] => .error .endInString
  | c :: cs => if isControl c then .error .controlCharacter else skipString cs

/-- Put a character in front of what was read. -/
def prepend (c : Char) : Except Fault (List Char × List Char) → Except Fault (List Char × List Char)
  | .ok (read, rest) => .ok (c :: read, rest)
  | .error f => .error f

/-- Decode a string whose opening quote has been read. -/
def readString : List Char → Except Fault (List Char × List Char)
  | [] => .error .endInString
  | '"' :: cs => .ok ([], cs)
  | '\\' :: 'u' :: a :: b :: c :: d :: cs =>
      match hexUnit? a b c d with
      | none => .error .invalidEscape
      | some u =>
          if isTrailing u then .error .loneSurrogate
          else if isLeading u then
            match cs with
            | '\\' :: 'u' :: e :: f :: g :: h :: cs =>
                match hexUnit? e f g h with
                | none => .error .invalidEscape
                | some v =>
                    if isTrailing v then prepend (pairChar u v) (readString cs)
                    else .error .loneSurrogate
            | '\\' :: 'u' :: cs => .error (hexFault cs)
            | ['\\'] => .error .endInString
            | [] => .error .endInString
            | _ => .error .unfinishedSurrogatePair
          else prepend (Char.ofNat u) (readString cs)
  | '\\' :: 'u' :: cs => .error (hexFault cs)
  | '\\' :: e :: cs =>
      match escaped? e with
      | some c => prepend c (readString cs)
      | none => .error .invalidEscape
  | ['\\'] => .error .endInString
  | c :: cs => if isControl c then .error .controlCharacter else prepend c (readString cs)

/-- The break of a number in which a digit is missing. -/
def missingDigit : List Char → Break
  | [] => ⟨.endInValue, .invalidNumber⟩
  | _ => .both .invalidNumber

/-- At least one digit. -/
def scanDigits (cs : List Char) : Except Break (List Char × List Char) :=
  match cs.span Char.isDigit with
  | ([], rest) => .error (missingDigit rest)
  | found => .ok found

/-- The digits before the point.  A zero stands alone. -/
def scanInteger (cs : List Char) : Except Break (List Char × List Char) := do
  let (digits, rest) ← scanDigits cs
  match digits with
  | '0' :: _ :: _ => .error (.both .invalidNumber)
  | _ => return (digits, rest)

/-- The point and the digits after it, if there is a point. -/
def scanFraction : List Char → Except Break (List Char × List Char)
  | '.' :: cs => do
      let (digits, rest) ← scanDigits cs
      return ('.' :: digits, rest)
  | cs => .ok ([], cs)

/-- The exponent, if there is one. -/
def scanExponent : List Char → Except Break (List Char × List Char)
  | c :: cs =>
      if c = 'e' ∨ c = 'E' then do
        let (sign, cs) := match cs with
          | '+' :: cs => (['+'], cs)
          | '-' :: cs => (['-'], cs)
          | cs => ([], cs)
        let (digits, rest) ← scanDigits cs
        return (c :: sign ++ digits, rest)
      else .ok ([], c :: cs)
  | [] => .ok ([], [])

/-- The spelling of a number and what follows it. -/
def scanNumber (cs : List Char) : Except Break (List Char × List Char) := do
  let (sign, cs) := match cs with
    | '-' :: cs => (['-'], cs)
    | cs => ([], cs)
  let (integer, cs) ← scanInteger cs
  let (fraction, cs) ← scanFraction cs
  let (exponent, cs) ← scanExponent cs
  return (sign ++ integer ++ fraction ++ exponent, cs)

end PropCatalog.Json
