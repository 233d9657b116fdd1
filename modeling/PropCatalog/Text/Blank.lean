/-!
# White space

The characters that count as white space, and those among them that end a line.
-/

namespace PropCatalog.Text

/-- Ranges of the characters with the property White_Space. -/
def whiteRanges : List (Nat × Nat) := [
  (0x9, 0xD), (0x20, 0x20), (0x85, 0x85), (0xA0, 0xA0), (0x1680, 0x1680), (0x2000, 0x200A),
  (0x2028, 0x2029), (0x202F, 0x202F), (0x205F, 0x205F), (0x3000, 0x3000)]

/-- Whether a character has the property White_Space. -/
def isWhite (c : Char) : Bool :=
  whiteRanges.any fun r => r.1 ≤ c.toNat && c.toNat ≤ r.2

/-- Whether a text holds nothing but white space. -/
def isBlank (s : String) : Bool := s.toList.all isWhite

/-- Whether a character ends a line of source text. -/
def isLineEnd (c : Char) : Bool :=
  c == '\n' || c == '\r' || c.toNat == 0x2028 || c.toNat == 0x2029

/-- Whether a character separates tokens of source text: white space but for U+0085, or the byte
order mark. -/
def isGap (c : Char) : Bool :=
  (isWhite c && c.toNat != 0x85) || c.toNat == 0xFEFF

@[simp] theorem isBlank_empty : isBlank "" = true := rfl

end PropCatalog.Text
