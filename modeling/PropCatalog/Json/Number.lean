import PropCatalog.Decimal.Shortest

/-!
# Numbers in JSON text

A number without fraction or exponent that fits 64 bits is whole.  Every other number is a
floating-point number: its leading digits, as many as fit 64 bits, times a power of ten.  A number
too great for that is out of range.
-/

namespace PropCatalog.Json

open Decimal

/-- The value of a number. -/
inductive Number where
  | whole (value : Int)
  | floating (negative : Bool) (magnitude : Binary64)
deriving DecidableEq, Repr

namespace Number

/-- The greatest number of 64 bits. -/
def maxWord : Nat := Nat.pow 2 64 - 1

/-- The value of a digit. -/
def digitValue (c : Char) : Nat := c.toNat - '0'.toNat

/-- The leading digits of a number, the power of ten they are to be multiplied by, and whether a
digit has been left out. -/
structure Leading where
  significand : Nat
  power : Int
  full : Bool

/-- One more digit before the point.  Once a digit does not fit, it and those after it only count
as powers of ten. -/
def Leading.addWhole (l : Leading) (c : Char) : Leading :=
  let next := 10 * l.significand + digitValue c
  if l.full || maxWord < next then { l with power := l.power + 1, full := true }
  else { l with significand := next }

/-- One more digit after the point.  Once a digit does not fit, it and those after it are lost. -/
def Leading.addFraction (l : Leading) (c : Char) : Leading :=
  let next := 10 * l.significand + digitValue c
  if l.full || maxWord < next then { l with full := true }
  else { l with significand := next, power := l.power - 1 }

/-- The greatest exponent that is taken at its value. -/
def maxExponent : Nat := Nat.pow 2 31 - 1

/-- The power of ten that an exponent writes; the sign and the digits follow its mark. -/
def exponent : List Char → Bool × Nat
  | '-' :: cs => (true, (String.ofList cs).toNat?.getD 0)
  | '+' :: cs => (false, (String.ofList cs).toNat?.getD 0)
  | cs => (false, (String.ofList cs).toNat?.getD 0)

/-- The leading digits times a power of ten, unless that is too great. -/
def scale? (l : Leading) (negative : Bool) (power : Nat) : Option Binary64 :=
  if maxExponent < power then
    if l.significand ≠ 0 && !negative then none else some .zero
  else Binary64.ofDecimal? l.significand (if negative then l.power - power else l.power + power)

/-- The value of a number, unless it is out of range. -/
def read? (lexeme : String) : Option Number :=
  let (negative, cs) := match lexeme.toList with
    | '-' :: cs => (true, cs)
    | cs => (false, cs)
  let digits := cs.takeWhile Char.isDigit
  let whole := digits.foldl Leading.addWhole ⟨0, 0, false⟩
  match cs.drop digits.length with
  | [] =>
      if !negative && !whole.full then some (.whole whole.significand)
      else if negative && !whole.full && whole.significand ≠ 0
          && whole.significand ≤ Nat.pow 2 63 then
        some (.whole (-whole.significand))
      else (scale? whole false 0).map (.floating negative)
  | c :: rest =>
      let fraction := if c = '.' then rest.takeWhile Char.isDigit else []
      let after := if c = '.' then rest.drop fraction.length else c :: rest
      let leading := fraction.foldl Leading.addFraction { whole with full := false }
      let (down, power) := exponent after.tail
      (scale? leading down power).map (.floating negative)

/-- How floating-point numbers are written: positionally if the exponent of their first digit is
between -5 and 15. -/
def format : Format := ⟨-5, 15, "e+", "e-"⟩

/-- The text of a number. -/
def render : Number → String
  | .whole n => toString n
  | .floating negative f => (if negative then "-" else "") ++ format.render (shortest f)

end Number

end PropCatalog.Json
