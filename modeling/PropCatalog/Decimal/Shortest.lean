import PropCatalog.Decimal.Binary64

/-!
# The shortest decimal

Of all decimals that round to a given number, the ones with the fewest digits, and of these the
nearest to the number.  For each count of digits it is enough to try the two neighbours of the
number on the grid of decimals with that many digits: if any point of the grid rounds to the
number, one of the two does.
-/

namespace PropCatalog.Decimal

/-- The decimal `digits * 10 ^ power`. -/
structure Decimal where
  digits : Nat
  power : Int
deriving DecidableEq, Repr

/-- The reals that round to a number, as quotients over a common denominator, and whether the ends
belong to them. -/
structure Interval where
  low : Nat
  value : Nat
  high : Nat
  denominator : Nat
  closed : Bool
deriving DecidableEq, Repr

/-- The reals that round to a positive number. -/
def Interval.of (f : Binary64) : Interval :=
  let below := if f.mantissa = Nat.pow 2 52 && Binary64.minExponent < f.exponent then 1 else 2
  let e := f.exponent - 2
  let unit := if 0 ≤ e then Nat.pow 2 e.toNat else 1
  let denominator := if 0 ≤ e then 1 else Nat.pow 2 (-e).toNat
  ⟨(4 * f.mantissa - below) * unit, 4 * f.mantissa * unit, (4 * f.mantissa + 2) * unit,
    denominator, f.mantissa % 2 = 0⟩

/-- A decimal as a quotient. -/
def Decimal.toQuotient (d : Decimal) : Nat × Nat :=
  if 0 ≤ d.power then (d.digits * Nat.pow 10 d.power.toNat, 1)
  else (d.digits, Nat.pow 10 (-d.power).toNat)

/-- Whether a decimal lies in an interval. -/
def Interval.contains (i : Interval) (d : Decimal) : Bool :=
  let (n, m) := d.toQuotient
  let x := n * i.denominator
  if i.closed then i.low * m ≤ x && x ≤ i.high * m else i.low * m < x && x < i.high * m

/-- How far a decimal lies from the number in an interval, over a denominator that all decimals
with the same power share. -/
def Interval.distance (i : Interval) (d : Decimal) : Nat :=
  let (n, m) := d.toQuotient
  let x := n * i.denominator
  let v := i.value * m
  if x ≤ v then v - x else x - v

/-- The power of ten just above a positive quotient, found below a bound. -/
def magnitude (num den : Nat) : Nat → Int → Int
  | 0, k => k
  | steps + 1, k =>
      let (n, d) := if 0 ≤ k then (num, den * Nat.pow 10 k.toNat)
        else (num * Nat.pow 10 (-k).toNat, den)
      if n < d then magnitude num den steps (k - 1) else k + 1

/-- The decimal with a count of digits that rounds to the number, if there is one. -/
def candidate? (i : Interval) (top : Int) (count : Nat) : Option Decimal :=
  let power := top - count
  let (n, d) := if 0 ≤ power then (i.value, i.denominator * Nat.pow 10 power.toNat)
    else (i.value * Nat.pow 10 (-power).toNat, i.denominator)
  let lower : Decimal := ⟨n / d, power⟩
  let upper : Decimal := ⟨n / d + 1, power⟩
  match i.contains lower, i.contains upper with
  | true, true =>
      if i.distance upper < i.distance lower then some upper
      else if i.distance lower < i.distance upper then some lower
      else if lower.digits % 2 = 0 then some lower else some upper
  | true, false => some lower
  | false, true => some upper
  | false, false => none

/-- A decimal without zeros at the end of its digits. -/
def Decimal.trim : Nat → Decimal → Decimal
  | 0, d => d
  | steps + 1, d =>
      if d.digits ≠ 0 && d.digits % 10 = 0 then trim steps ⟨d.digits / 10, d.power + 1⟩ else d

/-- The shortest decimal that rounds to a number. -/
def shortest (f : Binary64) : Decimal :=
  if f.mantissa = 0 then ⟨0, 0⟩
  else
    let i := Interval.of f
    let top := magnitude i.value i.denominator 700 310
    let counts := (List.range 17).map (· + 1)
    ((counts.findSome? (candidate? i top)).getD ⟨0, 0⟩).trim 20

/-- How decimals are written: which exponents of the first digit are written positionally, and the
mark between digits and exponent. -/
structure Format where
  leastPositional : Int
  greatestPositional : Int
  positiveMark : String
  negativeMark : String

/-- A decimal in a format.  Positional text always has a digit on both sides of the point. -/
def Format.render (format : Format) (d : Decimal) : String :=
  let digits := Nat.toDigits 10 d.digits
  let lead : Int := d.power + digits.length - 1
  if format.leastPositional ≤ lead && lead ≤ format.greatestPositional then
    if 0 ≤ d.power then
      String.ofList (digits ++ List.replicate d.power.toNat '0') ++ ".0"
    else if 0 ≤ lead then
      String.ofList (digits.take (lead.toNat + 1)) ++ "."
        ++ String.ofList (digits.drop (lead.toNat + 1))
    else
      "0." ++ String.ofList (List.replicate ((-lead).toNat - 1) '0' ++ digits)
  else
    let mantissa := match digits with
      | [d] => d.toString
      | d :: ds => d.toString ++ "." ++ String.ofList ds
      | [] => ""
    let exponent := if 0 ≤ lead then format.positiveMark ++ toString lead.toNat
      else format.negativeMark ++ toString (-lead).toNat
    mantissa ++ exponent

end PropCatalog.Decimal
