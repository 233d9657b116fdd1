/-!
# Floating-point numbers of 64 bits

A finite number that is not negative, as a mantissa below 2^53 times a power of two.  Every
operation rounds its exact result to the nearest such number, and a result half way between two of
them to the one with the even mantissa.
-/

namespace PropCatalog.Decimal

/-- The number `mantissa * 2 ^ exponent`. -/
structure Binary64 where
  mantissa : Nat
  exponent : Int
deriving DecidableEq, Repr

/-- A quotient rounded to the nearest number, a half to the even one. -/
def roundQuotient (num den : Nat) : Nat :=
  let q := num / den
  let r := num % den
  if 2 * r < den then q
  else if den < 2 * r then q + 1
  else q + q % 2

/-- The quotient `num / (den * 2 ^ e)` as a pair of natural numbers. -/
def scaled (num den : Nat) (e : Int) : Nat × Nat :=
  if 0 ≤ e then (num, den * Nat.pow 2 e.toNat) else (num * Nat.pow 2 (-e).toNat, den)

namespace Binary64

/-- The least exponent. -/
def minExponent : Int := -1074

/-- The greatest exponent. -/
def maxExponent : Int := 971

/-- Zero. -/
def zero : Binary64 := ⟨0, minExponent⟩

/-- The exponent at which the mantissa of a positive quotient has 53 bits, if it is not below the
least one. -/
def exponentOf (num den : Nat) : Int :=
  let guess : Int := (Nat.log2 num : Int) - (Nat.log2 den : Int) - 52
  let (n, d) := scaled num den guess
  let fitted := if n / d < Nat.pow 2 52 then guess - 1 else guess
  max fitted minExponent

/-- The nearest number to a quotient, unless it is too great. -/
def ofQuotient (num den : Nat) : Option Binary64 :=
  if num = 0 then some zero
  else
    let e := exponentOf num den
    let (n, d) := scaled num den e
    let m := roundQuotient n d
    let result : Binary64 := if m = Nat.pow 2 53 then ⟨Nat.pow 2 52, e + 1⟩ else ⟨m, e⟩
    if maxExponent < result.exponent then none else some result

/-- The number as a quotient. -/
def toQuotient (f : Binary64) : Nat × Nat :=
  if 0 ≤ f.exponent then (f.mantissa * Nat.pow 2 f.exponent.toNat, 1)
  else (f.mantissa, Nat.pow 2 (-f.exponent).toNat)

/-- The nearest number to a power of ten. -/
def tenTo (k : Nat) : Option Binary64 := ofQuotient (Nat.pow 10 k) 1

/-- The rounded product. -/
def mul? (f g : Binary64) : Option Binary64 :=
  let (a, b) := f.toQuotient
  let (c, d) := g.toQuotient
  ofQuotient (a * c) (b * d)

/-- The rounded quotient. -/
def div? (f g : Binary64) : Option Binary64 :=
  let (a, b) := f.toQuotient
  let (c, d) := g.toQuotient
  ofQuotient (a * d) (b * c)

/-- The greatest power of ten that a number can hold. -/
def maxPower : Nat := 308

/-- A number divided by a power of ten, in steps of the greatest power.  Three steps make every
number zero. -/
def divideTen : Nat → Binary64 → Nat → Option Binary64
  | 0, _, _ => some zero
  | steps + 1, f, k =>
      if k ≤ maxPower then do f.div? (← tenTo k)
      else do divideTen steps (← f.div? (← tenTo maxPower)) (k - maxPower)

/-- A whole number times a power of ten, rounded after each step, unless it is too great. -/
def ofDecimal? (significand : Nat) (power : Int) : Option Binary64 := do
  let f ← ofQuotient significand 1
  if f.mantissa = 0 then return zero
  if 0 ≤ power then
    if maxPower < power.toNat then none else f.mul? (← tenTo power.toNat)
  else divideTen 3 f (-power).toNat

end Binary64

end PropCatalog.Decimal
