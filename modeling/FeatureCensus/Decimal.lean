/-!
# Decimal numbers

Decimal numbers as they are written: a sign, digits, and a power of ten.  In
computation such a number stands for the nearest binary number with 53
significant bits, an exact tie going to the even one.

Main definitions:

- Definition {lit}`Decimal.nearestFraction?`: the nearest binary number.
- Definition {lit}`Decimal.wholePart?`: the whole part of the nearest binary number.
-/

namespace FeatureCensus

/-- The number {lit}`digits * 10 ^ exponent`, or its negative. -/
structure Decimal where
  negative : Bool
  digits : Nat
  exponent : Int
  deriving DecidableEq, Repr, Inhabited

/-- A power of two. -/
def twoPow (n : Nat) : Nat :=
  Nat.pow 2 n

/-- A power of ten. -/
def tenPow (n : Nat) : Nat :=
  Nat.pow 10 n

/-- The natural number nearest to a quotient, and of two equally near ones the even one. -/
def roundQuotient (num den : Nat) : Nat :=
  let whole := num / den
  let twice := 2 * (num % den)
  if twice < den then whole
  else if den < twice then whole + 1
  else if whole % 2 = 0 then whole else whole + 1

namespace Decimal

/-- A decimal number without a fraction. -/
def ofNat (n : Nat) : Decimal :=
  ⟨false, n, 0⟩

/-- The exponent of the greatest power of two that is not above a positive quotient. -/
def binaryExponent (num den : Nat) : Int :=
  let guess : Int := (Nat.log2 num : Int) - Nat.log2 den
  if den * twoPow guess.toNat ≤ num * twoPow (-guess).toNat then guess else guess - 1

/-- The binary number nearest to a positive quotient as a fraction, or nothing where that
number is infinite.  Very small numbers have fewer significant bits. -/
def nearestOfQuotient? (num den : Nat) : Option (Nat × Nat) :=
  let shift := max (binaryExponent num den - 52) (-1074)
  let significand := roundQuotient (num * twoPow (-shift).toNat) (den * twoPow shift.toNat)
  if twoPow 1024 ≤ significand * twoPow shift.toNat then none
  else some (significand * twoPow shift.toNat, twoPow (-shift).toNat)

/-- The binary number nearest to a decimal number as a fraction, or nothing where that
number is infinite.  Magnitudes of 10 ^ 400 and more are infinite, and those below
1 / 10 ^ 400 are zero, without the power being computed. -/
def nearestFraction? (d : Decimal) : Option (Int × Nat) :=
  let width : Int := (Nat.toDigits 10 d.digits).length
  let fraction? : Option (Nat × Nat) :=
    if d.digits = 0 then some (0, 1)
    else if 400 < width + d.exponent then none
    else if width + d.exponent < -400 then some (0, 1)
    else nearestOfQuotient? (d.digits * tenPow d.exponent.toNat) (tenPow (-d.exponent).toNat)
  fraction?.map fun (num, den) => (if d.negative then -(num : Int) else num, den)

/-- The whole part of the binary number nearest to a decimal number, or nothing where that
number is infinite. -/
def wholePart? (d : Decimal) : Option Int :=
  d.nearestFraction?.map fun (num, den) => num.tdiv den

end Decimal
end FeatureCensus
