import FeatureCensus.Decimal

/-!
# Binary numbers

The numbers in computation: a sign and at most 53 significant bits times a power of two, or
infinite.  A result between two of them is rounded to the nearer one, and a tie to the even
one.

Main definitions:

- Definition {lit}`Binary.ofQuotient`: the number nearest to a quotient.
- Definition {lit}`Binary.order`: how two numbers compare, if they do.
-/

namespace FeatureCensus

/-- The number {lit}`significand * 2 ^ exponent` or its negative, or an infinite one. -/
inductive Binary where
  | finite (negative : Bool) (significand : Nat) (exponent : Int)
  | infinite (negative : Bool)
  deriving DecidableEq, Repr, Inhabited

namespace Binary

/-! ## Rounding -/

/-- The least exponent. -/
def leastExponent : Int := -1074

/-- The greatest exponent. -/
def greatestExponent : Int := 971

/-- The number of significant bits. -/
def precision : Nat := 53

/-- Zero with a sign. -/
def zero (negative : Bool) : Binary :=
  finite negative 0 leastExponent

/-- The number of a sign and a significand of at most one bit too many. -/
def ofParts (negative : Bool) (significand : Nat) (exponent : Int) : Binary :=
  let wide := twoPow precision ≤ significand
  let exponent := if wide then exponent + 1 else exponent
  if greatestExponent < exponent then infinite negative
  else finite negative (if wide then significand / 2 else significand) exponent

/-- The number nearest to a quotient or its negative. -/
def ofQuotient (negative : Bool) (num den : Nat) : Binary :=
  if num = 0 then zero negative
  else
    let exponent := max (Decimal.binaryExponent num den - (precision - 1)) leastExponent
    ofParts negative
      (roundQuotient (num * twoPow (-exponent).toNat) (den * twoPow exponent.toNat)) exponent

/-- The number nearest to an integer. -/
def ofInt (n : Int) : Binary :=
  ofQuotient (n < 0) n.natAbs 1

/-- The number nearest to a decimal one.  Magnitudes of 10 ^ 400 and more are infinite, and
those below 1 / 10 ^ 400 are zero, without the power being computed. -/
def ofDecimal (d : Decimal) : Binary :=
  let width : Int := (Nat.toDigits 10 d.digits).length
  if d.digits = 0 || width + d.exponent < -400 then zero d.negative
  else if 400 < width + d.exponent then infinite d.negative
  else ofQuotient d.negative (d.digits * tenPow d.exponent.toNat) (tenPow (-d.exponent).toNat)

/-- The number of 64 bits: the sign, eleven bits of an exponent and 52 of a significand.
The bits may also stand for no number at all. -/
def ofBits? (bits : Nat) : Option Binary :=
  let negative := twoPow 63 ≤ bits
  let exponent : Nat := bits / twoPow 52 % twoPow 11
  let fraction := bits % twoPow 52
  if exponent = twoPow 11 - 1 then if fraction = 0 then some (infinite negative) else none
  else if exponent = 0 then some (finite negative fraction leastExponent)
  else some (finite negative (twoPow 52 + fraction) (leastExponent - 1 + (exponent : Int)))

/-! ## Magnitudes -/

/-- Whether the sign is that of negative numbers. -/
def isNegative : Binary → Bool
  | finite negative _ _ | infinite negative => negative

/-- Whether a number is zero, of either sign. -/
def isZero : Binary → Bool
  | finite _ significand _ => significand == 0
  | infinite _ => false

/-- The magnitude of a finite number as a fraction. -/
def magnitude? : Binary → Option (Nat × Nat)
  | finite _ significand exponent =>
    some (significand * twoPow exponent.toNat, twoPow (-exponent).toNat)
  | infinite _ => none

/-- A finite number as a fraction. -/
def fraction? (x : Binary) : Option (Int × Nat) :=
  x.magnitude?.map fun (num, den) => (if x.isNegative then -(num : Int) else num, den)

/-- The whole part of a finite number. -/
def wholePart? (x : Binary) : Option Int :=
  x.fraction?.map fun (num, den) => num.tdiv den

/-- The integer that is equal to a number. -/
def toInt? (x : Binary) : Option Int :=
  x.fraction?.bind fun (num, den) => if num % den = 0 then some (num / den) else none

/-- The order of two numbers. -/
def order (x y : Binary) : Ordering :=
  match x.fraction?, y.fraction? with
  | some (a, b), some (c, d) => compare (a * d) (c * b)
  | none, none => compare (!x.isNegative) (!y.isNegative)
  | none, some _ => if x.isNegative then .lt else .gt
  | some _, none => if y.isNegative then .gt else .lt

/-! ## Arithmetic -/

/-- The negative of a number. -/
def neg : Binary → Binary
  | finite negative significand exponent => finite (!negative) significand exponent
  | infinite negative => infinite (!negative)

/-- The sum of two numbers, unless they are infinite with different signs. -/
def add? (x y : Binary) : Option Binary :=
  match x.fraction?, y.fraction? with
  | some (a, b), some (c, d) =>
    let num := a * d + c * b
    some (ofQuotient (if num = 0 then x.isNegative && y.isNegative else num < 0) num.natAbs
      (b * d))
  | none, none => if x.isNegative == y.isNegative then some x else none
  | none, some _ => some x
  | some _, none => some y

/-- The product of two numbers, unless one is zero and the other infinite. -/
def mul? (x y : Binary) : Option Binary :=
  let negative := x.isNegative != y.isNegative
  match x.magnitude?, y.magnitude? with
  | some (a, b), some (c, d) => some (ofQuotient negative (a * c) (b * d))
  | _, _ => if x.isZero || y.isZero then none else some (infinite negative)

/-- The quotient of two numbers, unless the second is zero or both are infinite. -/
def div? (x y : Binary) : Option Binary :=
  let negative := x.isNegative != y.isNegative
  if y.isZero then none
  else match x.magnitude?, y.magnitude? with
    | some (a, b), some (c, d) => some (ofQuotient negative (a * d) (b * c))
    | none, some _ => some (infinite negative)
    | some _, none => some (zero negative)
    | none, none => none

end Binary
end FeatureCensus
