import FeatureCensus.Binary

/-!
# Numerals

Binary numbers as decimal digits: either the fewest digits from which the number is read
back, or a fixed count of them.  A style tells when the digits are written with a power of
ten.

Main definitions:

- Definition {lit}`Numeral.shortest`: the fewest digits from which a number is read back.
- Definition {lit}`Numeral.text`: the digits of a number in a style.
-/

namespace FeatureCensus

/-- The number {lit}`digits * 10 ^ exponent`. -/
structure Numeral where
  digits : Nat
  exponent : Int
  deriving DecidableEq, Repr, Inhabited

namespace Numeral

/-! ## Digits -/

/-- Moves zeros at the end into the exponent, at most so many. -/
def trim : Nat → Numeral → Numeral
  | 0, numeral => numeral
  | limit + 1, numeral =>
    if numeral.digits ≠ 0 ∧ numeral.digits % 10 = 0 then
      trim limit ⟨numeral.digits / 10, numeral.exponent + 1⟩
    else numeral

/-- The least power of ten that is above a positive quotient, by its exponent. -/
def pointOf (num den : Nat) : Int :=
  let guess : Int := (Nat.toDigits 10 num).length - (Nat.toDigits 10 den).length
  if num * tenPow (-guess).toNat < den * tenPow guess.toNat then guess else guess + 1

/-- The whole part and the remainder of a positive quotient in units of the last of so many
digits, the unit's exponent, and the denominator of the remainder. -/
def split (num den count : Nat) : Nat × Nat × Nat × Int :=
  let unit := pointOf num den - count
  let num := num * tenPow (-unit).toNat
  let den := den * tenPow unit.toNat
  (num / den, num % den, den, unit)

/-- The numerals of so many digits next to a positive quotient, the nearer one first. -/
def neighbours (num den count : Nat) : List Numeral :=
  let (whole, rest, den, unit) := split num den count
  let near : List Nat := if 2 * rest < den then [whole, whole + 1] else [whole + 1, whole]
  near.map fun digits => ⟨digits, unit⟩

/-- The numeral of so many digits nearest to a positive quotient, where a half is rounded
up. -/
def rounded (num den count : Nat) : Numeral :=
  let (whole, rest, den, unit) := split num den count
  trim (count + 1) ⟨if 2 * rest < den then whole else whole + 1, unit⟩

/-- The binary number nearest to a numeral. -/
def toBinary (numeral : Numeral) : Binary :=
  .ofDecimal ⟨false, numeral.digits, numeral.exponent⟩

/-- The greatest number of digits that are needed to read a number back. -/
def digitLimit : Nat := 17

/-- The numeral with the fewest digits from which a magnitude is read back. -/
def shortest (num den : Nat) : Numeral :=
  if num = 0 then ⟨0, 0⟩
  else
    let target := Binary.ofQuotient false num den
    let counts := (List.range digitLimit).map (· + 1)
    let found? := counts.findSome? fun count =>
      (neighbours num den count).find? fun numeral => numeral.toBinary = target
    trim digitLimit (found?.getD (rounded num den digitLimit))

/-! ## Text -/

/-- When a power of ten is written, and how. -/
structure Style where
  /-- The least number of places that the point may be behind the first digit. -/
  leastPlace : Int
  /-- The greatest such number. -/
  greatestPlace : Int
  /-- A point is written even in front of a power of ten. -/
  alwaysPoint : Bool
  infinity : String
  deriving Repr, Inhabited

/-- The text of an exponent, which has at least two digits. -/
def exponentText (exponent : Int) : String :=
  let digits := toString exponent.natAbs
  (if exponent < 0 then "e-" else "e+") ++ (if digits.length < 2 then "0" else "") ++ digits

/-- The text of digits with the point after so many of them. -/
def placed (digits : List Char) (place : Int) : String :=
  let zeros := fun count : Int => List.replicate count.toNat '0'
  if place ≤ 0 then String.ofList (['0', '.'] ++ zeros (-place) ++ digits)
  else
    let fraction := digits.drop place.toNat
    String.ofList (digits.take place.toNat ++ zeros (place - digits.length) ++
      ['.'] ++ if fraction.isEmpty then ['0'] else fraction)

/-- The text of a numeral. -/
def text (style : Style) (numeral : Numeral) : String :=
  let digits := Nat.toDigits 10 numeral.digits
  let place := digits.length + numeral.exponent
  if numeral.digits = 0 then "0.0"
  else if style.leastPlace ≤ place - 1 && place - 1 ≤ style.greatestPlace then
    placed digits place
  else
    (if digits.length = 1 && !style.alwaysPoint then String.ofList digits else placed digits 1) ++
      exponentText (place - 1)

end Numeral

namespace Binary

/-- The style of numbers in messages. -/
def messageStyle : Numeral.Style :=
  ⟨-4, 15, false, "inf"⟩

/-- The text of a number in messages. -/
def display (x : Binary) : String :=
  (if x.isNegative then "-" else "") ++
    match x.magnitude? with
    | none => messageStyle.infinity
    | some (num, den) => (Numeral.shortest num den).text messageStyle

/-- A finite number as a decimal one, from which it is read back. -/
def toDecimal? (x : Binary) : Option Decimal :=
  x.magnitude?.map fun (num, den) =>
    let numeral := Numeral.shortest num den
    ⟨x.isNegative, numeral.digits, numeral.exponent⟩

end Binary
end FeatureCensus
