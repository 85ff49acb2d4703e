import FeatureCensus.Json.Value

/-!
# Sameness of scalars

Scalars are the same where they are equal as numbers, texts or nothing: a truth value
counts as one or zero, and a decimal number as the nearest binary one.

Main definitions:

- Definition {lit}`Json.sameScalar`: whether two values are the same scalar.
-/

namespace FeatureCensus
namespace Json

/-- A number in computation: a fraction, or infinite. -/
inductive Magnitude where
  | finite (numerator : Int) (denominator : Nat)
  | infinite (negative : Bool)
  deriving DecidableEq, Repr, Inhabited

/-- Whether two numbers are equal. -/
def Magnitude.same : Magnitude → Magnitude → Bool
  | finite a b, finite c d => a * d == c * b
  | infinite a, infinite b => a == b
  | _, _ => false

/-- The number that a scalar stands for. -/
def magnitude? : Json → Option Magnitude
  | .bool b => some (.finite (if b then 1 else 0) 1)
  | .integer n => some (.finite n 1)
  | .decimal d =>
    some (match d.nearestFraction? with
      | none => .infinite d.negative
      | some (numerator, denominator) => .finite numerator denominator)
  | .infinity negative => some (.infinite negative)
  | _ => none

/-- Whether a value is a scalar. -/
def isScalar : Json → Bool
  | .list _ | .object _ => false
  | _ => true

/-- Whether two scalars are the same. -/
def sameScalar (a b : Json) : Bool :=
  match a.magnitude?, b.magnitude? with
  | some x, some y => x.same y
  | none, none =>
    match a, b with
    | .text s, .text t => s == t
    | .null, .null => true
    | _, _ => false
  | _, _ => false

end Json
end FeatureCensus
