import FeatureCensus.Decimal

/-!
# JSON values

The values that a search answer carries.  Whole numbers and decimal numbers are
kept apart, and the three non-numeric marks that readers of JSON accept have
values of their own.

Main definitions:

- Definition {lit}`Json`: the values.
- Definition {lit}`Json.field?`: the value of a field of an object.
-/

namespace FeatureCensus

/-- A JSON value. -/
inductive Json where
  | null
  | bool (b : Bool)
  | integer (n : Int)
  | decimal (d : Decimal)
  | notANumber
  | infinity (negative : Bool)
  | text (s : String)
  | list (items : List Json)
  | object (fields : List (String × Json))
  deriving Inhabited

namespace Json

/-- The last field of a name. -/
def lastField? (fields : List (String × Json)) (name : String) : Option Json :=
  (fields.reverse.find? fun field => field.1 == name).map (·.2)

/-- The field of an object. -/
def field? : Json → String → Option Json
  | .object fields, name => lastField? fields name
  | _, _ => none

/-! ## Views -/

/-- The text of a text value. -/
def text? : Json → Option String
  | .text s => some s
  | _ => none

/-- The number of a whole-number value. -/
def integer? : Json → Option Int
  | .integer n => some n
  | _ => none

/-- The truth value of a truth value. -/
def bool? : Json → Option Bool
  | .bool b => some b
  | _ => none

/-- The items of a list value. -/
def list? : Json → Option (List Json)
  | .list items => some items
  | _ => none

/-- A value that is not null. -/
def nonNull? : Json → Option Json
  | .null => none
  | value => some value

end Json
end FeatureCensus
