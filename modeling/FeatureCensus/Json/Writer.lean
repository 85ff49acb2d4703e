import FeatureCensus.Json.Value

/-!
# Writing JSON

The one-line written form of a value.

Main definitions:

- Definition {lit}`Json.write`: the written form of a value.
-/

namespace FeatureCensus
namespace Json

/-- The written form of a character within a text. -/
def writeChar (c : Char) : String :=
  if c == '"' then "\\\""
  else if c == '\\' then "\\\\"
  else if c == '\n' then "\\n"
  else if c == '\r' then "\\r"
  else if c == '\t' then "\\t"
  else if c.toNat < 32 then
    "\\u00" ++ String.ofList [Nat.digitChar (c.toNat / 16), Nat.digitChar (c.toNat % 16)]
  else String.singleton c

/-- The written form of a text. -/
def writeText (s : String) : String :=
  s.foldl (fun written c => written ++ writeChar c) "\"" ++ "\""

/-- The written form of a decimal number. -/
def writeDecimal (d : Decimal) : String :=
  (if d.negative then "-" else "") ++ toString d.digits ++
    (if d.exponent == 0 then "" else "e" ++ toString d.exponent)

mutual

/-- The written form of a value. -/
def write : Json → String
  | .null => "null"
  | .bool b => if b then "true" else "false"
  | .integer n => toString n
  | .decimal d => writeDecimal d
  | .notANumber => "NaN"
  | .infinity negative => if negative then "-Infinity" else "Infinity"
  | .text s => writeText s
  | .list items => "[" ++ ",".intercalate (writeItems items) ++ "]"
  | .object fields => "\x7b" ++ ",".intercalate (writeFields fields) ++ "\x7d"

/-- The written forms of the items of a list. -/
def writeItems : List Json → List String
  | [] => []
  | item :: rest => write item :: writeItems rest

/-- The written forms of the fields of an object. -/
def writeFields : List (String × Json) → List String
  | [] => []
  | (name, value) :: rest => (writeText name ++ ":" ++ write value) :: writeFields rest

end

end Json
end FeatureCensus
