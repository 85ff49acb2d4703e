import FeatureCensus.Association
import FeatureCensus.Json.Value
import FeatureCensus.Numeral
import FeatureCensus.Text.Quoted

/-!
# Displaying JSON values

The form that a value has within messages.  It differs from the written form in the words
for truth values and nothing, in the quotes of texts, and in the blanks between items.

Main definitions:

- Definition {lit}`Json.display`: the form of a value within a message.
-/

namespace FeatureCensus
namespace Json

open Text

mutual

/-- The form of a value in messages. -/
def display : Json → String
  | .null => "None"
  | .bool b => if b then "True" else "False"
  | .integer n => toString n
  | .decimal d => (Binary.ofDecimal d).display
  | .notANumber => "nan"
  | .infinity negative => if negative then "-inf" else "inf"
  | .text s => quoted s
  | .list items => "[" ++ ", ".intercalate (displayItems items) ++ "]"
  | .object fields =>
    let distinct := (displayFields fields).foldl (fun kept (name, value) =>
      Association.put name value kept) []
    "\x7b" ++ ", ".intercalate (distinct.map fun (name, value) => name ++ ": " ++ value) ++ "\x7d"

/-- The forms of the items of a list. -/
def displayItems : List Json → List String
  | [] => []
  | item :: rest => display item :: displayItems rest

/-- The forms of the names and values of fields. -/
def displayFields : List (String × Json) → List (String × String)
  | [] => []
  | (name, value) :: rest => (quoted name, display value) :: displayFields rest

end

/-- The form of a value that is spoken of alone: that of a text has no quotes. -/
def spoken : Json → String
  | .text s => s
  | value => value.display

end Json
end FeatureCensus
