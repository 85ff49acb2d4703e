/-!
# Names of places

What projects and files are named by in the places of occurrences: usually by a text.  A
number may stand for a text, and a name may be missing.

Main definitions:

- Definition {lit}`PlaceName`: what a project or a file is named by.
- Definition {lit}`PlaceName.display`: the form that a name has in a report.
-/

namespace FeatureCensus

/-- The name of a project or of a file. -/
inductive PlaceName where
  | text (s : String)
  | number (n : Int)
  | absent
  deriving DecidableEq, Repr, Inhabited

namespace PlaceName

instance : Coe String PlaceName := ⟨text⟩

/-- The name that a text is, if it is there. -/
def ofText? : Option String → PlaceName
  | some s => text s
  | none => absent

/-- The text of a name in reports. -/
def display : PlaceName → String
  | text s => s
  | number n => toString n
  | absent => "None"

/-- The text that is stored for a name, if it is there. -/
def stored? : PlaceName → Option String
  | absent => none
  | name => some name.display

/-- The text of a name that is one. -/
def text? : PlaceName → Option String
  | text s => some s
  | _ => none

/-- The number of a name that is one. -/
def number? : PlaceName → Option Int
  | number n => some n
  | _ => none

/-- The names in order, unless they are of sorts that cannot be compared.  A single name is
not compared with anything. -/
def sort? (names : List PlaceName) : Option (List PlaceName) :=
  match names with
  | [] | [_] => some names
  | _ =>
    match names.mapM text?, names.mapM number? with
    | some texts, _ => some ((texts.mergeSort fun a b => !decide (b < a)).map text)
    | none, some numbers => some ((numbers.mergeSort fun a b => a ≤ b).map number)
    | none, none => none

end PlaceName
end FeatureCensus
