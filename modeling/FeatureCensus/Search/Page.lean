import FeatureCensus.Json.Reader
import FeatureCensus.Search.Source
import FeatureCensus.Search.Status
import FeatureCensus.Text.Encoding
import FeatureCensus.Text.Integer

/-!
# Pages of results

A request for a page is answered by a server, or not at all.  The answer holds a page
if its status is no error and its body has the total number of results and the
repositories of the page; one bad item makes the whole page bad.

The search expects errors of some sorts, which it tells as its own.
Errors of other sorts are left as they are.
-/

namespace FeatureCensus

open Text

/-! ## Errors -/

/-- The sorts of errors that are told apart where a page is fetched. -/
inductive ErrorSort where
  /-- A request or its answer is not as it should be. -/
  | request
  /-- A value of the right type cannot be used. -/
  | badValue
  | missingKey
  | wrongType
  /-- The result of a computation is too large. -/
  | overflow
  /-- A computation is nested too deep. -/
  | recursion
  /-- Any other sort, by its name. -/
  | other (name : String)
  deriving DecidableEq, Repr, Inhabited

/-- Whether the search expects errors of the sort.  The others are not taken for a failure to
fetch the page. -/
def ErrorSort.isExpected : ErrorSort → Bool
  | request | badValue | missingKey | wrongType => true
  | overflow | recursion | other _ => false

/-! ## Answers -/

/-- What happens to a request for a page. -/
inductive PageAnswer where
  /-- No answer arrives, for an error of a sort. -/
  | unreachable (sort : ErrorSort) (reason : String)
  /-- The user interrupts the program. -/
  | interrupted
  /-- An answer arrives; its status may be left out. -/
  | response (status? : Option Int) (reason body : String)
  deriving DecidableEq, Repr, Inhabited

/-- Why a request gives no page. -/
inductive PageFault where
  | unreachable (sort : ErrorSort) (reason : String)
  | badStatus (status : Int) (side reason address : String)
  /-- The body is not written in the expected format. -/
  | badFormat
  /-- A list of the body, or else an object, is nested too deep. -/
  | tooDeep (inList : Bool)
  | missingField (name : String)
  /-- A value is of another type than expected. -/
  | wrongType
  | badNumber (error : IntegerError)
  | notANumber
  /-- The total number of results is infinite. -/
  | infiniteTotal
  deriving DecidableEq, Repr, Inhabited

namespace PageFault

/-- The sort of error that the fault is. -/
def sort : PageFault → ErrorSort
  | unreachable sort _ => sort
  | badStatus _ _ _ _ | badFormat => .request
  | tooDeep _ => .recursion
  | missingField _ => .missingKey
  | wrongType => .wrongType
  | badNumber _ | notANumber => .badValue
  | infiniteTotal => .overflow

/-- The text of the fault. -/
def message : PageFault → String
  | unreachable _ reason => reason
  | badStatus status side reason address =>
    toString status ++ " " ++ side ++ " Error: " ++ reason ++ " for url: " ++ address
  | badFormat => "<JSONDecodeError>"
  | tooDeep inList =>
    "maximum recursion depth exceeded while decoding a JSON " ++
      (if inList then "array" else "object") ++ " from a unicode string"
  | missingField name => quoted name
  | wrongType => "<TypeError>"
  | badNumber error => error.message
  | notANumber => "cannot convert float NaN to integer"
  | infiniteTotal => "cannot convert float infinity to integer"

end PageFault

/-- Why a request does not lead to a page. -/
inductive PageFailure where
  /-- The search tells that the page cannot be fetched. -/
  | fault (fault : PageFault)
  /-- The search does not expect the fault and leaves it as it is. -/
  | unexpected (fault : PageFault)
  | interrupted
  deriving DecidableEq, Repr, Inhabited

/-- What becomes of a fault while a page is fetched. -/
def PageFailure.ofFault (fault : PageFault) : PageFailure :=
  if fault.sort.isExpected then .fault fault else .unexpected fault

/-- A repository as a page tells of it, with values of any type. -/
structure Listed where
  fullName : Json
  cloneUrl : Json
  deriving Inhabited

/-- A page of results. -/
structure Page where
  total : Int
  items : List Listed
  deriving Inhabited

namespace Page

/-! ## Bodies -/

/-- A field of the body, which must be an object. -/
def fieldOf (name : String) (body : Json) : Except PageFault Json :=
  match body with
  | .object _ =>
    match body.field? name with
    | some value => .ok value
    | none => .error (.missingField name)
  | _ => .error .wrongType

/-- The total that a value stands for: a number without its fraction, a truth value as
one or zero, or an integer in a text. -/
def totalOf : Json → Except PageFault Int
  | .integer n => .ok n
  | .bool b => .ok (if b then 1 else 0)
  | .decimal d =>
    match d.wholePart? with
    | some n => .ok n
    | none => .error .infiniteTotal
  | .infinity _ => .error .infiniteTotal
  | .notANumber => .error .notANumber
  | .text s =>
    match parseInteger s with
    | .ok n => .ok n
    | .error error => .error (.badNumber error)
  | .null | .list _ | .object _ => .error .wrongType

/-- The repository of an item. -/
def itemOf (item : Json) : Except PageFault Listed := do
  let fullName ← fieldOf "full_name" item
  let cloneUrl ← fieldOf "clone_url" item
  return ⟨fullName, cloneUrl⟩

/-- The repositories of the items of a page.  An empty text or object also counts as a
list without items. -/
def itemsOf : Json → Except PageFault (List Listed)
  | .list items => items.mapM itemOf
  | .text s => if s.isEmpty then .ok [] else .error .wrongType
  | .object fields => if fields.isEmpty then .ok [] else .error .wrongType
  | _ => .error .wrongType

/-- The value that is written in a body, whose encoding is not told. -/
def valueOf (reading : Json.Settings) (body : String) : Except PageFault Json :=
  match decodeAny? (encode body) with
  | none => .error .badFormat
  | some text =>
    match Json.parse reading text with
    | .error .malformed => .error .badFormat
    | .error (.tooManyDigits count) => .error (.badNumber (.tooManyDigits count))
    | .error (.tooDeep inList) => .error (.tooDeep inList)
    | .ok value => .ok value

/-- The page of a body.  The total is looked at before the items. -/
def ofBody (reading : Json.Settings) (body : String) : Except PageFault Page := do
  let value ← valueOf reading body
  let total ← totalOf (← fieldOf "total_count" value)
  let items ← itemsOf (← fieldOf "items" value)
  return ⟨total, items⟩

/-! ## Pages -/

/-- The page of an answer to a request at an address. -/
def ofResponse (reading : Json.Settings) (address : String) (status? : Option Int)
    (reason body : String) : Except PageFault Page :=
  match status? with
  | none => .error .wrongType
  | some status =>
    match Status.errorSide? status with
    | some side => .error (.badStatus status side reason address)
    | none => ofBody reading body

/-- The page of a number that a source gets by an answer. -/
def ofAnswer (source : Source) (page : Nat) : PageAnswer → Except PageFailure Page
  | .unreachable sort reason => .error (.ofFault (.unreachable sort reason))
  | .interrupted => .error .interrupted
  | .response status? reason body =>
    (ofResponse source.reading (source.pageAddress page) status? reason body).mapError .ofFault

end Page
end FeatureCensus
