import FeatureCensus.Analysis.Recording
import FeatureCensus.Files.FileTree
import FeatureCensus.Results.Database
import FeatureCensus.Search.Discovery
import FeatureCensus.Syntax.Normalize

/-!
# Failures

All the reasons for which an operation of a census may end early.

Main definitions:

- Definition {lit}`Failure`: the failures.
- Definition {lit}`Failure.message?`: the message about a failure, if there is one.
-/

namespace FeatureCensus

open Text Syntax

/-- The text of the error. -/
def CatalogError.message : CatalogError → String
  | duplicateKeys keys => "Duplicate feature counter keys: " ++ ", ".intercalate keys
  | unknownTracking written => written ++ " is not a valid Tracking"
  | unknownKind written => written ++ " is not a valid NodeKind"
  | tooShort needed found =>
    "not enough values to unpack (expected at least " ++ toString needed ++ ", got " ++
      toString found ++ ")"

/-- Why an operation ends early. -/
inductive Failure where
  | unknownKey (key : String)
  | catalog (error : CatalogError)
  | number (error : IntegerError)
  | markup (error : MarkupError)
  | undecodable (error : Utf8Error)
  | file (error : FileError)
  | database (error : DatabaseError)
  /-- A page of results cannot be had. -/
  | page (query : String) (index : Nat) (fault : PageFault)
  /-- A fault of a page that the search does not expect. -/
  | unexpected (fault : PageFault)
  /-- The user interrupts the program. -/
  | interrupted
  /-- A survey of a corpus has none. -/
  | missingCorpus
  /-- A value is of another type than expected. -/
  | wrongType
  deriving DecidableEq, Repr, Inhabited

namespace Failure

/-- The failure of a request for a page. -/
def ofPage (query : String) (index : Nat) : PageFailure → Failure
  | .fault fault => .page query index fault
  | .unexpected fault => .unexpected fault
  | .interrupted => .interrupted

/-- The failure of an analysis. -/
def ofFault : Analysis.Fault → Failure
  | .malformedNumber error => .number error
  | .unknownCounter key => .unknownKey key

/-- The text of a failure, where some characters stand for stray bytes; that of a value of a wrong
type is not told. -/
def message? (strays : Strays) : Failure → Option String
  | unknownKey key => some (quoted key)
  | catalog error => some error.message
  | number error => some error.message
  | markup error => some error.message
  | undecodable error => some error.message
  | file error => some (error.message strays)
  | database error => some error.message
  | page query index fault =>
    some ("Source " ++ Source.name ++ " failed to search page " ++ toString index ++ " of \"" ++
      query ++ "\": " ++ fault.message)
  | unexpected fault => some fault.message
  | interrupted => some ""
  | missingCorpus => some "Cannot run a KotlinSurvey without a corpus"
  | wrongType => none

end Failure
end FeatureCensus
