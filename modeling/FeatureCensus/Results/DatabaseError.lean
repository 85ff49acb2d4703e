import FeatureCensus.Relational.Store
import FeatureCensus.Results.Address
import FeatureCensus.Text.Stray

/-!
# Errors of databases

Why a database cannot be opened, read or changed.

Main definitions:

- Definition {lit}`DatabaseError`: the reasons.
- Definition {lit}`DatabaseError.message`: the message about a reason.
-/

namespace FeatureCensus

open Relational Text

/-- Why an operation on a database fails. -/
inductive DatabaseError where
  /-- There is no place for the file. -/
  | cannotOpen
  /-- No database is named. -/
  | notNamed
  /-- The address cannot be followed. -/
  | badAddress (error : AddressError)
  /-- The file cannot be read. -/
  | unreadable
  /-- The file holds something else. -/
  | notADatabase
  /-- The file is that of a database but damaged. -/
  | malformed
  /-- The schema has an entry that is none. -/
  | malformedEntry (name : String)
  /-- The schema has an entry whose page is not there. -/
  | lostPage (name : String)
  /-- The file is that of a later kind of database. -/
  | unsupportedFormat
  /-- The database cannot be changed. -/
  | readOnly
  /-- A table refuses what is asked of it. -/
  | relational (refusal : Refusal)
  /-- A number has more than 64 bits. -/
  | integerTooLarge
  /-- A text holds stray bytes, of which the first ones are told. -/
  | unencodable (run : Strays.Run)
  /-- A stored number of occurrences is infinite. -/
  | infiniteCount
  /-- A stored key is no text. -/
  | undecodableKey (error : Utf8Error)
  deriving DecidableEq, Repr, Inhabited

namespace DatabaseError

/-- What is wrong with an entry of a schema. -/
def entryMessage (name : String) : String :=
  "malformed database schema (" ++ name ++ ")"

/-- The text of the error. -/
def message : DatabaseError → String
  | cannotOpen => "unable to open database file"
  | notNamed => "Error, database must be initialized before opening a connection."
  | badAddress error => error.message
  | unreadable => "disk I/O error"
  | notADatabase => "file is not a database"
  | malformed => "database disk image is malformed"
  | malformedEntry name => entryMessage name
  | lostPage name => entryMessage name ++ " - invalid rootpage"
  | unsupportedFormat => "unsupported file format"
  | readOnly => "attempt to write a readonly database"
  | relational refusal => refusal.message
  | integerTooLarge => "Python int too large to convert to SQLite INTEGER"
  | unencodable run => run.message
  | infiniteCount => "cannot convert float infinity to integer"
  | undecodableKey error => error.message

/-- A result of the tables, where nothing is left to be done for a row that is skipped. -/
def ofResult {α : Type} [Inhabited α] : Result α → Except DatabaseError α
  | .ok a => .ok a
  | .error (.refused refusal) => .error (.relational refusal)
  | .error .skipped => .ok default

end DatabaseError
end FeatureCensus
