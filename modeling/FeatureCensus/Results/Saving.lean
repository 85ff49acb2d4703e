import FeatureCensus.Results.Schema
import FeatureCensus.World.Action

/-!
# Saving results

A session is saved to a database, which is that of a file unless it lasts only until it is
closed.  The path of the file is followed by its text alone, so that a directory on the way
need not be there if the path leaves it again.  Beside the file may stand what an earlier
change has left behind: a journal of what was there before, or a log of what was to come.

Main definitions:

- Definition {lit}`Saving.settle`: settles what an earlier change has left behind.
- Definition {lit}`Saving.saveTo`: saves a session to a database.
-/

namespace FeatureCensus
namespace Saving

variable {σ : Type}

/-! ## Places -/

/-- The number of bytes that the path of the working directory has. -/
def workingDirectoryBytes : Nat := 16

/-- The number of bytes of the path of a place. -/
def pathBytes (t : FileTree Content) (place : Location) : Nat :=
  let bytes := fun names : Location =>
    names.foldl (fun count name => count + t.strays.byteSize name + 1) 0
  if workingDirectory.isPrefixOf place then
    workingDirectoryBytes + bytes (place.drop workingDirectory.length)
  else bytes place

/-- The number of bytes that the path of a database file may have. -/
def pathLimit : Nat := 504

/-- The number of bytes that a path may have on the way. -/
def reachLimit : Nat := 511

/-- The place that a name leads to from a place, by the text alone.  There may be nothing,
but a file on the way or a name that is too long is refused. -/
def pushName (t : FileTree Content) (place : Location) (name : String) :
    Except DatabaseError Location :=
  let next := Path.resolveName place name
  if next.length ≤ place.length then .ok next
  else if reachLimit < pathBytes t next then .error .cannotOpen
  else match t.follow next [] with
    | .ok _ | .error .notFound => .ok next
    | .error _ => .error .cannotOpen

/-- The place of the database file at a path. -/
def locate (t : FileTree Content) (path : String) : Except DatabaseError Location := do
  let place ← (Path.components path).foldlM (pushName t) (Path.origin path)
  if place.isEmpty || pathLimit < pathBytes t place then .error .cannotOpen else .ok place

/-- The place beside another one whose name has a text more at its end. -/
def beside (place : Location) (ending : String) : Location :=
  place.dropLast ++ [place.getLastD "" ++ ending]

/-! ## Opening -/

/-- An open database. -/
structure OpenDatabase where
  /-- The place of its file, unless it lasts only until it is closed. -/
  place? : Option Location
  database : Database
  isWritable : Bool
  deriving Inhabited

/-- Whether a file has no pages yet.  One byte is too little for a page. -/
def isBlank : Content → Bool
  | .bytes bytes => bytes.length ≤ 1
  | .database _ => false

/-- The database that a file holds, and whether the file lets it be changed. -/
def databaseOf : Content → Except DatabaseError (Database × Bool)
  | .database db => .ok (db, true)
  | .bytes bytes =>
    if isBlank (.bytes bytes) then .ok (.foreign {}, true)
    else do
      let image ← Image.ofBytes bytes
      let db ← Schema.database image
      return (db, !image.locked)

/-- Puts a file at a place. -/
def put (place : Location) (content : Content) : Action σ Unit :=
  Action.changeWorld fun w => { w with files := w.files.put place (.file content) }

/-- Takes away the file at a place. -/
def remove (place : Location) : Action σ Unit :=
  Action.changeWorld fun w => { w with files := w.files.remove place }

/-! ## Leftovers -/

/-- What is left behind at a place.  An empty file is nothing. -/
inductive Leftover where
  | nothing
  | directory
  | file
  deriving DecidableEq, Repr, Inhabited

/-- What is left behind at a place. -/
def leftoverAt (t : FileTree Content) (place : Location) : Leftover :=
  match t.node? place with
  | none | some (.file (.bytes [])) => .nothing
  | some .directory | some .unlisted | some .locked => .directory
  | some (.file _) | some .unreadable => .file

/-- Undoes a change of which the journal is left, which a database that may only be read
cannot do.  The journal of a blank file is no matter. -/
def settleJournal (mode : Address.Mode) (place : Location) (blank : Bool) : Action σ Unit := do
  let journal := beside place "-journal"
  match leftoverAt (← Action.world).files journal with
  | .nothing => pure ()
  | .directory => if blank then pure () else throw (.database .unreadable)
  | .file =>
    if mode != .readOnly then remove journal
    else if blank then pure ()
    else throw (.database .readOnly)

/-- Completes a change of which the log is left, or drops the log of a blank file.  Reading
alone leaves the log and makes an index of it. -/
def settleLog (mode : Address.Mode) (place : Location) (blank : Bool) : Action σ Unit := do
  let log := beside place "-wal"
  let index := beside place "-shm"
  match leftoverAt (← Action.world).files log with
  | .nothing => pure ()
  | .directory => throw (.database (if blank then .unreadable else .cannotOpen))
  | .file =>
    if blank then remove log
    else if mode == .readOnly then put index (.bytes [])
    else
      remove log
      remove index

/-- Settles what is left behind beside a file, unless nobody changes it. -/
def settle (address : Address) (place : Location) (content : Content) : Action σ Unit := do
  if address.immutable then pure ()
  else
    settleJournal address.mode place (isBlank content)
    settleLog address.mode place (isBlank content)

/-! ## Databases of files -/

/-- Opens the database in a file with the given content. -/
def openFile (address : Address) (place : Location) (content : Content) :
    Action σ OpenDatabase := do
  settle address place content
  let (database, free) ← Action.ofExcept .database (databaseOf content)
  return ⟨some place, database, address.isWritable && free⟩

/-- Opens the database in the file at a place, which is made if it may be. -/
def openAt (address : Address) (place : Location) : Action σ OpenDatabase := do
  let t := (← Action.world).files
  match t.node? place with
  | some .directory =>
    throw (.database (if address.mode == .readOnly then .unreadable else .cannotOpen))
  | some .unlisted | some .locked | some .unreadable => throw (.database .cannotOpen)
  | some (.file content) => openFile address place content
  | none =>
    if address.mode == .create && t.isDirectoryAt place.dropLast then
      put place (.bytes [])
      openFile address place (.bytes [])
    else throw (.database .cannotOpen)

/-- Opens the database at an address. -/
def openAddress (address : Address) : Action σ OpenDatabase := do
  if address.isTransient then return ⟨none, .foreign {}, address.isWritable⟩
  else
    let t := (← Action.world).files
    let place ← Action.ofExcept .database (locate t address.path)
    if (address.permissionsOf?.map t.exists?).getD true then openAt address place
    else throw (.database .unreadable)

/-- Opens the database of a name. -/
def openNamed (name : String) : Action σ OpenDatabase := do
  if name.toList.contains '\x00' then throw (.file .embeddedNull)
  else
    let address ← Action.ofExcept (Failure.database ∘ .badAddress) (Address.ofName name)
    openAddress address

/-! ## Changing -/

/-- Makes way for the journal of a change, which is gone after it. -/
def clearJournal (place : Location) : Action σ Unit := do
  let journal := beside place "-journal"
  let t := (← Action.world).files
  if t.holdsDirectory journal ||
      FileTree.nameLimit < t.strays.byteSize (journal.getLastD "") then
    throw (.database .cannotOpen)
  else remove journal

/-- Gets ready to change an open database. -/
def beginChange (opened : OpenDatabase) : Action σ Unit := do
  if !opened.isWritable then throw (.database .readOnly)
  else match opened.place? with
    | none => pure ()
    | some place => clearJournal place

/-- Gives an open database other tables. -/
def store (opened : OpenDatabase) (db : Database) : Action σ OpenDatabase := do
  match opened.place? with
  | none => pure ()
  | some place => put place (.database db)
  return { opened with database := db }

/-- Takes steps that may change an open database; what earlier steps have changed stays. -/
def prepareBy (opened : OpenDatabase) : List Database.Step → Action σ OpenDatabase
  | [] => return opened
  | step :: rest => do
    match ← Action.ofExcept .database (step opened.database) with
    | none => prepareBy opened rest
    | some changed =>
      beginChange opened
      prepareBy (← store opened (← Action.ofExcept .database changed)) rest

/-- Makes the missing tables of an open database. -/
def prepare (opened : OpenDatabase) : Action σ OpenDatabase :=
  prepareBy opened Database.steps

/-- Saves a session to an open database. -/
def saveTo (opened : OpenDatabase) (session : Session) : Action σ Unit := do
  Action.ofExcept .database opened.database.checkSaving
  beginChange opened
  let strays := (← Action.world).files.strays
  let saved ← Action.ofExcept .database (opened.database.save strays session)
  let _ ← store opened saved

/-- Saves a session to the database of a name.  If the session cannot be saved the tables
are there nevertheless. -/
def saveToNamed (name : String) (session : Session) : Action σ Unit := do
  if name.isEmpty then throw (.database .notNamed)
  else
    let opened ← openNamed name
    let prepared ← prepare opened
    saveTo prepared session

/-- What is said before results are saved. -/
def announcement (name : String) : String :=
  "Saving results to " ++ name

/-- Saves a session to its destination. -/
def save (destination : Destination) (session : Session) : Action σ Unit := do
  match destination with
  | .nowhere => pure ()
  | .unnamed =>
    Action.log .info (announcement "[]")
    throw (.database .notNamed)
  | .database name =>
    Action.log .info (announcement name)
    saveToNamed name session

end Saving
end FeatureCensus
