import FeatureCensus.Json.Writer
import FeatureCensus.Snapshot.Parse
import FeatureCensus.World.Action

/-!
# Snapshots

A snapshot writes down the surroundings of a census: directories and files, the answers
to requests, and the outcomes of runs of version control.

Main definitions:

- Definition {lit}`Snapshot.filesOf`: the recorded directories and files.
- Definition {lit}`Snapshot.worldOf`: the recorded surroundings.
-/

namespace FeatureCensus
namespace Snapshot

open Text Syntax

/-- The values in a field with a list; there are none in anything else. -/
def listField (j : Json) (name : String) : List Json :=
  ((j.field? name).bind Json.list?).getD []

/-! ## Files -/

/-- A file with its content and what the parser makes of it. -/
structure RecordedFile where
  path : String
  source : Bytes
  tree : ParseTree
  deriving Inhabited

/-- The file that a value describes. -/
def fileOf (j : Json) : RecordedFile :=
  let (source, tree) := recordedTree j
  ⟨(textField? j "path").getD "", source, tree⟩

/-- Makes directories. -/
def makeAll : List String → FileTree.Change Content Unit
  | [] => pure ()
  | path :: rest => do
    FileTree.makeDirectories path
    makeAll rest

/-- Writes files after making the directories above them. -/
def writeAll : List RecordedFile → FileTree.Change Content Unit
  | [] => pure ()
  | file :: rest => do
    FileTree.writeBelow file.path (.bytes file.source)
    writeAll rest

/-- The number of the character that stands for the byte zero, were it a stray one. -/
def firstStray : Nat := 0x10DC00

/-- The characters that stand for stray bytes. -/
def strays : Strays :=
  (List.range 128).map fun i => (Char.ofNat (firstStray + 128 + i), (128 + i).toUInt8)

/-- How texts are read that may hold stray bytes. -/
def reading : Json.Settings :=
  { strays }

/-- The files of a snapshot, in which searches give what they find in the order of its paths. -/
def filesOf (directories : List String) (files : List RecordedFile) :
    Except FileError (FileTree Content) :=
  match (do makeAll directories; writeAll files : FileTree.Change Content Unit).run
      (.empty strays .byPath) with
  | .ok _ t => .ok t
  | .error error _ => .error error

/-! ## Answers -/

/-- The body of an answer: a value in its written form, or a text. -/
def bodyOf (j : Json) : String :=
  match j.field? "json" with
  | some value => value.write
  | none => (textField? j "body").getD ""

/-- The status of an answer, which is that of success unless it is told or left out. -/
def statusOf? (j : Json) : Option Int :=
  match j.field? "status" with
  | none => some 200
  | some status => status.integer?

/-- The reason of an answer, which is the usual phrase of its status unless it is told or
left out. -/
def reasonOf (j : Json) : String :=
  match j.field? "reason" with
  | none => ((statusOf? j).map Status.phrase).getD ""
  | some reason => reason.text?.getD "None"

/-- The answer that a value describes. -/
def answerOf (j : Json) : PageAnswer :=
  match textField? j "raise" with
  | some kind =>
    if kind == "KeyboardInterrupt" then .interrupted
    else .unreachable .request ((textField? j "text").getD "")
  | none => .response (statusOf? j) (reasonOf j) (bodyOf j)

/-! ## Version control -/

/-- The outcome that a value describes, with its files; a run that is not successful leaves none
of them behind. -/
def outcomeOf (j : Json) : GitOutcome × List RecordedFile :=
  let files := (listField j "files").map fileOf
  let outcome : GitOutcome :=
    { code := ((j.field? "code").bind Json.integer?).getD 0
      stderr := (textField? j "stderr").getD ""
      refused? := textField? j "oserror"
      interrupted := ((j.field? "interrupt").bind Json.bool?).getD false
      files := files.map fun file => (file.path, file.source) }
  (if outcome.succeeds then outcome else { outcome with files := [] }, files)

/-- The outcomes that a value describes: one, or a list of them. -/
def outcomesOf : Json → List (GitOutcome × List RecordedFile)
  | .list items => items.map outcomeOf
  | .null => []
  | single => [outcomeOf single]

/-- The commands of a snapshot with their outcomes. -/
def commandsOf (j : Json) : List (String × List (GitOutcome × List RecordedFile)) :=
  match j.field? "git" with
  | some (.object fields) => fields.map fun (command, value) => (command, outcomesOf value)
  | _ => []

/-! ## Worlds -/

/-- What the parser makes of the files, the latest first. -/
def parsesOf (files : List RecordedFile) : List (Bytes × ParseTree) :=
  files.reverse.map fun file => (file.source, file.tree)

/-- The world of a snapshot. -/
def worldOf (j : Json) : Except FileError World := do
  let files := (listField j "files").map fileOf
  let commands := commandsOf j
  let later := commands.flatMap fun (_, outcomes) => outcomes.flatMap (·.2)
  return { files := ← filesOf ((listField j "dirs").filterMap Json.text?) files
           answers := (listField j "github").map answerOf
           script := commands.map fun (command, outcomes) => (command, outcomes.map (·.1))
           anyArguments := true
           parses := parsesOf (files ++ later) }

end Snapshot
end FeatureCensus
