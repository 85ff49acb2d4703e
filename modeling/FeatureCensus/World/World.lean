import FeatureCensus.Files.FileTree
import FeatureCensus.Results.Database
import FeatureCensus.Search.Page
import FeatureCensus.Syntax.Token
import FeatureCensus.World.Event

/-!
# The world

The surroundings of a census: the files, the answers to coming requests, the outcomes
of coming runs of version control, what the parser makes of each source, and what has
happened so far.

Main results:

- Theorem {lit}`World.events_record`: what happens is recorded last.
-/

namespace FeatureCensus

open Text Syntax

/-! ## Files and parses -/

/-- What a file holds. -/
inductive Content where
  | bytes (bytes : Bytes)
  | database (database : Database)
  deriving Inhabited

/-- The bytes of a file; those of a database are not told. -/
def Content.toBytes : Content → Bytes
  | bytes b => b
  | database _ => []

/-! ## Version control -/

/-- How a run of version control ends. -/
structure GitOutcome where
  code : Int := 0
  stderr : String := ""
  /-- The run cannot be started, for this reason. -/
  refused? : Option String := none
  /-- The user interrupts the run. -/
  interrupted : Bool := false
  /-- The files that the run leaves behind, by their paths below its target. -/
  files : List (String × Bytes) := []
  deriving DecidableEq, Repr, Inhabited

/-- Whether a run that starts at all is successful. -/
def GitOutcome.succeeds (outcome : GitOutcome) : Bool :=
  !outcome.interrupted && outcome.code == 0

/-- The outcomes of coming runs, by command. -/
abbrev GitScript := List (String × List GitOutcome)

/-! ## Worlds -/

/-- The surroundings of a census. -/
structure World where
  files : FileTree Content := .empty
  answers : List PageAnswer := []
  script : GitScript := []
  /-- What runs for version control is a stand-in that takes any arguments. -/
  anyArguments : Bool := false
  /-- What the parser makes of sources, the latest first. -/
  parses : List (Bytes × ParseTree) := []
  events : Array Event := #[]
  deriving Inhabited

namespace World

/-- What the parser makes of a source. -/
def parse (w : World) (source : Bytes) : ParseTree :=
  (w.parses.lookup source).getD (bareTree source)

/-- The world after an event. -/
def record (w : World) (event : Event) : World :=
  { w with events := w.events.push event }

/-- What happens is recorded last. -/
@[simp]
theorem events_record (w : World) (event : Event) :
    (w.record event).events = w.events.push event := rfl

/-- What happens leaves the files alone. -/
@[simp]
theorem files_record (w : World) (event : Event) : (w.record event).files = w.files := rfl

/-- The next outcome of a command, and the outcomes after it.  The last one stays. -/
def takeOutcome (outcomes : List GitOutcome) : GitOutcome × List GitOutcome :=
  match outcomes with
  | [] => ({}, [])
  | [last] => (last, [last])
  | next :: rest => (next, rest)

/-- The outcome of a command and the world after it is drawn. -/
def drawOutcome (w : World) (command : String) : GitOutcome × World :=
  match w.script.lookup command with
  | none => ({}, w)
  | some outcomes =>
    ((takeOutcome outcomes).1,
      { w with script := Association.put command (takeOutcome outcomes).2 w.script })

end World
end FeatureCensus
