import FeatureCensus.Json.Display
import FeatureCensus.World.Action

/-!
# Runs of version control

A run of version control ends with a code.  One that does not start at all is logged and
ends with the code -1; what a failed one says is logged.  Arguments with which nothing can be
started are a failure of more than the run.

Main definitions:

- Definition {lit}`Git.Command`: the commands that are run.
- Definition {lit}`Git.run`: a run of version control and what is logged of it.
-/

namespace FeatureCensus
namespace Git

open Text

variable {σ : Type}

/-- A command. -/
inductive Command where
  /-- Copies the repository at an address into a new directory. -/
  | clone (address : Json) (name : String)
  /-- Updates the copy in the working directory of the run. -/
  | pull
  deriving Inhabited

namespace Command

/-- The arguments of a command. -/
def arguments : Command → List Json
  | clone address name => [.text "clone", address, .text name]
  | pull => [.text "pull"]

/-- The verb of a command. -/
def verb : Command → String
  | clone _ _ => "clone"
  | pull => "pull"

/-- The name under which the outcomes of a command in a directory are known. -/
def label (directory : String) : Command → String
  | clone address _ => "clone " ++ address.spoken
  | pull => "pull " ++ directory

/-- The directory that a successful run in a directory leaves behind. -/
def target (directory : String) : Command → String
  | clone _ name => Path.join directory name
  | pull => directory

/-- Why nothing can be started with an argument: it is no text, or one with a null character. -/
def argumentFailure? : Json → Option Failure
  | .text argument => if argument.toList.contains '\x00' then some (.file .embeddedNull) else none
  | _ => some .wrongType

/-- Why a command cannot be started in a directory, unless a stand-in takes any arguments. -/
def unfit? (command : Command) (directory : String) (w : World) : Option Failure :=
  if w.anyArguments then none
  else (command.arguments ++ [Json.text directory]).findSome? argumentFailure?

end Command

/-! ## Effects -/

/-- Writes the files that a run leaves behind. -/
def writeFiles (target : String) : List (String × Bytes) → FileTree.Change Content Unit
  | [] => pure ()
  | (path, bytes) :: rest => do
    FileTree.writeBelow (Path.join target path) (.bytes bytes)
    writeFiles target rest

/-- What a run with an outcome does to the files; a successful one makes its target. -/
def leaveBehind (target : String) (outcome : GitOutcome) : FileTree.Change Content Unit := do
  if outcome.succeeds then FileTree.makeDirectories target
  writeFiles target outcome.files

/-- Logs that a run could not be started. -/
def reportRefusal (command : Command) (directory reason : String) : Action σ Int := do
  Action.log .error ("Failed to run git " ++ command.verb ++ " in \"" ++ directory ++ "\": " ++
    reason)
  return -1

/-- Logs what a failed run says. -/
def reportFailure (code : Int) (stderr : String) : Action σ Unit :=
  if code != 0 && !stderr.isEmpty then Action.log .error ("> STDERR " ++ strip stderr)
  else pure ()

/-- What the files say against a run. -/
def tryLeaveBehind (target : String) (outcome : GitOutcome) : Action σ (Option String) :=
  tryCatch (do Action.changeFiles (leaveBehind target outcome); return none)
    fun failure => match failure with
      | .file (.refused fault path) => do
        let strays := (← Action.world).files.strays
        return some ((FileError.refused fault path).message strays)
      | other => throw other

/-- Tells the code of a run that nothing, or something, is said against. -/
def report (command : Command) (directory : String) (outcome : GitOutcome) :
    Option String → Action σ Int
  | some reason => reportRefusal command directory reason
  | none => do
    reportFailure outcome.code outcome.stderr
    return outcome.code

/-- Ends a run of a command in a directory with its outcome, and tells its code. -/
def finish (command : Command) (directory : String) (outcome : GitOutcome) : Action σ Int :=
  match outcome.refused? with
  | some reason => reportRefusal command directory reason
  | none => do
    let reason? ← tryLeaveBehind (command.target directory) outcome
    if outcome.interrupted then throw .interrupted
    else report command directory outcome reason?

/-- Starts a command in a directory, if it can be started, and tells its code. -/
def start (command : Command) (directory : String) : Action σ Int := do
  match command.unfit? directory (← Action.world) with
  | some failure => throw failure
  | none => finish command directory (← Action.drawOutcome (command.label directory))

/-- Tries to run a command in a directory and tells its code. -/
def run (command : Command) (directory : String) : Action σ Int := do
  Action.record (.git command.arguments directory)
  start command directory

end Git
end FeatureCensus
