import FeatureCensus.CommandLine.Program
import FeatureCensus.Snapshot.Surroundings

/-!
# The executable

Reads a snapshot of the surroundings from the standard input, runs the program of the
command line in it, and prints what the program prints.  Log messages go to the standard
error stream.
-/

namespace FeatureCensus

/-- The line of a log message. -/
def logLine? : Event → Option String
  | .log level message => some (level.name ++ ": " ++ message)
  | _ => none

/-- The code with which the executable ends. -/
def exitCode : CommandLine.Ending → UInt32
  | .done => 0
  | .exited code => code.toUInt32
  | .failed _ => 1

/-- The last words of a program that fails. -/
def lastWords : CommandLine.Ending → String
  | .failed failure => (failure.message? Snapshot.strays).getD "" ++ "\n"
  | _ => ""

/-- Runs the program in the world of a snapshot. -/
def runSnapshot (words : List String) (surroundings : CommandLine.Surroundings)
    (snapshot : String) : CommandLine.Outcome × List String :=
  match Json.parse Snapshot.reading snapshot with
  | .error _ => ({ stderr := "the snapshot cannot be read\n", ending := .exited 2 }, [])
  | .ok j =>
    match Snapshot.worldOf j with
    | .error error => ({ ending := .failed (.file error) }, [])
    | .ok w =>
      let (outcome, w) := CommandLine.run words surroundings w
      (outcome, w.events.toList.filterMap logLine?)

end FeatureCensus

open FeatureCensus in
/-- Runs the program. -/
def main (words : List String) : IO UInt32 := do
  let user? ← IO.getEnv "GITHUB_USERNAME"
  let token? ← IO.getEnv "GITHUB_TOKEN"
  let snapshot ← (← IO.getStdin).readToEnd
  let (outcome, logged) := runSnapshot words { user?, token?, reading := Snapshot.reading } snapshot
  for line in logged do
    IO.eprintln line
  IO.print outcome.stdout
  IO.eprint (outcome.stderr ++ lastWords outcome.ending)
  return exitCode outcome.ending
