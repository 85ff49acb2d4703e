import FeatureCensus.Analysis.Analyzer
import FeatureCensus.Corpus.Corpus
import FeatureCensus.Results.Report
import FeatureCensus.Results.Saving
import FeatureCensus.Survey.Exclusion

/-!
# Surveys

A survey counts the features of all discovered projects up to a number of them, and then
those of private projects.  However a run ends, its progress display is closed; a run
that does not fail saves the results.

Main definitions:

- Definition {lit}`Survey.visit`: what is done with the copy of a discovered repository.
- Definition {lit}`Survey.run`: a run of a survey.
-/

namespace FeatureCensus

/-- What a survey counts, and where. -/
structure Survey where
  analyzer : Analyzer := {}
  corpus? : Option Corpus := none
  source : Source := {}
  excluded : List String := []
  privateProjects : List String := []
  destination : Destination := .nowhere
  deriving Inhabited

/-- How a survey runs.  The number of projects must not be left out; whether progress is
displayed may be left to the display. -/
structure RunOptions where
  localOnly : Bool := false
  maxProjects? : Option Int := some 1000000
  hideProgress? : Option Bool := some false
  deriving DecidableEq, Repr, Inhabited

namespace Survey

/-- The number of projects that stands for all of them. -/
def allProjects : Int := 1000000

/-- The number of projects that the progress display counts up to. -/
def progressTotal? (maxProjects : Int) : Option Int :=
  if allProjects ≤ maxProjects then none else some maxProjects

/-! ## Projects -/

/-- Counts a discovered project unless it is excluded, and tells whether to go on. -/
def visit (survey : Survey) (maxProjects : Int) (path : String) : Action Tally Bool := do
  if Exclusion.isExcluded path survey.excluded then
    Action.log .info ("Skipping excluded repository " ++ path)
    return true
  else
    survey.analyzer.countProject path
    Action.changeOwn fun tally => { tally with analyzed := tally.analyzed + 1 }
    Action.record .progressAdvanced
    return decide (((← Action.own).analyzed : Int) < maxProjects)

/-- Counts private projects one after the other. -/
def visitPrivate (survey : Survey) : List String → Action Tally Unit
  | [] => pure ()
  | path :: rest => do
    Action.log .info ("Analyzing private repository " ++ path)
    survey.analyzer.countProject path
    visitPrivate survey rest

/-- Logs an interruption. -/
def logInterruption (action : Action Tally Unit) : Action Tally Unit :=
  tryCatch action fun failure => do
    if failure = .interrupted then Action.log .info "Interrupted"
    throw failure

/-! ## Runs -/

/-- Saves the results to their destination. -/
def save (survey : Survey) : Action Tally Unit := do
  Saving.save survey.destination (← Action.own).session

/-- Counts all projects of a corpus and all private ones. -/
def count (survey : Survey) (corpus : Corpus) (localOnly : Bool) (maxProjects : Int) :
    Action Tally Unit := do
  corpus.visitAll survey.source localOnly (survey.visit maxProjects)
  survey.visitPrivate survey.privateProjects

/-- Counts all projects with a progress display and saves the results. -/
def runOn (survey : Survey) (corpus : Corpus) (options : RunOptions) (maxProjects : Int) :
    Action Tally Unit := do
  Action.record (.progressOpened (progressTotal? maxProjects) options.hideProgress?)
  Action.changeOwn fun tally => { tally with analyzed := 0 }
  Action.finallyDo (logInterruption (survey.count corpus options.localOnly maxProjects))
    (Action.record .progressClosed)
  survey.save

/-- Runs the survey. -/
def run (survey : Survey) (options : RunOptions) : Action Tally Unit := do
  match survey.corpus?, options.maxProjects? with
  | none, _ => throw .missingCorpus
  | some _, none => throw .wrongType
  | some corpus, some maxProjects => survey.runOn corpus options maxProjects

/-- The report of the present results. -/
def report : Action Tally String := do
  return Report.render (← Action.own).session

/-! ## Creation -/

/-- The files of the two lists that a survey may be made from. -/
structure ListFiles where
  excluded : String := "excludedRepos.txt"
  privateProjects : String := "privateRepos.txt"
  deriving DecidableEq, Repr, Inhabited

/-- A survey whose lists are read from files. -/
def withLists (survey : Survey) (lists : ListFiles) (files : FileTree Content) :
    Except Failure Survey := do
  let excluded ← Exclusion.readList lists.excluded files
  let privateProjects ← Exclusion.readList lists.privateProjects files
  return { survey with excluded, privateProjects }

/-- The state in which a survey begins. -/
def begin (survey : Survey) (statsOnly : Bool) : Except Failure Tally :=
  match survey.analyzer.newSession statsOnly with
  | .error error => .error (.catalog error)
  | .ok session => .ok { session }

end Survey
end FeatureCensus
