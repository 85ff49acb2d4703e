import FeatureCensus.CommandLine.Help
import FeatureCensus.Survey.Survey

/-!
# The program

The program that a command line starts: a survey of a corpus, or the analysis of a
single project, followed by the report.

Main results:

- Theorem {lit}`CommandLine.run_of_wrong`: a wrong command line changes nothing.
-/

namespace FeatureCensus
namespace CommandLine

/-- The credentials that the surroundings provide, and how they read pages of results. -/
structure Surroundings where
  user? : Option String := none
  token? : Option String := none
  reading : Json.Settings := {}
  deriving DecidableEq, Repr, Inhabited

/-- How the program ends. -/
inductive Ending where
  /-- It has done its work. -/
  | done
  /-- It ends early with a code. -/
  | exited (code : Nat)
  | failed (failure : Failure)
  deriving DecidableEq, Repr, Inhabited

/-- What the program prints and how it ends. -/
structure Outcome where
  stdout : String := ""
  stderr : String := ""
  ending : Ending
  deriving DecidableEq, Repr, Inhabited

/-! ## Surveys -/

/-- The survey of a single project. -/
def projectSurvey (options : Options) : Survey :=
  { destination := options.destination }

/-- The survey of a corpus, without its lists. -/
def corpusSurvey (options : Options) (surroundings : Surroundings) : Survey :=
  { corpus? := some
      { base := options.corpusPath, continueOnFailure := options.continueOnFailure }
    source :=
      { credentials? := Source.credentialsOf? surroundings.user? surroundings.token?
        reading := surroundings.reading }
    destination := options.destination }

/-- How options run a survey. -/
def runOptions (options : Options) : RunOptions :=
  { localOnly := options.localOnly
    maxProjects? := options.maxProjects?
    hideProgress? := some options.hideProgress }

/-- Counts the features of a single project. -/
def countProject (options : Options) : Action Tally Unit := do
  (projectSurvey options).analyzer.countProject options.corpusPath
  (projectSurvey options).save

/-- The survey that options ask for. -/
def survey (options : Options) (surroundings : Surroundings) (files : FileTree Content) :
    Except Failure Survey :=
  if options.onlyAnalyze then .ok (projectSurvey options)
  else (corpusSurvey options surroundings).withLists {} files

/-- Does what options ask for and makes the report. -/
def perform (options : Options) (survey : Survey) : Action Tally String := do
  if options.onlyAnalyze then countProject options
  else survey.run (runOptions options)
  Survey.report

/-! ## Running -/

/-- Runs a survey from its beginning. -/
def runSurvey (options : Options) (survey : Survey) (w : World) : Outcome × World :=
  match survey.begin options.statsOnly with
  | .error failure => ({ ending := .failed failure }, w)
  | .ok tally =>
    match (perform options survey).run ⟨w, tally⟩ with
    | .ok report s => ({ stdout := report ++ "\n", ending := .done }, s.world)
    | .error failure s => ({ ending := .failed failure }, s.world)

/-- Runs the program with the words of a command line. -/
def run (words : List String) (surroundings : Surroundings) (w : World) : Outcome × World :=
  match parse words with
  | .error .help => ({ stdout := help, ending := .exited 0 }, w)
  | .error (.wrong error) => ({ stderr := usageMessage error, ending := .exited 2 }, w)
  | .ok options =>
    match survey options surroundings w.files with
    | .error failure => ({ ending := .failed failure }, w)
    | .ok survey => runSurvey options survey w

/-- A wrong command line changes nothing. -/
theorem run_of_wrong {words : List String} {error : UsageError}
    (h : parse words = .error (.wrong error)) (surroundings : Surroundings) (w : World) :
    run words surroundings w =
      ({ stderr := usageMessage error, ending := .exited 2 }, w) := by
  simp [run, h]

end CommandLine
end FeatureCensus
