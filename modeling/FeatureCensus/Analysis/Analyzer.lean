import FeatureCensus.Analysis.SourceFiles
import FeatureCensus.Rules.KotlinCatalog
import FeatureCensus.Rules.KotlinRules
import FeatureCensus.World.Action

/-!
# Analyzers

An analyzer counts the features of all source files of a project.  A file that cannot be
read is skipped; everything else that goes wrong ends the analysis.

Main results:

- Theorem {lit}`Analyzer.run_countFile`: counting a file changes the session alone.
-/

namespace FeatureCensus

open Text Syntax

/-- The state of a survey: its session, and how many discovered projects the present run
has analyzed. -/
structure Tally where
  session : Session
  analyzed : Nat := 0
  deriving DecidableEq, Repr, Inhabited

/-- What is counted, and in which files. -/
structure Analyzer where
  name : String := "kotlin"
  pattern : String := "**/*.kt"
  filters : List FileFilter := [.testData]
  catalog : Catalog := Kotlin.catalog
  rules : List Rule := Kotlin.rules
  deriving Inhabited

namespace Analyzer

/-- The analyzer with its name. -/
def description (analyzer : Analyzer) : String :=
  "KotlinAnalyzer(" ++ analyzer.name ++ ")"

/-- An empty session for the catalog. -/
def newSession (analyzer : Analyzer) (statsOnly : Bool) : Except CatalogError Session :=
  Session.ofCatalog analyzer.catalog statsOnly

/-! ## Files -/

variable {σ : Type}

/-- Parses a source. -/
def parseSource (source : Bytes) (path : Option String) (w : World) :
    Except MarkupError ParsedFile :=
  (normalize (w.parse source)).map fun tree => ⟨tree, path, LineIndex.ofBytes source⟩

/-- Logs that a file cannot be read. -/
def logUnreadable (project path : String) (error : FileError) : Action σ Unit := do
  let strays := (← Action.world).files.strays
  Action.log .error ("Skipping Kotlin file \"" ++ path ++ "\" in project \"" ++ project ++
    "\" that could not be read: " ++ error.message strays)

/-- Reads and parses a file, or logs that it cannot be read. -/
def prepareFile (project path : String) : Action σ (Option ParsedFile) := do
  let w ← Action.world
  match w.files.read (Path.join project path) with
  | .error .embeddedNull => throw (.file .embeddedNull)
  | .error error =>
    logUnreadable project path error
    return none
  | .ok content =>
    let file ← Action.ofExcept .markup (parseSource content.toBytes (some path) w)
    return some file

/-- Counts the features of a parsed file.  What was counted before a failure stays. -/
def countFile (analyzer : Analyzer) (project : String) (file : ParsedFile) :
    Action Tally Unit := fun s =>
  match Analysis.analyzeFile analyzer.rules project file s.own.session with
  | (session, none) => .ok () { s with own := { s.own with session } }
  | (session, some fault) =>
    .error (Failure.ofFault fault) { s with own := { s.own with session } }

/-- Counting a file changes the session alone. -/
theorem run_countFile {analyzer : Analyzer} {project : String} {file : ParsedFile}
    {s : Situation Tally} {session : Session}
    (h : Analysis.analyzeFile analyzer.rules project file s.own.session = (session, none)) :
    (analyzer.countFile project file).run s =
      .ok () { s with own := { s.own with session } } := by
  simp only [EStateM.run, countFile, h]

/-! ## Projects -/

/-- Counts the features of files one after the other. -/
def countFiles (analyzer : Analyzer) (project : String) : List String → Action Tally Unit
  | [] => pure ()
  | path :: rest => do
    match ← prepareFile project path with
    | none => pure ()
    | some file => analyzer.countFile project file
    countFiles analyzer project rest

/-- The paths of the source files of a project. -/
def keys (analyzer : Analyzer) (project : String) (files : FileTree Content) :
    Except FileError (List String) :=
  SourceFiles.keys files analyzer.pattern analyzer.filters project

/-- Counts the features of all source files of a project. -/
def countProject (analyzer : Analyzer) (project : String) : Action Tally Unit := do
  Action.log .info ("Analyzing repository " ++ project)
  Action.changeOwn fun tally => { tally with session := tally.session.addTotals 1 0 0 }
  let paths ← Action.ofExcept .file (analyzer.keys project (← Action.world).files)
  analyzer.countFiles project paths

end Analyzer
end FeatureCensus
