import FeatureCensus.Count.Session
import FeatureCensus.LineIndex
import FeatureCensus.Rules.Rule

/-!
# Recording findings

The findings of all rules in a file are recorded in a session one by one, in document
order.  The first one that cannot be recorded ends the file; what was recorded before
it stays.

Main results:

- Theorem {lit}`Analysis.keys_recordAll`: recording keeps the keys of the session.
-/

namespace FeatureCensus

open Syntax Text

/-- A source file with its normalized tree, its path within its project and the
positions of its lines. -/
structure ParsedFile where
  tree : ElementTree
  path : Option String
  lines : LineIndex
  deriving Inhabited

namespace Analysis

/-- Why the analysis of a file ends early. -/
inductive Fault where
  /-- An attribute is no integer. -/
  | malformedNumber (error : IntegerError)
  /-- A rule adds to a counter that the catalog does not declare. -/
  | unknownCounter (key : String)
  deriving DecidableEq, Repr, Inhabited

/-! ## Findings -/

/-- The findings of the rules of a table at an element, in the order of the rules. -/
def findingsAt (table : Rule.Table) (site : Site) : List Finding :=
  (Rule.groupFor table site.element).flatMap fun rule => rule.findings site

/-- The findings in a tree, each with the element that it was made at. -/
def findings (table : Rule.Table) (tree : ElementTree) : List (Element × Finding) :=
  tree.visits.flatMap fun site => (findingsAt table site).map fun finding =>
    (site.element, finding)

/-! ## Recording -/

/-- The line on which an element begins. -/
def lineOf (lines : LineIndex) (e : Element) : Except IntegerError Int :=
  match e.attribute? "start" with
  | none => .ok (lines.lineNumber 0)
  | some text => (parseInteger text).map fun start => (lines.lineNumber start : Int)

/-- Records one finding.  The line is determined before the counter is looked up. -/
def record (project : PlaceName) (file : ParsedFile) (s : Session) :
    Element × Finding → Except Fault Session
  | (_, .malformed error) => .error (.malformedNumber error)
  | (e, .count key) =>
    match lineOf file.lines e with
    | .error error => .error (.malformedNumber error)
    | .ok line =>
      match s.increment? key ⟨project, .ofText? file.path, line⟩ with
      | none => .error (.unknownCounter key)
      | some updated => .ok updated

/-- Records findings until one of them cannot be recorded. -/
def recordAll (project : PlaceName) (file : ParsedFile) :
    Session → List (Element × Finding) → Session × Option Fault
  | s, [] => (s, none)
  | s, finding :: rest =>
    match record project file s finding with
    | .error fault => (s, some fault)
    | .ok updated => recordAll project file updated rest

theorem keys_record {project : PlaceName} {file : ParsedFile} {s updated : Session}
    {finding : Element × Finding} (h : record project file s finding = .ok updated) :
    updated.keys = s.keys := by
  obtain ⟨e, finding⟩ := finding
  cases finding with
  | malformed error => cases h
  | count key =>
    simp only [record] at h
    split at h
    · cases h
    · split at h
      · cases h
      · rename_i next hnext
        obtain rfl := Except.ok.inj h
        exact Session.keys_increment hnext

/-- Recording keeps the keys of the session. -/
theorem keys_recordAll (project : PlaceName) (file : ParsedFile) (s : Session)
    (findings : List (Element × Finding)) :
    (recordAll project file s findings).1.keys = s.keys := by
  induction findings generalizing s with
  | nil => rfl
  | cons finding rest ih =>
    rw [recordAll]
    cases h : record project file s finding with
    | error fault => rfl
    | ok updated => rw [← keys_record h]; exact ih updated

/-! ## Files -/

/-- Counts a file and its lines and records everything that the rules find in it. -/
def analyzeFile (rules : List Rule) (project : PlaceName) (file : ParsedFile) (s : Session) :
    Session × Option Fault :=
  recordAll project file (s.addTotals 0 1 file.lines.lineCount)
    (findings (Rule.dispatchTable rules) file.tree)

end Analysis
end FeatureCensus
