import FeatureCensus.Count.Session

/-!
# Reports

The textual report of a session: the totals, and then each counter in catalog order
with the places of its occurrences.

Main results:

- Theorem {lit}`Report.length_counterLines`: a counter has a line of its own and one
  for each place.
-/

namespace FeatureCensus
namespace Report

/-- The line of one place. -/
def usageLine (usage : Usage) : String :=
  "  Project: " ++ usage.project.display ++ "; path: " ++ usage.path.display ++ ":" ++
    toString usage.line

/-- The lines of a counter. -/
def counterLines (c : Counter) : List String :=
  (c.label ++ ": " ++ toString c.count ++ " in " ++ toString c.projects.length ++ " projects") ::
    c.usages.toList.map usageLine

/-- A counter has a line of its own and one for each place. -/
theorem length_counterLines (c : Counter) :
    (counterLines c).length = c.usages.size + 1 := by
  simp [counterLines]

/-- The lines of a session. -/
def lines (s : Session) : List String :=
  ["Repositories analyzed: " ++ toString s.repositories,
    "Files analyzed: " ++ toString s.files,
    "Lines analyzed: " ++ toString s.lines] ++
    s.counters.flatMap fun entry => counterLines entry.2

/-- The report of a session. -/
def render (s : Session) : String :=
  "\n".intercalate (lines s)

end Report
end FeatureCensus
