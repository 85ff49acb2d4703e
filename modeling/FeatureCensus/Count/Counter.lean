import FeatureCensus.Count.PlaceName

/-!
# Counters

A counter accumulates the occurrences of one feature: their number, the projects
they were found in and, where it keeps track of them, the place of each.

Main results:

- Theorem {lit}`Counter.count_increment`: an increment adds one.
- Theorem {lit}`Counter.mem_projects_increment`: an increment adds its project and
  removes none.
- Theorem {lit}`Counter.usages_increment_of_tracks`: a tracking counter appends the
  place.
-/

namespace FeatureCensus

/-- The place of one occurrence: its project, the path of its file in the project, and
its line. -/
structure Usage where
  project : PlaceName
  path : PlaceName
  line : Int
  deriving DecidableEq, Repr, Inhabited

/-- The occurrences of one feature. -/
structure Counter where
  label : String
  tracks : Bool
  count : Nat := 0
  projects : List PlaceName := []
  usages : Array Usage := #[]
  deriving DecidableEq, Repr, Inhabited

namespace Counter

/-- A counter without occurrences. -/
def empty (label : String) (tracks : Bool) : Counter :=
  { label, tracks }

/-- Adds an occurrence at a place. -/
def increment (c : Counter) (usage : Usage) : Counter :=
  { c with
    count := c.count + 1
    projects :=
      if c.projects.contains usage.project then c.projects else c.projects ++ [usage.project]
    usages := if c.tracks then c.usages.push usage else c.usages }

@[simp]
theorem count_increment (c : Counter) (usage : Usage) :
    (c.increment usage).count = c.count + 1 := rfl

@[simp]
theorem label_increment (c : Counter) (usage : Usage) :
    (c.increment usage).label = c.label := rfl

@[simp]
theorem tracks_increment (c : Counter) (usage : Usage) :
    (c.increment usage).tracks = c.tracks := rfl

/-- An increment adds its project and removes none. -/
@[simp]
theorem mem_projects_increment (c : Counter) (usage : Usage) (project : PlaceName) :
    project ∈ (c.increment usage).projects ↔ project ∈ c.projects ∨ project = usage.project := by
  by_cases h : usage.project ∈ c.projects
  · simp only [increment, List.contains_iff_mem, h, if_true]
    exact ⟨Or.inl, fun hor => hor.elim id fun heq => heq ▸ h⟩
  · simp [increment, h]

/-- A tracking counter appends the place. -/
theorem usages_increment_of_tracks {c : Counter} (h : c.tracks = true) (usage : Usage) :
    (c.increment usage).usages = c.usages.push usage := by
  simp [increment, h]

/-- A counter that does not track keeps no place. -/
theorem usages_increment_of_not_tracks {c : Counter} (h : c.tracks = false) (usage : Usage) :
    (c.increment usage).usages = c.usages := by
  simp [increment, h]

end Counter
end FeatureCensus
