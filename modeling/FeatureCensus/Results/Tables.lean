import FeatureCensus.Count.Session
import FeatureCensus.Relational.Value
import FeatureCensus.Text.Stray

/-!
# Tables of results

The results of a census as rows of three tables: the totals, the counters and the tracked
places of their occurrences.

Main results:

- Theorem {lit}`flatten_batches`: batches hold all items in order.
- Theorem {lit}`Tables.length_usageRows`: each tracked place has a row.
-/

namespace FeatureCensus

open Relational Text

/-! ## Batches -/

/-- A list in parts of so many items, of which the last one may be shorter. -/
def batches {α : Type} (size : Nat) (items : List α) : List (List α) :=
  if _h : size = 0 ∨ items = [] then []
  else items.take size :: batches size (items.drop size)
termination_by items.length
decreasing_by
  have := List.length_pos_iff.2 (not_or.1 _h).2
  simp only [List.length_drop]
  omega

/-- Batches hold all items in order. -/
theorem flatten_batches {α : Type} {size : Nat} (h : 0 < size) (items : List α) :
    (batches size items).flatten = items := by
  rw [batches]
  split
  · rename_i hor
    rcases hor with hzero | hnil
    · omega
    · simp [hnil]
  · rename_i hor
    have _shorter := List.length_pos_iff.2 (not_or.1 hor).2
    rw [List.flatten_cons, flatten_batches h, List.take_append_drop]
termination_by items.length
decreasing_by
  simp only [List.length_drop]
  omega

/-! ## Rows -/

/-- The stored form of the totals. -/
structure TotalsRow where
  repositories : Int
  files : Int
  lines : Int
  deriving DecidableEq, Repr, Inhabited

/-- The stored form of a counter. -/
structure CounterRow where
  position : Nat
  key : String
  label : String
  occurrences : Nat
  projects : Nat
  deriving DecidableEq, Repr, Inhabited

/-- The stored form of the place of an occurrence. -/
structure UsageRow where
  key : String
  position : Nat
  project? : Option String
  path? : Option String
  line : Int
  deriving DecidableEq, Repr, Inhabited

/-- The value of a text that may be missing. -/
def textValue : Option String → Value
  | some s => .text s
  | none => .null

/-- The values of a row. -/
def TotalsRow.values (row : TotalsRow) : List Value :=
  [.integer row.repositories, .integer row.files, .integer row.lines]

/-- The values of a row. -/
def CounterRow.values (row : CounterRow) : List Value :=
  [.integer row.position, .text row.key, .text row.label, .integer row.occurrences,
    .integer row.projects]

/-- The values of a row. -/
def UsageRow.values (row : UsageRow) : List Value :=
  [.text row.key, .integer row.position, textValue row.project?, textValue row.path?,
    .integer row.line]

/-- Whether all integers among values have at most 64 bits. -/
def fits (values : List Value) : Bool :=
  values.all fun value => match value with
    | .integer n => isWord n
    | _ => true

/-- Whether all texts among values can be encoded. -/
def isEncodable (strays : Strays) (values : List Value) : Bool :=
  values.all fun value => match value with
    | .text s => (strays.strayRun? s).isNone
    | _ => true

/-! ## Tables -/

/-- The rows of all tables in the order in which they were added. -/
structure Tables where
  totals : List TotalsRow := []
  counters : List CounterRow := []
  usages : List UsageRow := []
  deriving DecidableEq, Repr, Inhabited

namespace Tables

/-- The row of the totals. -/
def totalsRow (s : Session) : TotalsRow :=
  ⟨s.repositories, s.files, s.lines⟩

/-- The row of a counter. -/
def counterRow (position : Nat) (key : String) (c : Counter) : CounterRow :=
  ⟨position, key, c.label, c.count, c.projects.length⟩

/-- The rows of the places of a counter. -/
def usageRows (key : String) (c : Counter) : List UsageRow :=
  c.usages.toList.zipIdx.map fun (usage, position) =>
    ⟨key, position, usage.project.stored?, usage.path.stored?, usage.line⟩

/-- Each tracked place has a row. -/
theorem length_usageRows (key : String) (c : Counter) :
    (usageRows key c).length = c.usages.size := by
  simp [usageRows]

/-- The rows of a session. -/
def ofSession (s : Session) : Tables where
  totals := [totalsRow s]
  counters := s.counters.zipIdx.map fun ((key, c), position) => counterRow position key c
  usages := s.counters.flatMap fun (key, c) => usageRows key c

/-- The places of a session are those of its counters, wherever they stand. -/
theorem usages_ofSession (s : Session) :
    (ofSession s).usages =
      s.counters.zipIdx.flatMap fun entry => usageRows entry.1.1 entry.1.2 := by
  have hplaced := List.flatMap_map Prod.fst (fun entry => usageRows entry.1 entry.2)
    s.counters.zipIdx
  rw [List.zipIdx_map_fst] at hplaced
  exact hplaced

/-- The number of places that are saved at once. -/
def batchSize : Nat := 100

end Tables
end FeatureCensus
