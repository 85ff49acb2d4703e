import FeatureCensus.Relational.Selection
import FeatureCensus.Results.DatabaseError
import FeatureCensus.Results.Tables

/-!
# Layouts of tables

The layouts of the three tables of results, for stores that may hold other tables, views or
rules of these names: making the tables that are missing, and replacing all rows by those
of a session.

Main results:

- Theorem {lit}`obstacle?_eq_none_iff`: what keeps values out of the tables.
-/

namespace FeatureCensus

open Relational Text

/-! ## Obstacles -/

/-- What keeps a value out of every table: a number that is too large, or stray bytes in a text. -/
def obstacleOf? (strays : Strays) : Value → Option DatabaseError
  | .integer n => if isWord n then none else some .integerTooLarge
  | .text s => (strays.strayRun? s).map .unencodable
  | _ => none

/-- What keeps rows of values out of every table.  The values are looked at in their order. -/
def obstacle? (strays : Strays) (rows : List (List Value)) : Option DatabaseError :=
  rows.flatten.findSome? (obstacleOf? strays)

/-- Nothing keeps values out whose numbers are small enough and whose texts can be encoded. -/
theorem obstacle?_eq_none_iff {strays : Strays} {rows : List (List Value)} :
    obstacle? strays rows = none ↔
      ∀ values ∈ rows, fits values = true ∧ isEncodable strays values = true := by
  have hvalue : ∀ value, obstacleOf? strays value = none ↔
      fits [value] = true ∧ isEncodable strays [value] = true := by
    intro value
    cases value <;> simp [obstacleOf?, fits, isEncodable]
  simp only [obstacle?, List.findSome?_eq_none_iff, hvalue, List.mem_flatten, forall_exists_index,
    and_imp]
  simp only [fits, isEncodable, List.all_eq_true, List.mem_singleton, forall_eq]
  constructor
  · intro h values hvalues
    exact ⟨fun value hmem => (h value values hvalues hmem).1,
      fun value hmem => (h value values hvalues hmem).2⟩
  · intro h value values hvalues hmem
    exact ⟨(h values hvalues).1 value hmem, (h values hvalues).2 value hmem⟩

/-! ## Shapes of tables -/

/-- The shape of a table, its column for unique keys with the name of the index on it, and the
columns of new rows. -/
structure Layout where
  shape : Shape
  key? : Option (String × String) := none
  columns : List String
  deriving Inhabited

namespace Layout

/-- A column of integers that are always there. -/
def integerColumn (name : String) : Column :=
  { name, typeName := "INTEGER", required? := some .abort }

/-- A column of texts that may be missing. -/
def optionalColumn (name : String) : Column :=
  { name, typeName := "VARCHAR(255)" }

/-- A column of texts that are always there. -/
def textColumn (name : String) : Column :=
  { optionalColumn name with required? := some .abort }

/-- A key of columns. -/
def keyOf (columns : List String) : List KeyTerm :=
  columns.map fun column => { expression := .column none column true }

/-- The layout of the totals. -/
def totals : Layout where
  shape :=
    { name := "run_totals"
      columns := ["id", "updated", "repositories_analyzed", "files_analyzed",
        "lines_analyzed"].map integerColumn
      rowNumber? := some 0 }
  columns := ["updated", "repositories_analyzed", "files_analyzed", "lines_analyzed"]

/-- The layout of the counters. -/
def counters : Layout where
  shape :=
    { name := "feature_counter"
      columns := [integerColumn "id", integerColumn "updated", integerColumn "position",
        textColumn "feature_key", textColumn "feature_name", integerColumn "occurrence_count",
        integerColumn "project_count"]
      rowNumber? := some 0 }
  key? := some ("feature_key", "featurecountermodel_feature_key")
  columns :=
    ["updated", "position", "feature_key", "feature_name", "occurrence_count", "project_count"]

/-- The layout of the places of occurrences. -/
def usages : Layout where
  shape :=
    { name := "feature_usage"
      columns := [textColumn "feature_key", integerColumn "position", textColumn "project",
        optionalColumn "path", integerColumn "line"]
      uniques := [{ terms := keyOf ["feature_key", "position"], isPrimary := true }]
      indexes := [keyOf ["feature_key", "position"]] }
  columns := ["feature_key", "position", "project", "path", "line"]

/-- The name of the table. -/
def name (layout : Layout) : String :=
  layout.shape.name

/-- All layouts in the order in which their tables are made and emptied. -/
def all : List Layout :=
  [counters, usages, totals]

/-! ## Making tables -/

/-- A step that changes nothing, or gives a store after it unless that fails later on. -/
abbrev Step := Store → Result (Option (Result Store))

/-- Makes the table, unless there is a table or view of its name. -/
def makeTable (layout : Layout) : Step := fun store =>
  if (store.table? layout.name).isSome || (store.view? layout.name).isSome then .ok none
  else if store.indexes.any (sameName layout.name) then refuse (.nameOfIndex layout.name)
  else .ok (some (.ok (store.putTable ⟨layout.shape, .ok #[]⟩)))

/-- Refuses rows of which two have the same key. -/
def checkUnique (rule : UniqueRule) (store : Store) (table : Table) : Result Unit := do
  let rows ← table.rows
  rows.forM fun row => do
    let rivals ← rule.rivals table.shape store rows row (some row.number)
    if rivals.isEmpty then return () else refuse (rule.refusal table.shape)

/-- Makes the index on the keys of the table, unless there is one of its name. -/
def makeIndex (layout : Layout) : Step := fun store =>
  match layout.key? with
  | none => .ok none
  | some (column, index) =>
    match store.table? layout.name with
    | none =>
      if (store.view? layout.name).isSome then refuse .viewUnindexable
      else refuse (.noSuchTable ("main." ++ layout.name))
    | some table =>
      if (store.table? index).isSome || (store.view? index).isSome then
        refuse (.nameOfTable index)
      else if store.indexes.any (sameName index) then .ok none
      else
        let rule : UniqueRule := { name := index, terms := keyOf [column] }
        let shape := { table.shape with
                       uniques := table.shape.uniques ++ [rule]
                       indexes := table.shape.indexes ++ [rule.terms] }
        let changed := { store.putTable { table with shape } with
                         indexes := store.indexes ++ [index] }
        .ok (some ((checkUnique rule store table).map fun _ => changed))

/-- The steps by which all tables are made where they are missing. -/
def steps : List Step :=
  all.flatMap fun layout => [layout.makeTable, layout.makeIndex]

/-! ## Replacing rows -/

/-- When rows were saved, in seconds.  What the clock shows does not matter to any query. -/
def updated : Value := .integer 1750000000

/-- Runs a statement after it is checked. -/
def runChecked (statement : Statement) (store : Store) : Except DatabaseError Store := do
  DatabaseError.ofResult (store.check statement)
  DatabaseError.ofResult (store.after statement)

/-- Deletes all rows of the table. -/
def deleteRows (layout : Layout) (store : Store) : Except DatabaseError Store :=
  runChecked (Statement.deletion layout.name) store

/-- The statement that adds rows to the table. -/
def insertion (layout : Layout) (rows : List (List Value)) : Statement :=
  Statement.insertion layout.name layout.columns rows

/-- Adds rows to the table, unless their values are kept out. -/
def addRows (layout : Layout) (strays : Strays) (rows : List (List Value)) (store : Store) :
    Except DatabaseError Store := do
  DatabaseError.ofResult (store.check (layout.insertion rows))
  match obstacle? strays rows with
  | some error => throw error
  | none => DatabaseError.ofResult (store.after (layout.insertion rows))

/-- Adds the rows of a counter and its places. -/
def addCounter (strays : Strays) (store : Store) (entry : (String × Counter) × Nat) :
    Except DatabaseError Store := do
  let ((key, c), position) := entry
  let counted ← counters.addRows strays [updated :: (Tables.counterRow position key c).values] store
  (batches Tables.batchSize (Tables.usageRows key c)).foldlM
    (fun store rows => usages.addRows strays (rows.map UsageRow.values) store) counted

/-- Replaces all rows by those of a session. -/
def save (strays : Strays) (store : Store) (s : Session) : Except DatabaseError Store := do
  let emptied ← all.foldlM (fun store layout => layout.deleteRows store) store
  let begun ← totals.addRows strays [updated :: (Tables.totalsRow s).values] emptied
  s.counters.zipIdx.foldlM (addCounter strays) begun

/-! ## Queries -/

/-- A column as queries name it that have a name for the table. -/
def qualified (column : String) : String :=
  "t1." ++ column

/-- The rows of the table in all columns but some, in the order of a column. -/
def listRows (layout : Layout) (columns : List String) (order? : Option String) (store : Store) :
    Except DatabaseError (List (List Value)) := do
  let rows ← DatabaseError.ofResult (store.select layout.name id columns order?)
  DatabaseError.ofResult (rows.forM (checkShown columns))
  return rows

end Layout
end FeatureCensus
