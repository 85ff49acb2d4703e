import FeatureCensus.Association
import FeatureCensus.Results.Layout
import FeatureCensus.Text.Integer

/-!
# The results database

A database of three tables: the totals of a census, its counters and the tracked places
of their occurrences.  Saving a session replaces the results of any earlier one, all of
them or none.  A database made elsewhere may hold anything: tables of the same names with
other columns and rules, views, triggers, and values of all sorts.

Main results:

- Theorem {lit}`Database.dump_save`: in a database of our own just the saved session is found.
- Theorem {lit}`Database.featureCounts_save`: the saved counters are read back in catalog
  order.
-/

namespace FeatureCensus

open Relational Text

/-- A database. -/
inductive Database where
  /-- A database with the tables of results as they are made here. -/
  | own (tables : Tables)
  /-- Any other database. -/
  | foreign (store : Store)
  deriving Inhabited

/-- The values of all rows of all tables. -/
structure Listing where
  totals : List (List Value)
  counters : List (List Value)
  usages : List (List Value)
  deriving DecidableEq, Repr, Inhabited

/-- The values of all rows. -/
def Tables.listing (t : Tables) : Listing where
  totals := t.totals.map TotalsRow.values
  counters := t.counters.map CounterRow.values
  usages := t.usages.map UsageRow.values

namespace Tables

/-! ## Refusals -/

/-- Why a place without a project is kept out. -/
def noProject : DatabaseError :=
  .relational (.missingValue "feature_usage" "project")

/-- What keeps rows of places out of the database: one of their values, or else a missing
project. -/
def batchRefusals (strays : Strays) (rows : List UsageRow) : List DatabaseError :=
  match obstacle? strays (rows.map UsageRow.values) with
  | some error => [error]
  | none => if rows.any fun row => row.project?.isNone then [noProject] else []

/-- What keeps a counter and its places out of the database, in the order of its rows. -/
def counterRefusals (strays : Strays) (entry : (String × Counter) × Nat) : List DatabaseError :=
  let ((key, c), position) := entry
  (obstacle? strays [(counterRow position key c).values]).toList ++
    (batches batchSize (usageRows key c)).flatMap (batchRefusals strays)

/-- What keeps a session out of the database, in the order of its rows. -/
def refusals (strays : Strays) (s : Session) : List DatabaseError :=
  (obstacle? strays [(totalsRow s).values]).toList ++
    s.counters.zipIdx.flatMap (counterRefusals strays)

end Tables

namespace Database

/-! ## Changes -/

/-- A step that changes nothing, or gives a database after it unless that fails later on. -/
abbrev Step := Database → Except DatabaseError (Option (Except DatabaseError Database))

/-- What holds nothing becomes a database of our own. -/
def adopt : Step
  | own _ => .ok none
  | foreign store => .ok (if store.isEmpty then some (.ok (own {})) else none)

/-- A step of making tables that are missing. -/
def ofStep (step : Layout.Step) : Step
  | own _ => .ok none
  | foreign store => do
    return (← DatabaseError.ofResult (step store)).map fun changed =>
      (DatabaseError.ofResult changed).map foreign

/-- The steps by which all tables are made where they are missing. -/
def steps : List Step :=
  adopt :: Layout.steps.map ofStep

/-- The database after all steps. -/
def prepare (db : Database) : Except DatabaseError Database :=
  steps.foldlM (fun db step => do
    match ← step db with
    | none => return db
    | some changed => changed) db

/-- Refuses to save anything where that cannot even begin. -/
def checkSaving : Database → Except DatabaseError Unit
  | own _ => .ok ()
  | foreign store => DatabaseError.ofResult (store.check (Statement.deletion Layout.counters.name))

/-- Replaces all results by those of a session, unless something keeps it out. -/
def save (db : Database) (strays : Strays) (s : Session) : Except DatabaseError Database :=
  match db with
  | own _ =>
    match Tables.refusals strays s with
    | error :: _ => .error error
    | [] => .ok (own (Tables.ofSession s))
  | foreign store => (Layout.save strays store s).map foreign

/-! ## Queries -/

/-- The key in a value. -/
def keyOf? : Value → Except DatabaseError (Option String)
  | .null => .ok none
  | .real x => .ok (some x.display)
  | .blob bytes =>
    match decodeStrict bytes with
    | .ok cs => .ok (some (String.ofList cs))
    | .error error => .error (.undecodableKey error)
  | value => .ok (some value.toText)

/-- The number in a value; what is no number stays as it is. -/
def countOf : Value → Except DatabaseError Value
  | .real x =>
    match x.wholePart? with
    | some n => .ok (.integer n)
    | none => .error .infiniteCount
  | .text s => .ok (((parseInteger s).toOption.map Value.integer).getD (.text s))
  | .blob bytes =>
    let read? := if bytes.all (· < 128) then (parseInteger (decodeLenient bytes)).toOption else none
    .ok ((read?.map Value.integer).getD (.blob bytes))
  | value => .ok value

/-- The numbers of occurrences by key, in report order.  Of rows with the same key the last
one counts. -/
def featureCounts : Database → Except DatabaseError (List (Option String × Value))
  | own t => .ok (t.counters.map fun row => (some row.key, .integer row.occurrences))
  | foreign store => do
    let columns := ["feature_key", "occurrence_count"]
    let rows ← DatabaseError.ofResult
      (store.select Layout.counters.name Layout.qualified columns (some "position"))
    rows.foldlM (fun counts row => do
      DatabaseError.ofResult (checkShown columns row)
      let key ← keyOf? ((row[0]?).getD .null)
      return Association.put key (← countOf ((row[1]?).getD .null)) counts) []

/-- The number of stored places of a feature; without one, of places that have no key. -/
def usageCount (db : Database) (key? : Option String) : Except DatabaseError Nat :=
  match db with
  | own t => .ok (t.usages.countP fun row => some row.key == key?)
  | foreign store =>
    DatabaseError.ofResult
      (store.count Layout.usages.name Layout.qualified "feature_key" (textValue key?))

/-- All rows of all tables. -/
def dump : Database → Except DatabaseError Listing
  | own t => .ok t.listing
  | foreign store => do
    let totals ← Layout.totals.listRows (Layout.totals.columns.drop 1) none store
    let counters ←
      Layout.counters.listRows (Layout.counters.columns.drop 1) (some "position") store
    let usages ← Layout.usages.listRows Layout.usages.columns (some "rowid") store
    return { totals, counters, usages }

/-- What is saved to a database of our own is the rows of the session. -/
theorem own_of_save {t : Tables} {strays : Strays} {s : Session} {saved : Database}
    (h : (own t).save strays s = .ok saved) : saved = own (Tables.ofSession s) := by
  simp only [save] at h
  split at h
  · cases h
  · exact (Except.ok.inj h).symm

/-- In a database of our own just the saved session is found. -/
theorem dump_save {t : Tables} {strays : Strays} {s : Session} {saved : Database}
    (h : (own t).save strays s = .ok saved) : saved.dump = .ok (Tables.ofSession s).listing := by
  rw [own_of_save h, dump]

theorem map_zipIdx_counters (counters : List (String × Counter)) (start : Nat) :
    ((counters.zipIdx start).map fun ((key, c), position) =>
        Tables.counterRow position key c).map
          (fun row => (some row.key, Value.integer row.occurrences)) =
      counters.map fun (key, c) => (some key, .integer c.count) := by
  induction counters generalizing start with
  | nil => rfl
  | cons entry rest ih =>
    simp only [List.zipIdx_cons, List.map_cons, ih]
    rfl

/-- The saved counters are read back in catalog order. -/
theorem featureCounts_save {t : Tables} {strays : Strays} {s : Session} {saved : Database}
    (h : (own t).save strays s = .ok saved) :
    saved.featureCounts = .ok (s.counters.map fun (key, c) => (some key, .integer c.count)) := by
  rw [own_of_save h, featureCounts, Tables.ofSession]
  exact congrArg Except.ok (map_zipIdx_counters s.counters 0)

end Database
end FeatureCensus
