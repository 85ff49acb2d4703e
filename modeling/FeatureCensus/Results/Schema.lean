import FeatureCensus.Results.Database
import FeatureCensus.Results.Image

/-!
# Schemas

The schema of an image is itself a table: it tells for each table, index, view and trigger
its name, its page and the statement that made it.  From these the store of an image is
built.

Main definitions:

- Definition {lit}`Schema.entries`: the entries of the schema of an image.
- Definition {lit}`Schema.database`: the database of an image.
-/

namespace FeatureCensus
namespace Schema

open Relational

/-! ## Entries -/

/-- A row of the schema. -/
structure Entry where
  name : Value
  page : Value
  statement : Value
  deriving DecidableEq, Repr, Inhabited

/-- The value of a field. -/
def cell (values : List Value) (i : Nat) : Value :=
  (values[i]?).getD .null

/-- The entry in the values of a row. -/
def entryOf (values : List Value) : Entry :=
  ⟨cell values 1, cell values 3, cell values 4⟩

namespace Entry

/-- The name of an entry in messages. -/
def shownName (entry : Entry) : String :=
  if entry.name == .null then "?" else entry.name.toText

/-- The number of the page of an entry, which has at most 32 bits. -/
def page? (entry : Entry) : Option Nat :=
  let digits := entry.page.toText.toList
  let n := Scan.digitsValue digits
  if !digits.isEmpty && digits.all Char.isDigit && n < twoPow 32 then some n else none

/-- Whether an entry has a statement that makes something. -/
def makes (entry : Entry) : Bool :=
  (Parser.folded entry.statement.toText).startsWith "cr"

/-- Refuses an entry that is none, or whose page is not there. -/
def check (image : Image) (entry : Entry) : Except DatabaseError Unit :=
  let least := if entry.makes then 0 else 2
  if entry.page == .null then .error (.malformedEntry entry.shownName)
  else if !entry.makes && (entry.name == .null || !entry.statement.toText.isEmpty) then
    .error (.malformedEntry entry.shownName)
  else match entry.page? with
    | none => .error (.lostPage entry.shownName)
    | some page =>
      if image.pageCount < page || page < least then .error (.lostPage entry.shownName) else .ok ()

end Entry

/-- The entries of an image. -/
def entries (image : Image) : Except DatabaseError (List Entry) := do
  let rows ← image.rowsAt .table 1
  let all := rows.map fun (_, values) => entryOf values
  all.forM (Entry.check image)
  return all

/-! ## Rows -/

/-- The places of the columns in the order in which records hold them: a table that is kept by
its primary key begins with that, and computed values need not be kept. -/
def storedPlaces (shape : Shape) : List Nat :=
  let kept := shape.columns.zipIdx.filterMap fun (column, i) =>
    if column.generated?.isSome && !column.isStored then none else some i
  if shape.isKeyed then
    let key := shape.primaryKey.eraseDups
    key ++ kept.filter fun i => !key.contains i
  else kept

/-- The value of a column in a record.  A record may be older than a column. -/
def storedValue (shape : Shape) (values : List Value) (column : Column) (place? : Option Nat) :
    Result Value :=
  match place? with
  | none => .ok .null
  | some place =>
    match values[place]? with
    | some value =>
      .ok (if shape.affinityOf column == .real then Affinity.realOf value else value)
    | none => do return (shape.affinityOf column).convert (← column.absentValue {})

/-- The row of a record. -/
def rowOf (shape : Shape) (number : Int) (values : List Value) : Result Row := do
  let places := storedPlaces shape
  let found ← shape.columns.zipIdx.mapM fun (column, i) =>
    storedValue shape values column (places.idxOf? i)
  let numbered := match shape.rowNumber? with
    | some place => found.set place (.integer number)
    | none => found
  return ⟨number, ← shape.withGenerated {} ⟨number, numbered⟩⟩

/-- The rows of a table whose tree is at a page. -/
def rowsOf (image : Image) (shape : Shape) (page : Nat) : Result (Array Row) := do
  let cells ← match image.rowsAt (if shape.isKeyed then .index else .table) page with
    | .ok cells => .ok cells
    | .error _ => refuse .damaged
  let rows ← cells.zipIdx.mapM fun ((number, values), i) =>
    rowOf shape (if shape.isKeyed then i else number) values
  return rows.toArray

/-! ## Stores -/

/-- The store with an index on a table, which may be about all rows and may be unique. -/
def addIndex (store : Store) (table : String) (isUnique : Bool) (rule : UniqueRule) : Store :=
  let named := { store with indexes := store.indexes ++ [rule.name] }
  match store.table? table with
  | none => named
  | some found =>
    let shape := found.shape
    named.putTable
      { found with
        shape :=
          { shape with
            uniques := if isUnique then shape.uniques ++ [rule] else shape.uniques
            indexes := if rule.conditions.isEmpty then shape.indexes ++ [rule.terms]
              else shape.indexes } }

/-- The store with what an entry defines, if its statement can be read. -/
def addEntry (image : Image) (store : Store) (entry : Entry) : Store :=
  match Definition.read? entry.statement.toText with
  | some (.table shape) =>
    store.putTable ⟨shape, rowsOf image shape (entry.page?.getD 0)⟩
  | some (.index table isUnique rule) => addIndex store table isUnique rule
  | some (.view view) => { store with views := store.views ++ [view] }
  | some (.trigger trigger) => { store with triggers := store.triggers ++ [trigger] }
  | none => store

/-- The store of entries. -/
def storeOf (image : Image) (all : List Entry) : Store :=
  all.foldl (addEntry image) {}

/-- The database of an image. -/
def database (image : Image) : Except DatabaseError Database := do
  return .foreign (storeOf image (← entries image))

end Schema
end FeatureCensus
