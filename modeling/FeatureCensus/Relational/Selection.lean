import FeatureCensus.Relational.Change

/-!
# Selections

The rows of a table or view in some columns and in the order of one of them, the number of
rows with a value in a column, and a statement run by itself.  Where an index gives the rows
at less cost, they come in its order.

Main results:

- Theorem {lit}`Relational.checkShown_nil`: an empty row can be shown.
-/

namespace FeatureCensus
namespace Relational

/-- A row as queries see it. -/
abbrev NumberedRow := Option Int × List Value

/-- How a column is read from rows. -/
structure Reader where
  affinity? : Option Affinity
  collation : Collation
  /-- The place of the column; the number of a row has none. -/
  place? : Option Nat
  deriving DecidableEq, Repr, Inhabited

/-- The value of a row in a column. -/
def Reader.value (reader : Reader) (row : NumberedRow) : Value :=
  match reader.place? with
  | some i => (row.2[i]?).getD .null
  | none => (row.1.map Value.integer).getD .null

/-- How the column of a name is read; some names stand for the number of a row. -/
def Relation.reader? (relation : Relation) (name : String) : Option Reader :=
  match relation.columnIndex? name with
  | some i =>
    (relation.heading[i]?).map fun heading => ⟨heading.affinity?, heading.collation, some i⟩
  | none =>
    if relation.isNumbered && Relation.numberNames.contains (Parser.folded name) then
      some ⟨some .integer, .binary, none⟩
    else none

/-! ## Indexes -/

/-- A column of an index. -/
structure IndexColumn where
  place : Nat
  collation : Collation
  descending : Bool
  deriving DecidableEq, Repr, Inhabited

/-- Ten times the logarithm of a number to base two, as it is estimated. -/
def logarithm (n : Nat) : Nat :=
  if n < 2 then 0
  else
    let bits := Nat.log2 n
    let first := if 3 ≤ bits then n / twoPow (bits - 3) else n * twoPow (3 - bits)
    10 * bits + [0, 2, 3, 5, 6, 7, 8, 9].getD (first - 8) 0

/-- What follows the last of the places where a part stands in a list of characters. -/
def afterLast? (part : List Char) : List Char → Option (List Char)
  | [] => none
  | c :: rest =>
    afterLast? part rest <|>
      if part.isPrefixOf (c :: rest) then some ((c :: rest).drop part.length) else none

/-- The room of the values of a type of texts or bytes in units of four bytes: the length that
the type tells, or about twenty bytes. -/
def roomOfType (type : String) : Nat :=
  let told? := afterLast? "char".toList type.toList <|>
    (afterLast? "blob".toList type.toList).filter fun rest => rest.head? == some '('
  let length : Nat := match told? with
    | some rest =>
      Scan.digitsValue ((rest.dropWhile fun c => !c.isDigit).takeWhile Char.isDigit)
    | none => if type == "any" then 0 else 16
  min 255 ((if length < twoPow 31 then length else 0) / 4 + 1)

namespace Shape

/-- The columns of an index all of whose terms are columns. -/
def indexColumns? (shape : Shape) (terms : List KeyTerm) : Option (List IndexColumn) :=
  terms.mapM fun term => (UniqueRule.columnOf? shape term).map fun place =>
    ⟨place, UniqueRule.collationOf shape term, term.descending⟩

/-- The indexes whose terms are columns, the latest first. -/
def columnIndexes (shape : Shape) : List (List IndexColumn) :=
  shape.indexes.reverse.filterMap shape.indexColumns?

/-- How much room a column takes, in units of four bytes. -/
def columnRoom (shape : Shape) (place : Nat) : Nat :=
  match shape.columns[place]? with
  | none => 1
  | some column =>
    if column.typeName.isEmpty || (shape.affinityOf column).isNumeric then 1
    else roomOfType (Parser.folded column.typeName)

/-- How much room the rows of an index take. -/
def indexRoom (shape : Shape) (index : List IndexColumn) : Nat :=
  index.foldl (fun room column => room + shape.columnRoom column.place) 1

/-- How much room the rows of the table take. -/
def tableRoom (shape : Shape) : Nat :=
  (List.range shape.columns.length).foldl (fun room place => room + shape.columnRoom place)
    (if shape.rowNumber?.isSome then 0 else 1)

/-- The room of the rows of an index as a part of the room of the rows of the table. -/
def indexPart (shape : Shape) (index : List IndexColumn) : Nat :=
  15 * logarithm (4 * shape.indexRoom index) / logarithm (4 * shape.tableRoom)

/-- Whether an index has all of some columns. -/
def covers (shape : Shape) (index : List IndexColumn) (places : List Nat) : Bool :=
  places.all fun place =>
    shape.rowNumber? == some place || index.any fun column => column.place == place

/-- The one of some indexes that takes the least room, of several ones the first. -/
def leastIndex? (shape : Shape) (indexes : List (List IndexColumn)) : Option (List IndexColumn) :=
  indexes.foldl (fun best? index =>
    match best? with
    | none => some index
    | some best => if shape.indexPart index < shape.indexPart best then some index else some best)
    none

end Shape

/-- The order of two rows in an index; rows of the same key are in the order of their
numbers. -/
def indexOrder (index : List IndexColumn) (a b : NumberedRow) : Ordering :=
  let orders := index.map fun column =>
    let x := (a.2[column.place]?).getD .null
    let y := (b.2[column.place]?).getD .null
    if column.descending then Value.order column.collation y x
    else Value.order column.collation x y
  (orders.foldl Ordering.then .eq).then (compare (a.1.getD 0) (b.1.getD 0))

/-- Rows in the order of an index. -/
def inIndex (index : List IndexColumn) (rows : List NumberedRow) : List NumberedRow :=
  rows.mergeSort fun a b => indexOrder index a b != .gt

/-- Rows in the order of a column, where rows that are equal in it stay as they are. -/
def inColumn (reader : Reader) (rows : List NumberedRow) : List NumberedRow :=
  rows.mergeSort fun a b => Value.order reader.collation (reader.value a) (reader.value b) != .gt

namespace Shape

/-- The index by which the rows of the table are read in the order of a column. -/
def indexFor? (shape : Shape) (reader : Reader) (places : List Nat) : Option (List IndexColumn) :=
  let fitting := shape.columnIndexes.filter fun index =>
    match index with
    | first :: _ => some first.place == reader.place? && first.collation == reader.collation
    | [] => false
  let covering := fitting.filter fun index => shape.covers index places
  shape.leastIndex? (if covering.isEmpty then fitting else covering)

/-- The index that has some columns and takes less room than the table. -/
def indexOf? (shape : Shape) (places : List Nat) : Option (List IndexColumn) :=
  if shape.isKeyed then none
  else shape.leastIndex? (shape.columnIndexes.filter fun index =>
    shape.covers index places &&
      logarithm (4 * shape.indexRoom index) < logarithm (4 * shape.tableRoom))

/-- The rows of the table as a query for some columns finds them, in an order that may be
asked for. -/
def arrange (shape : Shape) (places : List Nat) (term? : Option Reader) (rows : List NumberedRow) :
    List NumberedRow :=
  match term? with
  | none =>
    match shape.indexOf? places with
    | some index => inIndex index rows
    | none => rows
  | some reader =>
    match shape.indexFor? reader (places ++ reader.place?.toList) with
    | some index =>
      let found := inIndex index rows
      if (index.head?.map (·.descending)).getD false then found.reverse else found
    | none =>
      let found := match shape.indexOf? (places ++ reader.place?.toList) with
        | some index => inIndex index rows
        | none => rows
      inColumn reader found

end Shape

/-! ## Queries -/

/-- A query whose rows are put in the order of a column.  An order of its own is no matter then,
unless it tells which rows are left; with a limit but without an order of its own, the rows are
put in order before some are left. -/
def Query.inOrderOf (query : Query) (place : Nat) : Query :=
  let terms := [OrderTerm.by (.literal (.integer (place + 1))) false]
  match query with
  | .sorted inner _ none _ => .sorted inner terms none none
  | .sorted (.select false columns sources conditions [] []) [] limit? offset? =>
    .sorted (.select false columns sources conditions [] []) terms limit? offset?
  | other => .sorted other terms none none

namespace Store

/-- How columns of a table or view are read; refusals name them as shown. -/
def readers (store : Store) (name : String) (shown : String → String) (columns : List String) :
    Result (List Reader) := do
  let outline ← store.outline name
  columns.mapM fun column =>
    match outline.reader? column with
    | some reader => .ok reader
    | none => refuse (.noSuchColumn (shown column))

/-- The rows of a view for a query, in an order that may be asked for. -/
def viewRows (store : Store) (view : View) (term? : Option Reader) :
    Result (List NumberedRow) := do
  let query := match term?.bind Reader.place? with
    | some place => view.query.inOrderOf place
    | none => view.query
  let (_, answers) ← runQuery depthLimit { store } query
  return answers.map fun answer => (none, answer.values)

/-- The values of the rows of a table or view in some columns, in the order of another one. -/
def select (store : Store) (name : String) (shown : String → String) (columns : List String)
    (order? : Option String) : Result (List (List Value)) := do
  let found ← store.readers name shown columns
  let term? := (← store.readers name shown order?.toList).head?
  let arranged ← match store.table? name, store.view? name with
    | none, some view => store.viewRows view term?
    | some table, _ => do
      let relation ← store.relation name
      pure (table.shape.arrange (found.filterMap Reader.place?) term? relation.rows)
    | none, none => refuse (.noSuchTable name)
  return arranged.map fun row => found.map fun (reader : Reader) => reader.value row

/-- Whether a value in a column is equal to another value, where nothing is equal to
nothing. -/
def holds (reader : Reader) (value : Value) (row : NumberedRow) : Bool :=
  if value == .null then reader.value row == .null
  else
    Comparison.equal.value reader.collation ⟨reader.value row, reader.affinity?⟩ ⟨value, none⟩ ==
      .ofBool true

/-- The number of rows of a table or view that have a value in a column. -/
def count (store : Store) (name : String) (shown : String → String) (column : String)
    (value : Value) : Result Nat := do
  let found ← store.readers name shown [column]
  let rows := (← store.relation name).rows
  return rows.countP fun row => found.all fun reader => holds reader value row

/-- The store after a statement, which has been checked. -/
def after (store : Store) (statement : Statement) : Result Store :=
  match statement.run.run store with
  | .ok _ changed | .error .skipped changed => .ok changed
  | .error (.refused refusal) _ => refuse refusal

end Store

/-- Refuses to show a row with a text whose bytes stand for no characters. -/
def checkShown : List String → List Value → Result Unit
  | column :: columns, value :: values =>
    match value with
    | .brokenText bytes => refuse (.undecodable column bytes)
    | _ => checkShown columns values
  | _, _ => .ok ()

/-- An empty row can be shown. -/
theorem checkShown_nil (columns : List String) : checkShown columns [] = .ok () := by
  cases columns <;> rfl

end Relational
end FeatureCensus
