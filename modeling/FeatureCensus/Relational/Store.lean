import FeatureCensus.Relational.Definition

/-!
# Stores

A store holds tables with their rows, views and triggers.  What is asked of it may be
refused, for a cause that is told.

Main results:

- Theorem {lit}`Relational.Store.table?_putTable`: a table that is put into a store is found.
-/

namespace FeatureCensus
namespace Relational

/-! ## Refusals -/

/-- Why something is refused. -/
inductive Refusal where
  | noSuchTable (name : String)
  | noSuchColumn (name : String)
  | ambiguousColumn (name : String)
  | noSuchFunction (name : String)
  | noSuchCollation (name : String)
  | wrongArguments (function : String)
  /-- A function of many rows where there is just one. -/
  | misusedAggregate (function : String)
  /-- A function of many rows in a condition on the rows that it is about. -/
  | strayAggregate (function : String)
  /-- A function of many rows in what tells the groups. -/
  | groupedAggregate
  | looseDistinct
  /-- A number that stands for no column of a result. -/
  | termOutOfRange (clause : String) (place columns : Nat)
  | unmatchedTerm (place : Nat)
  | looseHaving
  | noSources
  | wrongSelectWidth (columns : Nat)
  | unevenSelects (operation : String)
  /-- A statement names a column that its table does not have. -/
  | noColumnNamed (table column : String)
  | wrongValueCount (table : String) (columns values : Nat)
  /-- A statement that names columns has another number of values. -/
  | wrongWidth (columns values : Nat)
  | wrongViewWidth (view : String) (columns found : Nat)
  | viewUnchangeable (name : String)
  | viewUnindexable
  | generatedInsertion (column : String)
  | generatedChange (column : String)
  /-- Something else has the name already. -/
  | nameOfTable (name : String)
  | nameOfIndex (name : String)
  /-- A key is there already. -/
  | duplicateKey (columns : List (String × String))
  | duplicateEntry (index : String)
  | missingValue (table column : String)
  | checkFailed (label : String)
  | mismatch
  /-- An integer would have more than 64 bits. -/
  | tooGreat
  | wrongSort (value type table column : String)
  /-- A trigger refuses a row. -/
  | raised (message : String)
  /-- The pages of a table are damaged. -/
  | damaged
  /-- A text is no text. -/
  | undecodable (column : String) (bytes : Text.Bytes)
  /-- Queries or triggers are too deep, or cannot be read. -/
  | tooComplex
  deriving DecidableEq, Repr, Inhabited

/-- The number of bytes that are shown of a text that is no text. -/
def shownBytes : Nat := 198

/-- The text of a place in a list. -/
def ordinal (n : Nat) : String :=
  let ending := if 10 < n % 100 && n % 100 < 14 then "th"
    else match n % 10 with
      | 1 => "st"
      | 2 => "nd"
      | 3 => "rd"
      | _ => "th"
  toString n ++ ending

/-- The text of a refusal. -/
def Refusal.message : Refusal → String
  | noSuchTable name => "no such table: " ++ name
  | noSuchColumn name => "no such column: " ++ name
  | ambiguousColumn name => "ambiguous column name: " ++ name
  | noSuchFunction name => "no such function: " ++ name
  | noSuchCollation name => "no such collation sequence: " ++ name
  | wrongArguments function => "wrong number of arguments to function " ++ function ++ "()"
  | misusedAggregate function => "misuse of aggregate function " ++ function ++ "()"
  | strayAggregate function => "misuse of aggregate: " ++ function ++ "()"
  | groupedAggregate => "aggregate functions are not allowed in the GROUP BY clause"
  | looseDistinct => "DISTINCT aggregates must have exactly one argument"
  | termOutOfRange clause place columns =>
    ordinal place ++ " " ++ clause ++ " BY term out of range - should be between 1 and " ++
      toString columns
  | unmatchedTerm place =>
    ordinal place ++ " ORDER BY term does not match any column in the result set"
  | looseHaving => "HAVING clause on a non-aggregate query"
  | noSources => "no tables specified"
  | wrongSelectWidth columns =>
    "sub-select returns " ++ toString columns ++ " columns - expected 1"
  | unevenSelects operation =>
    "SELECTs to the left and right of " ++ operation ++
      " do not have the same number of result columns"
  | noColumnNamed table column => "table " ++ table ++ " has no column named " ++ column
  | wrongValueCount table columns values =>
    "table " ++ table ++ " has " ++ toString columns ++ " columns but " ++ toString values ++
      " values were supplied"
  | wrongWidth columns values => toString values ++ " values for " ++ toString columns ++ " columns"
  | wrongViewWidth view columns found =>
    "expected " ++ toString columns ++ " columns for '" ++ view ++ "' but got " ++ toString found
  | viewUnchangeable name => "cannot modify " ++ name ++ " because it is a view"
  | viewUnindexable => "views may not be indexed"
  | generatedInsertion column => "cannot INSERT into generated column \"" ++ column ++ "\""
  | generatedChange column => "cannot UPDATE generated column \"" ++ column ++ "\""
  | nameOfTable name => "there is already a table named " ++ name
  | nameOfIndex name => "there is already an index named " ++ name
  | duplicateKey columns =>
    "UNIQUE constraint failed: " ++
      ", ".intercalate (columns.map fun (table, column) => table ++ "." ++ column)
  | duplicateEntry index => "UNIQUE constraint failed: index '" ++ index ++ "'"
  | missingValue table column => "NOT NULL constraint failed: " ++ table ++ "." ++ column
  | checkFailed label => "CHECK constraint failed: " ++ label
  | mismatch => "datatype mismatch"
  | tooGreat => "integer overflow"
  | wrongSort value type table column =>
    "cannot store " ++ value ++ " value in " ++ type ++ " column " ++ table ++ "." ++ column
  | raised message => message
  | damaged => "database disk image is malformed"
  | undecodable column bytes =>
    let whole := Text.encode ("Could not decode to UTF-8 column '" ++ column ++ "' with text '") ++
      bytes.takeWhile (· != 0) ++ Text.encode "'"
    String.ofList ((whole.take shownBytes).map fun b =>
      if b < 128 then Char.ofNat b.toNat else '\ufffd')
  | tooComplex => "parser stack overflow"

/-- Whether a row breaks a rule of its table. -/
def Refusal.isBrokenRule : Refusal → Bool
  | duplicateKey _ | duplicateEntry _ | missingValue _ _ | checkFailed _ | mismatch
  | wrongSort _ _ _ _ | raised _ => true
  | _ => false

/-- Whether what follows is looked at all the same, and is refused instead if it is wrong. -/
def Refusal.isMild : Refusal → Bool
  | noSuchFunction _ | wrongArguments _ | misusedAggregate _ | looseDistinct
  | wrongSelectWidth _ => true
  | _ => false

/-- Why the work on a row ends early. -/
inductive Stop where
  /-- Nothing more is done for the row. -/
  | skipped
  | refused (refusal : Refusal)
  deriving DecidableEq, Repr, Inhabited

/-- Something that may be refused. -/
abbrev Result (α : Type) := Except Stop α

/-- Refuses. -/
def refuse {α : Type} (refusal : Refusal) : Result α :=
  .error (.refused refusal)

/-- The result of one check after the other; after a mild refusal the others are made too. -/
def allChecks : List (Result Unit) → Result Unit
  | [] => .ok ()
  | .ok () :: rest => allChecks rest
  | .error (.refused refusal) :: rest =>
    match refusal.isMild, allChecks rest with
    | true, .error stop => .error stop
    | _, _ => .error (.refused refusal)
  | .error .skipped :: _ => .error .skipped

/-! ## Stores -/

/-- A row with its number and its values. -/
structure Row where
  number : Int
  values : List Value
  deriving DecidableEq, Repr, Inhabited

/-- A table with its rows in order, unless its pages are damaged. -/
structure Table where
  shape : Shape
  rows : Result (Array Row)
  deriving Inhabited

/-- The tables, views, indexes and triggers of a database. -/
structure Store where
  tables : List Table := []
  views : List View := []
  /-- The names of all indexes. -/
  indexes : List String := []
  triggers : List Trigger := []
  deriving Inhabited

namespace Store

/-- Whether there is nothing in the store. -/
def isEmpty (store : Store) : Bool :=
  store.tables.isEmpty && store.views.isEmpty

/-- The table of a name. -/
def table? (store : Store) (name : String) : Option Table :=
  store.tables.find? fun table => sameName table.shape.name name

/-- The view of a name. -/
def view? (store : Store) (name : String) : Option View :=
  store.views.find? fun view => sameName view.name name

/-- The store with another table in the place of that of its name, or with one more. -/
def putTable (store : Store) (table : Table) : Store :=
  if store.tables.any fun old => sameName old.shape.name table.shape.name then
    { store with
      tables := store.tables.map fun old =>
        if sameName old.shape.name table.shape.name then table else old }
  else { store with tables := store.tables ++ [table] }

theorem find?_map_replace {tables : List Table} {table : Table}
    (h : (tables.any fun old => sameName old.shape.name table.shape.name) = true) :
    ((tables.map fun old =>
      if sameName old.shape.name table.shape.name then table else old).find?
        fun found => sameName found.shape.name table.shape.name) = some table := by
  induction tables with
  | nil => simp at h
  | cons old rest ih =>
    by_cases hold : sameName old.shape.name table.shape.name = true
    · simp [hold, sameName_refl]
    · simp only [List.any_cons, hold, Bool.false_or] at h
      simp [hold, ih h]

/-- A table that is put into a store is found. -/
theorem table?_putTable (store : Store) (table : Table) :
    (store.putTable table).table? table.shape.name = some table := by
  unfold putTable table?
  split
  · rename_i h
    exact find?_map_replace h
  · rename_i h
    simp only [List.any_eq_true, not_exists, not_and, Bool.not_eq_true] at h
    rw [List.find?_append, List.find?_eq_none.2 (by simpa using h)]
    simp [sameName_refl]

end Store
end Relational
end FeatureCensus
