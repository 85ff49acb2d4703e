import FeatureCensus.Relational.Check

/-!
# Changes

Adding, changing and deleting rows.  A row has to keep the rules of its table; where it does
not, the statement fails, or the row is left out, or it takes the place of others.  Triggers
act before and after each row, or instead of a change of a view.  What was done before a
failure stays in the store, which its owner may throw away.

Main definitions:

- Definition {lit}`Relational.addRow`: adds a row to a table.
- Definition {lit}`Relational.Statement.run`: carries out a statement.
-/

namespace FeatureCensus
namespace Relational

/-- A change of a store. -/
abbrev Change (α : Type) := EStateM Stop Store α

namespace Change

/-- A result that does not change the store. -/
def lift {α : Type} (result : Result α) : Change α :=
  match result with
  | .ok a => pure a
  | .error stop => throw stop

/-- Goes on where the work on a row is skipped. -/
def unlessSkipped (action : Change Unit) : Change Unit :=
  tryCatch action fun stop =>
    match stop with
    | .skipped => pure ()
    | refused => throw refused

end Change

open Change

/-! ## Rows of tables -/

/-- The numbers of rows. -/
def numbersOf (rows : Array Row) : List Int :=
  rows.toList.map (·.number)

/-- Puts a row in front of the first one that is to come after it. -/
def insertRow (isBefore : Row → Row → Bool) (row : Row) (rows : Array Row) : Array Row :=
  match rows.back? with
  | some last =>
    if isBefore row last then
      (rows.toList.takeWhile (fun other => !isBefore row other) ++
        row :: rows.toList.dropWhile (fun other => !isBefore row other)).toArray
    else rows.push row
  | none => rows.push row

namespace Shape

/-- Whether a row comes before another one: by its number, or by its primary key. -/
def isBefore (shape : Shape) (a b : Row) : Bool :=
  if shape.isKeyed then
    let orders := shape.primaryKey.map fun i =>
      Value.order ((shape.columns[i]?.map (·.collation)).getD .binary)
        ((a.values[i]?).getD .null) ((b.values[i]?).getD .null)
    orders.foldl Ordering.then .eq == .lt
  else a.number < b.number

/-- The fields of a row under the name by which triggers know it. -/
def triggerFrame (shape : Shape) (name : String) (row : Row) : Frame :=
  qualifiedFrame (shape.frame name row.number row.values)

/-- The values of a row with those of generated columns, which may refer to each other. -/
def withGenerated (shape : Shape) (store : Store) (row : Row) : Result (List Value) :=
  let places := (List.range shape.columns.length).filter fun i =>
    ((shape.columns[i]?).bind (·.generated?)).isSome
  let pass := fun (values : List Value) =>
    places.foldlM (fun (values : List Value) (i : Nat) =>
      match shape.columns[i]? with
      | some column =>
        match column.generated? with
        | some e => do
          let scope : Scope := { store, frames := [shape.frame shape.name row.number values] }
          return values.set i ((shape.affinityOf column).convert (← evaluate scope e))
        | none => return values
      | none => return values) values
  places.foldlM (fun values _ => pass values) row.values

/-- A row whose values are converted as the columns prefer it, with its number in the column
for numbers. -/
def settle (shape : Shape) (store : Store) (row : Row) : Result Row := do
  let converted := (shape.columns.zip row.values).map fun (column, value) =>
    (shape.affinityOf column).convert value
  let numbered := match shape.rowNumber? with
    | some place => converted.set place (.integer row.number)
    | none => converted
  return { row with values := ← shape.withGenerated store { row with values := numbered } }

/-- The number of a new row. -/
def nextNumber (rows : Array Row) : Int :=
  match numbersOf rows with
  | [] => 1
  | first :: rest => rest.foldl max first + 1

end Shape

/-! ## Rules -/

/-- The value of a column that is not given. -/
def Column.absentValue (column : Column) (store : Store) : Result Value :=
  match column.default? with
  | some e => evaluate { store } e
  | none => .ok .null

/-- What the types of tables with strict types are called. -/
def strictTypes : List (String × List String) :=
  [("int", ["integer"]), ("integer", ["integer"]), ("real", ["real"]), ("text", ["text"]),
    ("blob", ["blob"])]

/-- The name of the sort of a value in messages. -/
def messageSort : Value → String
  | .null => "NULL"
  | .integer _ => "INT"
  | .real _ => "REAL"
  | .text _ | .brokenText _ => "TEXT"
  | .blob _ => "BLOB"

/-- Refuses a value of a wrong sort. -/
def checkSort (shape : Shape) (column : Column) (value : Value) : Result Unit :=
  let type := Parser.folded column.typeName
  match strictTypes.lookup type with
  | none => .ok ()
  | some sorts =>
    if value == .null || sorts.contains (sortName value) then .ok ()
    else refuse (.wrongSort (messageSort value) (type.map Char.toUpper) shape.name column.name)

/-- Refuses values of wrong sorts in a table with strict types. -/
def checkSorts (shape : Shape) (row : Row) : Result Unit :=
  if shape.isStrict then
    (shape.columns.zip row.values).forM fun (column, value) => checkSort shape column value
  else .ok ()

/-- What happens where a rule is broken: the row is left out, or it is refused. -/
def react {α : Type} (reaction : Reaction) (refusal : Refusal) : Result α :=
  match reaction with
  | .ignore => .error .skipped
  | _ => refuse refusal

/-- The row with defaults for values that are missing and have to be there, if that is how
the table reacts. -/
def fillRequired (shape : Shape) (store : Store) (told? : Option Reaction) (row : Row) :
    Result Row := do
  let filled ← (shape.columns.zip row.values).zipIdx.mapM fun ((column, value), i) =>
    match column.required? with
    | none => return value
    | some own =>
      if value != .null || shape.rowNumber? == some i then return value
      else
        let refusal := Refusal.missingValue shape.name column.name
        match told?.getD own, column.default? with
        | .replace, some e => do
          let value := (shape.affinityOf column).convert (← evaluate { store } e)
          if value == .null then refuse refusal else return value
        | reaction, _ => react reaction refusal
  return { row with values := filled }

/-- Refuses a row that breaks a check. -/
def runChecks (shape : Shape) (store : Store) (told? : Option Reaction) (row : Row) :
    Result Unit := do
  let scope : Scope := { store, frames := [shape.frame shape.name row.number row.values] }
  shape.checks.forM fun rule => do
    if (← evaluate scope rule.condition).truth? == some false then
      react (told?.getD .abort) (.checkFailed rule.label)

namespace UniqueRule

/-- The column that a term of a key is. -/
def columnOf? (shape : Shape) (term : KeyTerm) : Option Nat :=
  match term.expression with
  | .column _ name _ => shape.columnIndex? name
  | _ => none

/-- The collation of a term of a key: as it is told, or that of the column. -/
def collationOf (shape : Shape) (term : KeyTerm) : Collation :=
  (term.collation?.bind fun name => Collation.ofName? (Parser.folded name)).getD
    ((((columnOf? shape term).bind (shape.columns[·]?)).map (·.collation)).getD .binary)

/-- The key of a row, with the collations of its terms, if the rule is about the row. -/
def key? (rule : UniqueRule) (shape : Shape) (store : Store) (row : Row) :
    Result (Option (List (Collation × Value))) := do
  let scope : Scope := { store, frames := [shape.frame shape.name row.number row.values] }
  let applies ← if rule.conditions.isEmpty then pure true else holdAll scope rule.conditions
  if !applies then return none
  else
    let key ← rule.terms.mapM fun term => do
      let value ← match columnOf? shape term with
        | some i => pure ((row.values[i]?).getD .null)
        | none => evaluate scope term.expression
      return (collationOf shape term, value)
    return some key

/-- Whether two keys are the same.  A key in which something is missing is no key. -/
def sameKey (a b : List (Collation × Value)) : Bool :=
  (a.zip b).all fun ((collation, x), (_, y)) =>
    x != .null && y != .null && Value.order collation x y == .eq

/-- Why a second row of a key is refused. -/
def refusal (rule : UniqueRule) (shape : Shape) : Refusal :=
  match rule.terms.mapM fun term => (columnOf? shape term).bind (shape.columns[·]?) with
  | some columns => .duplicateKey (columns.map fun column => (shape.name, column.name))
  | none => .duplicateEntry rule.name

/-- The columns of a rule about all rows whose terms are columns. -/
def plainColumns? (rule : UniqueRule) (shape : Shape) : Option (List (Nat × Collation)) :=
  if rule.conditions.isEmpty then
    rule.terms.mapM fun term => (columnOf? shape term).map fun i => (i, collationOf shape term)
  else none

/-- The other rows that have the same values in some columns, none of which is missing. -/
def plainRivals (columns : List (Nat × Collation)) (rows : Array Row) (row : Row)
    (self? : Option Int) : List Row :=
  rows.toList.filter fun other =>
    some other.number != self? && columns.all fun (i, collation) =>
      match row.values[i]?, other.values[i]? with
      | some a, some b => a != .null && Value.same collation a b
      | _, _ => false

/-- The other rows of the key of a row. -/
def rivals (rule : UniqueRule) (shape : Shape) (store : Store) (rows : Array Row) (row : Row)
    (self? : Option Int) : Result (List Row) := do
  if let some columns := rule.plainColumns? shape then
    return plainRivals columns rows row self?
  match ← rule.key? shape store row with
  | none => return []
  | some key =>
    if key.any fun (_, value) => value == .null then return []
    else rows.toList.filterM fun other => do
      if some other.number == self? then return false
      else match ← rule.key? shape store other with
        | none => return false
        | some otherKey => return sameKey key otherKey

end UniqueRule

/-- The rules of unique keys in the order in which they are looked at: the latest first, and
those last that make a row take the place of others. -/
def Shape.uniquesInOrder (shape : Shape) : List UniqueRule :=
  let latest := shape.uniques.reverse
  latest.filter (·.reaction != .replace) ++ latest.filter (·.reaction == .replace)

/-- The rows that are left where a row takes the place of its rivals, or reacts otherwise. -/
def withoutRivals (rows : Array Row) (rivals : List Row) (reaction : Reaction)
    (refusal : Refusal) : Result (Array Row) :=
  if rivals.isEmpty then .ok rows
  else match reaction with
    | .replace => .ok (rows.filter fun row => !rivals.any fun rival => rival.number == row.number)
    | reaction => react reaction refusal

/-- The rows among which a row may be put that keeps all rules; it may take the place of
others. -/
def makeRoom (shape : Shape) (store : Store) (told? : Option Reaction) (rows : Array Row)
    (row : Row) (self? : Option Int) : Result (Array Row) := do
  let sortsFirst := !shape.checks.isEmpty
  if sortsFirst then checkSorts shape row
  runChecks shape store told? row
  let sameNumber := rows.toList.filter fun other =>
    other.number == row.number && some other.number != self?
  let numberName := ((shape.rowNumber?.bind (shape.columns[·]?)).map (·.name)).getD "rowid"
  let rows ← withoutRivals rows sameNumber (told?.getD shape.rowNumberReaction)
    (.duplicateKey [(shape.name, numberName)])
  if !sortsFirst then checkSorts shape row
  shape.uniquesInOrder.foldlM (fun rows rule => do
    let rivals ← rule.rivals shape store rows row self?
    withoutRivals rows rivals (told?.getD rule.reaction) (rule.refusal shape)) rows

/-! ## Statements -/

/-- The integer that is given as the number of a row; nothing asks for a new one. -/
def givenNumber (value : Value) : Result (Option Int) :=
  match Affinity.integer.convert value with
  | .null => .ok none
  | .integer n => .ok (some n)
  | _ => refuse .mismatch

/-- The row that is added for given values, and whether its number is a new one. -/
def newRow (shape : Shape) (store : Store) (given : List (Option Nat × Value)) :
    Result (Row × Bool) := do
  let values ← shape.columns.zipIdx.mapM fun (column, i) =>
    match given.lookup (some i) with
    | some value => return value
    | none => if column.generated?.isSome then return .null else column.absentValue store
  let told := match shape.rowNumber? with
    | some place => (values[place]?).getD .null
    | none => (given.lookup none).getD .null
  match ← givenNumber told with
  | some number => return (⟨number, values⟩, false)
  | none => return (⟨-1, values⟩, true)

/-- The rows of a table in the store. -/
def rowsOf (shape : Shape) : Change (Array Row) := do
  match (← get).table? shape.name with
  | some table => lift table.rows
  | none => return #[]

/-- Gives a table other rows. -/
def putRows (shape : Shape) (rows : Array Row) : Change Unit :=
  modify fun store => store.putTable ⟨shape, .ok rows⟩

mutual

/-- Runs a statement in sight of some rows.  Triggers that act already do not act again. -/
def runStatement : Nat → List Frame → List String → Statement → Change Unit
  | 0, _, _, _ => throw (.refused .tooComplex)
  | fuel + 1, frames, active, statement => do
    let store ← get
    match statement with
    | .ask query =>
      let _ ← lift (runQuery depthLimit { store, frames } query)
    | .insert told? name columns query? =>
      let rows ← match query? with
        | none => pure []
        | some query => do
          let (_, answers) ← lift (runQuery depthLimit { store, frames } query)
          pure (answers.map (·.values))
      match store.table? name with
      | some table =>
        let places ← lift (insertedColumns table.shape name columns)
        (if query?.isSome then rows else [[]]).forM fun values =>
          unlessSkipped (addRow fuel active table.shape told? (places.zip values))
      | none =>
        let relation ← lift (store.outline name)
        let names ← lift (insertedNames relation name columns)
        rows.forM fun values => do
          let given := names.zip values
          let all := relation.heading.map fun heading =>
            ((given.find? fun (column, _) => sameName column heading.name).map (·.2)).getD .null
          unlessSkipped (fire fuel active name .instead .insertion
            [qualifiedFrame (relation.frame "new" none all)])
    | .delete name conditions =>
      match store.table? name with
      | some table =>
        let shape := table.shape
        let rows ← rowsOf shape
        let wanted ← rows.toList.filterM fun row =>
          lift (holdAll { store, frames := shape.frame name row.number row.values :: frames }
            conditions)
        wanted.forM fun row => unlessSkipped (removeRow fuel active shape row)
      | none =>
        let relation ← lift (store.relation name)
        let wanted ← relation.rows.filterM fun (number?, values) =>
          lift (holdAll { store, frames := relation.frame name number? values :: frames }
            conditions)
        wanted.forM fun (number?, values) =>
          unlessSkipped (fire fuel active name .instead .deletion
            [qualifiedFrame (relation.frame "old" number? values)])
    | .update told? name changes conditions =>
      let columns := changes.map (·.1)
      match store.table? name with
      | some table =>
        let shape := table.shape
        let places ← lift (changedColumns shape changes)
        let rows ← rowsOf shape
        let wanted ← rows.toList.filterM fun row =>
          lift (holdAll { store, frames := shape.frame name row.number row.values :: frames }
            conditions)
        wanted.forM fun row =>
          unlessSkipped (changeRow fuel frames active shape told? columns places row)
      | none =>
        let relation ← lift (store.relation name)
        let wanted ← relation.rows.filterM fun (number?, values) =>
          lift (holdAll { store, frames := relation.frame name number? values :: frames }
            conditions)
        wanted.forM fun (number?, values) => do
          let scope : Scope := { store, frames := relation.frame name number? values :: frames }
          let changed ← changes.foldlM (fun (values : List Value) (change : String × Expr) => do
            let value ← lift (evaluate scope change.2)
            return match relation.columnIndex? change.1 with
              | some i => values.set i value
              | none => values) values
          unlessSkipped (fire fuel active name .instead (.change columns)
            [qualifiedFrame (relation.frame "new" number? changed ++
              relation.frame "old" number? values)])

/-- Lets the triggers of a table act. -/
def fire : Nat → List String → String → Moment → Occasion → List Frame → Change Unit
  | 0, _, _, _, _, _ => throw (.refused .tooComplex)
  | fuel + 1, active, table, moment, occasion, frames => do
    ((← get).triggersFor table moment occasion).forM fun trigger => do
      if active.contains trigger.name then pure ()
      else
        if ← lift (holdAll { store := ← get, frames } trigger.conditions) then
          trigger.statements.forM (runStatement fuel frames (trigger.name :: active))

/-- Adds a row to a table. -/
def addRow : Nat → List String → Shape → Option Reaction → List (Option Nat × Value) → Change Unit
  | 0, _, _, _, _ => throw (.refused .tooComplex)
  | fuel + 1, active, shape, told?, given => do
    let (bare, isNew) ← lift (newRow shape (← get) given)
    let draft ← lift (shape.settle (← get) bare)
    if !((← get).triggersFor shape.name .before .insertion).isEmpty then
      lift (checkSorts shape draft)
    fire fuel active shape.name .before .insertion [shape.triggerFrame "new" draft]
    let store ← get
    let present ← rowsOf shape
    let number := if isNew then Shape.nextNumber present else bare.number
    let row ← lift (shape.settle store { bare with number })
    let row ← lift (fillRequired shape store told? row)
    let row ← lift (shape.settle store row)
    let rows ← lift (makeRoom shape store told? present row none)
    putRows shape (insertRow shape.isBefore row rows)
    fire fuel active shape.name .after .insertion [shape.triggerFrame "new" row]

/-- Deletes a row of a table, if it is still there. -/
def removeRow : Nat → List String → Shape → Row → Change Unit
  | 0, _, _, _ => throw (.refused .tooComplex)
  | fuel + 1, active, shape, row => do
    let isThere := fun (rows : Array Row) => rows.any fun other => other.number == row.number
    if isThere (← rowsOf shape) then
      fire fuel active shape.name .before .deletion [shape.triggerFrame "old" row]
      let rows ← rowsOf shape
      if isThere rows then
        putRows shape (rows.filter fun other => other.number != row.number)
        fire fuel active shape.name .after .deletion [shape.triggerFrame "old" row]

/-- Changes a row of a table, if it is still there. -/
def changeRow : Nat → List Frame → List String → Shape → Option Reaction → List String →
    List (Nat × Expr) → Row → Change Unit
  | 0, _, _, _, _, _, _, _ => throw (.refused .tooComplex)
  | fuel + 1, frames, active, shape, told?, names, changes, old => do
    let isThere := fun (rows : Array Row) => rows.any fun other => other.number == old.number
    let store ← get
    let scope : Scope :=
      { store, frames := shape.frame shape.name old.number old.values :: frames }
    let values ← changes.foldlM (fun (values : List Value) (change : Nat × Expr) => do
      return values.set change.1 (← lift (evaluate scope change.2))) old.values
    let told := match shape.rowNumber? with
      | some place => (values[place]?).getD .null
      | none => .integer old.number
    let number ← match ← lift (givenNumber told) with
      | some number => pure number
      | none => throw (.refused .mismatch)
    let row ← lift (shape.settle store ⟨number, values⟩)
    let sight := [shape.triggerFrame "new" row ++ shape.triggerFrame "old" old]
    if isThere (← rowsOf shape) then
      fire fuel active shape.name .before (.change names) sight
      if isThere (← rowsOf shape) then
        let store ← get
        let row ← lift (fillRequired shape store told? row)
        let rows ← lift (makeRoom shape store told? (← rowsOf shape) row (some old.number))
        putRows shape (insertRow shape.isBefore row
          (rows.filter fun other => other.number != old.number))
        fire fuel active shape.name .after (.change names) sight

end

/-- Runs a statement. -/
def Statement.run (statement : Statement) : Change Unit :=
  runStatement triggerLimit [] [] statement

/-- The statement that adds rows of values to a table. -/
def Statement.insertion (table : String) (columns : List String) (rows : List (List Value)) :
    Statement :=
  .insert none table columns (some (.values (rows.map fun row => row.map .literal)))

/-- The statement that deletes all rows of a table. -/
def Statement.deletion (table : String) : Statement :=
  .delete table []

end Relational
end FeatureCensus
