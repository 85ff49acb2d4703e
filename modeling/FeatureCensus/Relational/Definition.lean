import FeatureCensus.Relational.Parser

/-!
# Definitions

What the statements of a schema define: tables with their columns and the rules that rows
keep, indexes, views, and triggers, which act when rows change.

Main results:

- Theorem {lit}`Relational.sameName_refl`: a name is the same as itself.
-/

namespace FeatureCensus
namespace Relational

/-- Whether two names are the same; the case of letters does not count. -/
def sameName (a b : String) : Bool :=
  Parser.folded a == Parser.folded b

/-- A name is the same as itself. -/
theorem sameName_refl (a : String) : sameName a a = true := by
  simp [sameName]

/-! ## Tables -/

/-- A column of a table. -/
structure Column where
  name : String
  typeName : String
  collation : Collation := .binary
  /-- What happens where a value is missing that has to be there. -/
  required? : Option Reaction := none
  default? : Option Expr := none
  /-- The expression that the values are computed by. -/
  generated? : Option Expr := none
  /-- Generated values are kept in the file. -/
  isStored : Bool := true
  deriving Inhabited

/-- A term of a key. -/
structure KeyTerm where
  expression : Expr
  collation? : Option String := none
  descending : Bool := false
  deriving Inhabited

/-- A rule that no two rows have the same key. -/
structure UniqueRule where
  /-- The name of the index. -/
  name : String := ""
  terms : List KeyTerm
  /-- The rule is about the rows that meet these conditions. -/
  conditions : List Expr := []
  reaction : Reaction := .abort
  isPrimary : Bool := false
  deriving Inhabited

/-- A rule that each row keeps, with its name or its written form. -/
structure CheckRule where
  condition : Expr
  label : String
  deriving Inhabited

/-- The shape of a table. -/
structure Shape where
  name : String
  columns : List Column
  uniques : List UniqueRule := []
  checks : List CheckRule := []
  /-- The terms of all indexes that are about all rows, in the order in which they were made;
  those of keys have their rules besides. -/
  indexes : List (List KeyTerm) := []
  /-- The place of the column that holds the numbers of rows. -/
  rowNumber? : Option Nat := none
  /-- What happens where a number is given twice. -/
  rowNumberReaction : Reaction := .abort
  /-- Rows have no numbers and are kept by their primary key. -/
  isKeyed : Bool := false
  /-- Values have to be of the types of their columns. -/
  isStrict : Bool := false
  deriving Inhabited

namespace Column

/-- The affinity of a column. -/
def affinity (column : Column) (strict : Bool) : Affinity :=
  let type := Parser.folded column.typeName
  if strict && type == "any" then .blob else .ofType type

end Column

namespace Shape

/-- The place of a column. -/
def columnIndex? (shape : Shape) (name : String) : Option Nat :=
  shape.columns.findIdx? fun column => sameName column.name name

/-- The affinity of a column of the table. -/
def affinityOf (shape : Shape) (column : Column) : Affinity :=
  column.affinity shape.isStrict

/-- The columns of the primary key. -/
def primaryKey (shape : Shape) : List Nat :=
  match shape.uniques.find? (·.isPrimary) with
  | none => []
  | some rule => rule.terms.filterMap fun term =>
    match term.expression with
    | .column _ name _ => shape.columnIndex? name
    | _ => none

end Shape

/-! ## Triggers -/

/-- When a trigger acts. -/
inductive Moment where
  | before
  | after
  /-- Instead of a change of a view. -/
  | instead
  deriving DecidableEq, Repr, Inhabited

/-- What a trigger acts on. -/
inductive Occasion where
  | insertion
  | deletion
  /-- A change of some columns; of any, if none are told. -/
  | change (columns : List String)
  deriving DecidableEq, Repr, Inhabited

/-- A trigger. -/
structure Trigger where
  name : String
  table : String
  moment : Moment
  occasion : Occasion
  conditions : List Expr
  statements : List Statement
  deriving Inhabited

/-- A view: a query with a name. -/
structure View where
  name : String
  columns : List String
  query : Query
  deriving Inhabited

/-- What a statement of a schema defines. -/
inductive Definition where
  | table (shape : Shape)
  /-- An index, which is unique or not. -/
  | index (table : String) (unique : Bool) (rule : UniqueRule)
  | view (view : View)
  | trigger (trigger : Trigger)
  deriving Inhabited

namespace Parser

/-! ## Columns -/

/-- A part of the definition of a column. -/
inductive ColumnPart where
  | required (reaction : Reaction)
  | default (e : Expr)
  | primaryKey (descending : Bool) (reaction : Reaction)
  | unique (reaction : Reaction)
  | check (rule : CheckRule)
  | collation (name : String)
  | generated (e : Expr) (stored : Bool)
  | noMatter

/-- What happens where a rule is broken. -/
def onConflict : Parser Reaction := do
  return (← reaction? ["on", "conflict"]).getD .abort

/-- The text between two places, without blanks around it. -/
def trimmedSpan (source : List Char) (start stop : Nat) : String :=
  let inner := (spanOf source start stop).dropWhile isSpace
  String.ofList (inner.reverse.dropWhile isSpace).reverse

/-- A name without the quotes around it. -/
def unquoted (s : String) : String :=
  match Token.of s with
  | ⟨.name inner _, _, _⟩ :: _ | ⟨.text inner, _, _⟩ :: _ => inner
  | _ => s

/-- A rule that rows keep. -/
def checkRule (label? : Option String) : Parser CheckRule := do
  word "check"
  let reading ← get
  let start := (reading.tokens.head?.map (·.stop)).getD 0
  mark "("
  let condition ← expression
  let stop := ((← get).tokens.head?.map (·.start)).getD 0
  mark ")"
  let _ ← onConflict
  return ⟨condition, label?.getD (unquoted (trimmedSpan reading.source start stop))⟩

/-- What follows the table that a column refers to. -/
def referenceTail : Parser Unit := do
  let _ ← optional (bracketed (separated name))
  let _ ← many ((do
      word "on"
      word "delete" <|> word "update"
      (words ["set", "null"] <|> words ["set", "default"] <|> word "cascade" <|> word "restrict"
        <|> words ["no", "action"]))
    <|> (do
      word "match"
      let _ ← name)
    <|> (do
      let _ ← hasWords ["not"]
      word "deferrable"
      let _ ← optional (word "initially" *> (word "deferred" <|> word "immediate"))))

/-- The value of a column that is not given. -/
def defaultValue : Parser Expr :=
  bracketed expression
    <|> (do
      let negative ← hasMark "-"
      let _ ← hasMark "+"
      let e ← literal
      return if negative then .unary .negate e else e)
    <|> (do
      match ← column with
      | .column _ s _ => return .literal (.text s)
      | e => return e)

/-- A part of the definition of a column. -/
def columnPart : Parser ColumnPart := do
  let label? ← optional (word "constraint" *> name)
  (do
    word "default"
    return .default (← defaultValue))
  <|> (do
    words ["not", "null"]
    return .required (← onConflict))
  <|> (do
    word "null"
    let _ ← onConflict
    return .noMatter)
  <|> (do
    words ["primary", "key"]
    let descending ← hasWords ["desc"]
    let _ ← hasWords ["asc"]
    let reaction ← onConflict
    let _ ← hasWords ["autoincrement"]
    return .primaryKey descending reaction)
  <|> (do
    word "unique"
    return .unique (← onConflict))
  <|> (.check <$> checkRule label?)
  <|> (do
    word "references"
    let _ ← tableName
    referenceTail
    return .noMatter)
  <|> (do
    word "collate"
    return .collation (← name))
  <|> (do
    let _ ← hasWords ["generated", "always"]
    word "as"
    let e ← bracketed expression
    let stored ← hasWords ["stored"]
    let _ ← hasWords ["virtual"]
    return .generated e stored)
  <|> (if label?.isSome then pure .noMatter else failure)

/-- A column with what its definition says of it. -/
def columnDefinition : Parser (Column × List ColumnPart) := do
  let name ← name
  let type ← typeName
  let parts ← many columnPart
  let base : Column := { name, typeName := type }
  return (parts.foldl (fun (column : Column) part =>
    match part with
    | .required reaction => { column with required? := some reaction }
    | .default e => { column with default? := some e }
    | .collation name =>
      { column with collation := (Collation.ofName? (folded name)).getD .binary }
    | .generated e stored => { column with generated? := some e, isStored := stored }
    | _ => column) base, parts)

/-! ## Tables -/

/-- A term of a key. -/
def keyTerm : Parser KeyTerm := do
  let e ← (do
    let reading ← get
    let named ← name
    -- a name in apostrophes is a column here
    let next := ((← get).tokens.head?.map (·.kind)).getD (.mark ")")
    match reading.tokens.head?.map (·.kind), next with
    | some (.text _), .mark _ => return Expr.column none named false
    | _, _ => failure) <|> expression
  let _ ← hasWords ["asc"]
  let descending ← hasWords ["desc"]
  match e with
  | .collate inner collation => return ⟨inner, some collation, descending⟩
  | _ => return ⟨e, none, descending⟩

/-- A rule of a table. -/
inductive TableRule where
  | unique (rule : UniqueRule)
  | check (rule : CheckRule)
  | noMatter

/-- A rule of a table. -/
def tableRule : Parser TableRule := do
  let label? ← optional (word "constraint" *> name)
  (do
    words ["primary", "key"]
    let terms ← bracketed (do
      let terms ← separated keyTerm
      let _ ← hasWords ["autoincrement"]
      return terms)
    return .unique { terms, reaction := ← onConflict, isPrimary := true })
  <|> (do
    word "unique"
    let terms ← bracketed (separated keyTerm)
    return .unique { terms, reaction := ← onConflict })
  <|> (.check <$> checkRule label?)
  <|> (do
    words ["foreign", "key"]
    let _ ← bracketed (separated name)
    word "references"
    let _ ← tableName
    referenceTail
    return .noMatter)
  <|> (if label?.isSome then pure .noMatter else failure)

/-- An option of a table; tells whether it is about types. -/
def tableOption : Parser Bool :=
  (words ["without", "rowid"] *> pure false) <|> (word "strict" *> pure true)

/-- The rules that the definition of a column brings. -/
def uniquesOf (column : Column) (parts : List ColumnPart) : List UniqueRule :=
  let term : KeyTerm := { expression := .column none column.name false }
  parts.filterMap fun part =>
    match part with
    | .primaryKey descending reaction =>
      some { terms := [{ term with descending }], reaction, isPrimary := true }
    | .unique reaction => some { terms := [term], reaction }
    | _ => none

/-- Whether two keys have the same columns with the same collations. -/
def sameTerms (columns : List Column) (a b : List KeyTerm) : Bool :=
  let told := fun (term : KeyTerm) => match term.expression with
    | .column _ name _ =>
      let found? : Option Column := columns.find? fun column => sameName column.name name
      let own := (found?.map Column.collation).getD Collation.binary
      (folded name, (term.collation?.bind fun c => Collation.ofName? (folded c)).getD own)
    | _ => ("", .binary)
  a.map told == b.map told

/-- Rules without those that repeat an earlier one, which takes over what they tell. -/
def mergeRules (columns : List Column) (rules : List UniqueRule) : List UniqueRule :=
  rules.foldl (fun kept rule =>
    if kept.any fun old => sameTerms columns old.terms rule.terms then
      kept.map fun old =>
        if sameTerms columns old.terms rule.terms then
          { old with
            reaction := if old.reaction == .abort then rule.reaction else old.reaction
            isPrimary := old.isPrimary || rule.isPrimary }
        else old
    else kept ++ [rule]) []

/-- The place of the column that holds the numbers of rows: a primary key of its own with
the type of integers, which is not declared to descend. -/
def rowNumberOf? (columns : List (Column × List ColumnPart)) (uniques : List UniqueRule) :
    Option Nat :=
  match uniques.find? (·.isPrimary) with
  | some { terms := [{ expression := .column _ name _, .. }], .. } =>
    columns.findIdx? fun (column, parts) =>
      sameName column.name name && folded column.typeName == "integer" &&
        !parts.any fun part => match part with
          | .primaryKey descending _ => descending
          | _ => false
  | _ => none

/-- The shape of a table of columns, rules and options. -/
def shapeOf (name : String) (columns : List (Column × List ColumnPart)) (rules : List TableRule)
    (isKeyed isStrict : Bool) : Shape :=
  let told := columns.flatMap (fun (column, parts) => uniquesOf column parts) ++
    rules.filterMap fun | .unique rule => some rule | _ => none
  let checks := columns.flatMap (fun (_, parts) =>
      parts.filterMap fun | .check rule => some rule | _ => none) ++
    rules.filterMap fun | .check rule => some rule | _ => none
  let rowNumber? := if isKeyed then none else rowNumberOf? columns told
  let primary? := told.find? (·.isPrimary)
  let others := if rowNumber?.isSome then told.filter (!·.isPrimary) else told
  let uniques := mergeRules (columns.map (·.1)) others
  let base : Shape := { name, columns := columns.map (·.1), uniques, isKeyed, isStrict }
  let key := base.primaryKey
  { base with
    checks, rowNumber?
    indexes := uniques.map (·.terms)
    rowNumberReaction := (primary?.map (·.reaction)).getD .abort
    columns := base.columns.zipIdx.map fun (column, i) =>
      if (isKeyed || isStrict) && key.contains i && rowNumber? != some i
          && column.required?.isNone then
        { column with required? := some .abort }
      else column }

/-- What a statement that makes something begins with. -/
def creation (what : List String) : Parser Unit := do
  word "create"
  let _ ← optional (word "temp" <|> word "temporary")
  words what
  let _ ← hasWords ["if", "not", "exists"]

/-- The definition of a table. -/
def tableDefinition : Parser Definition := do
  creation ["table"]
  let name ← tableName
  mark "("
  let columns ← separated columnDefinition
  let rules ← many (do
    let _ ← hasMark ","
    tableRule)
  mark ")"
  let options := (← optional (separated tableOption)).getD []
  return .table (shapeOf name columns rules (options.contains false) (options.contains true))

/-! ## Indexes, views and triggers -/

/-- The definition of an index. -/
def indexDefinition : Parser Definition := do
  word "create"
  let unique ← hasWords ["unique"]
  word "index"
  let _ ← hasWords ["if", "not", "exists"]
  let name ← tableName
  word "on"
  let table ← tableName
  let terms ← bracketed (separated keyTerm)
  return .index table unique { name, terms, conditions := ← conditions }

/-- The definition of a view. -/
def viewDefinition : Parser Definition := do
  creation ["view"]
  let name ← tableName
  let columns := (← optional (bracketed (separated Parser.name))).getD []
  word "as"
  return .view ⟨name, columns, ← query⟩

/-- When a trigger acts. -/
def moment : Parser Moment :=
  (word "before" *> pure .before) <|> (word "after" *> pure .after)
    <|> (words ["instead", "of"] *> pure .instead) <|> pure .before

/-- What a trigger acts on. -/
def occasion : Parser Occasion :=
  (word "insert" *> pure .insertion) <|> (word "delete" *> pure .deletion)
    <|> (do
      word "update"
      return .change ((← optional (word "of" *> separated name)).getD []))

/-- The definition of a trigger. -/
def triggerDefinition : Parser Definition := do
  creation ["trigger"]
  let name ← tableName
  let moment ← moment
  let occasion ← occasion
  word "on"
  let table ← tableName
  let _ ← hasWords ["for", "each", "row"]
  let conditions := (← optional (word "when" *> expression)).toList
  word "begin"
  let statements ← many (do
    let s ← statement
    mark ";"
    return s)
  word "end"
  return .trigger { name, table, moment, occasion, conditions, statements }

end Parser

/-- What a statement of a schema defines, if it can be read. -/
def Definition.read? (statement : String) : Option Definition :=
  Parser.readAll (Parser.tableDefinition <|> Parser.indexDefinition <|> Parser.viewDefinition
    <|> Parser.triggerDefinition) statement

end Relational
end FeatureCensus
