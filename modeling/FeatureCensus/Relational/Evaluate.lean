import FeatureCensus.Relational.Operator

/-!
# Evaluation

The values of expressions in a scope and the rows of queries.  Names are looked up from the
inside out: first among the columns of the innermost query.  Expressions and queries within
each other are evaluated to a bounded depth.

Main results:

- Theorem {lit}`Relational.eval_literal`: a value that is written out stands for itself.
-/

namespace FeatureCensus
namespace Relational

/-! ## Scopes -/

/-- How a field can be named. -/
inductive Visibility where
  | plain
  /-- The name finds the field if no plain one has it. -/
  | hidden
  /-- The field is found together with the name of its table only. -/
  | qualified
  deriving DecidableEq, Repr, Inhabited

/-- A column of a row that expressions can name. -/
structure Field where
  table : String
  name : String
  value : Value
  affinity? : Option Affinity := none
  collation : Collation := .binary
  visibility : Visibility := .plain
  deriving Inhabited

/-- The columns of a row. -/
abbrev Frame := List Field

/-- What expressions can refer to. -/
structure Scope where
  store : Store
  /-- The rows in sight, the innermost first. -/
  frames : List Frame := []
  /-- The rows that functions of many rows are about. -/
  group? : Option (List Frame) := none
  deriving Inhabited

namespace Scope

/-- The field of a name in a frame. -/
def fieldIn? (table? : Option String) (name : String) (frame : Frame) : Option Field :=
  match table? with
  | some table => frame.find? fun field => sameName field.table table && sameName field.name name
  | none =>
    (frame.find? fun field => field.visibility == .plain && sameName field.name name) <|>
      (frame.find? fun field => field.visibility == .hidden && sameName field.name name)

/-- The field of a name. -/
def field? (scope : Scope) (table? : Option String) (name : String) : Option Field :=
  scope.frames.findSome? (fieldIn? table? name)

/-- The scope within which a query in it looks up names. -/
def within (scope : Scope) (frame : Frame) : Scope :=
  { scope with frames := frame :: scope.frames, group? := none }

/-- The scope with more fields in the innermost row. -/
def alongside (scope : Scope) (fields : List Field) : Scope :=
  match scope.frames with
  | [] => { scope with frames := [fields] }
  | frame :: rest => { scope with frames := (frame ++ fields) :: rest }

/-- The scope of one of the rows that are grouped. -/
def ofMember (scope : Scope) (frame : Frame) : Scope :=
  { scope with frames := frame :: scope.frames.drop 1, group? := none }

end Scope

/-- The affinity of an expression, if it has one. -/
def affinityOf? (scope : Scope) : Expr → Option Affinity
  | .column table? name _ => (scope.field? table? name).bind (·.affinity?)
  | .cast _ affinity => some affinity
  | .collate e _ => affinityOf? scope e
  | _ => none

/-- The depth to which expressions are looked at. -/
def depthLimit : Nat := 400

/-- The name of the collation that an expression is told to have, which may be told of a part of
it. -/
def toldName? : Nat → Expr → Option String
  | 0, _ => none
  | fuel + 1, e =>
    let told := toldName? fuel
    match e with
    | .collate _ name => some name
    | .unary _ a | .cast a _ | .amongRows a _ => told a
    | .binary _ a b => told a <|> told b
    | .between a b c => [a, b, c].findSome? told
    | .among a items => (a :: items).findSome? told
    | .choice subject? branches otherwise? =>
      (subject?.toList ++ branches.flatMap (fun (a, b) => [a, b]) ++ otherwise?.toList).findSome?
        told
    | .call _ _ arguments => arguments.findSome? told
    | .literal _ | .column _ _ _ | .raise _ | .anyRow _ | .firstValue _ => none

/-- The collation that an expression is told to have. -/
def toldCollation? (e : Expr) : Option Collation :=
  (toldName? depthLimit e).bind fun name => Collation.ofName? (Parser.folded name)

/-- The collation of the column that an expression is. -/
def columnCollation? (scope : Scope) : Expr → Option Collation
  | .column table? name _ => (scope.field? table? name).map (·.collation)
  | .cast e _ | .unary .plus e => columnCollation? scope e
  | _ => none

/-- The collation of an expression. -/
def collationOf (scope : Scope) (e : Expr) : Collation :=
  (toldCollation? e <|> columnCollation? scope e).getD .binary

/-- The collation in which two expressions are compared. -/
def commonCollation (scope : Scope) (a b : Expr) : Collation :=
  (toldCollation? a <|> toldCollation? b <|> columnCollation? scope a <|>
    columnCollation? scope b).getD .binary

/-! ## Relations -/

/-- What is told of a column of rows. -/
structure Heading where
  name : String
  affinity? : Option Affinity := none
  collation : Collation := .binary
  /-- The column is given the name in the query. -/
  isGiven : Bool := false
  /-- The names of the column in the other parts of a query. -/
  otherNames : List String := []
  deriving Inhabited

/-- The heading of a column of two results together. -/
def Heading.along (heading other : Heading) : Heading :=
  { heading with otherNames := heading.otherNames ++ other.name :: other.otherNames }

/-- Rows with what is told of their columns.  The rows of a table may have numbers. -/
structure Relation where
  heading : List Heading
  rows : List (Option Int × List Value)
  isNumbered : Bool := false
  deriving Inhabited

namespace Relation

/-- The names of the numbers of rows. -/
def numberNames : List String :=
  ["rowid", "oid", "_rowid_"]

/-- The fields of a row. -/
def frame (relation : Relation) (table : String) (number? : Option Int) (values : List Value) :
    Frame :=
  (relation.heading.zip values).map (fun (heading, value) =>
      { table, name := heading.name, value, affinity? := heading.affinity?
        collation := heading.collation }) ++
    if relation.isNumbered then
      numberNames.map fun name =>
        { table, name, value := (number?.map Value.integer).getD .null
          affinity? := some .integer, visibility := .hidden }
    else []

/-- The fields of a row that is missing. -/
def blankFrame (relation : Relation) (table : String) : Frame :=
  relation.frame table none (relation.heading.map fun _ => .null)

/-- The place of a column. -/
def columnIndex? (relation : Relation) (name : String) : Option Nat :=
  relation.heading.findIdx? fun heading => sameName heading.name name

end Relation

namespace Shape

/-- What is told of the columns of a table. -/
def heading (shape : Shape) : List Heading :=
  shape.columns.map fun column =>
    { name := column.name, affinity? := some (shape.affinityOf column)
      collation := column.collation }

/-- The fields of a row of a table. -/
def frame (shape : Shape) (table : String) (number : Int) (values : List Value) : Frame :=
  (Relation.mk shape.heading [] !shape.isKeyed).frame table (some number) values

/-- The rows of a table as a relation. -/
def relation (shape : Shape) (rows : Array Row) : Relation where
  heading := shape.heading
  rows := rows.toList.map fun row => (some row.number, row.values)
  isNumbered := !shape.isKeyed

end Shape

/-! ## Queries -/

/-- A row of a result with the scope that it was computed in. -/
structure Answer where
  values : List Value
  scope : Scope
  deriving Inhabited

/-- The calls of functions of many rows in an expression, as far as it is looked at. -/
def aggregates : Nat → Expr → List Expr
  | 0, _ => []
  | fuel + 1, e =>
    let found := aggregates fuel
    match e with
    | .call function _ arguments =>
      (if isAggregate (Parser.folded function) arguments.length then [e] else []) ++
        arguments.flatMap found
    | .unary _ a | .cast a _ | .collate a _ | .amongRows a _ => found a
    | .binary _ a b => found a ++ found b
    | .between a b c => found a ++ found b ++ found c
    | .among a items => found a ++ items.flatMap found
    | .choice subject? branches otherwise? =>
      subject?.toList.flatMap found ++ branches.flatMap (fun (a, b) => found a ++ found b) ++
        otherwise?.toList.flatMap found
    | _ => []

/-- Whether an expression holds a function of many rows. -/
def hasAggregate (e : Expr) : Bool :=
  !(aggregates depthLimit e).isEmpty

/-- The expressions that are the columns of a result by themselves. -/
def ResultColumn.expr? : ResultColumn → Option Expr
  | .single e _ _ => some e
  | .all | .allOf _ => none

/-- The names that columns of a result are given, with what they stand for. -/
def givenNames (columns : List ResultColumn) : List (String × Expr) :=
  columns.filterMap fun column => match column with
    | .single e (some name) _ => some (name, e)
    | _ => none

/-- The integer that is written out. -/
def Expr.number? : Expr → Option Int
  | .literal (.integer n) => some n
  | .unary .negate e => (number? e).map fun n => -n
  | .unary .plus e => number? e
  | _ => none

/-- An expression without the collations that it is told to have. -/
def Expr.uncollated : Expr → Expr
  | .collate e _ => uncollated e
  | e => e

/-- The term of a grouping: the number of a column of the result stands for it. -/
def groupTerm (columns : List ResultColumn) (e : Expr) : Expr :=
  match e.number? with
  | some n => if 0 < n then ((columns[n.toNat - 1]?).bind ResultColumn.expr?).getD e else e
  | none => e

/-- Whether a query is about groups of rows. -/
def isGrouped (columns : List ResultColumn) (groups : List Expr) : Bool :=
  !groups.isEmpty || (columns.filterMap ResultColumn.expr?).any hasAggregate

/-- The heading of a column that is computed. -/
def headingOf (scope : Scope) (e : Expr) (name? : Option String) (written : String) : Heading :=
  let field? := match e with
    | .column table? name _ => scope.field? table? name
    | _ => none
  { name := name?.getD ((field?.map (·.name)).getD written), affinity? := affinityOf? scope e
    collation := collationOf scope e, isGiven := name?.isSome }

/-- The headings of rows that are written out. -/
def valueHeadings (rows : List (List Expr)) : List Heading :=
  (List.range ((rows.head?.map List.length).getD 0)).map fun i =>
    { name := "column" ++ toString (i + 1) }

/-- The headings of the columns of a result, in a scope of fields without values. -/
def selectHeadings (scope : Scope) (blank : Frame) (columns : List ResultColumn) : List Heading :=
  let ofField := fun (field : Field) =>
    { name := field.name, affinity? := field.affinity?, collation := field.collation : Heading }
  columns.flatMap fun column => match column with
    | .single e name? written => [headingOf scope e name? written]
    | .all => (blank.filter fun field => field.visibility != .hidden).map ofField
    | .allOf table => (blank.filter fun field =>
        field.visibility != .hidden && sameName field.table table).map ofField

/-- The headings of a view, which may name its columns. -/
def viewHeadings (view : View) (headings : List Heading) : List Heading :=
  headings.zipIdx.map fun (heading, i) =>
    { heading with name := (view.columns[i]?).getD heading.name }

/-- The place of the column of a result that a term of an order stands for: a number does, and
so does its name. -/
def orderPlace? (headings : List Heading) (e : Expr) : Option Nat :=
  match e.uncollated, e.uncollated.number? with
  | _, some n => if 0 < n then some (n.toNat - 1) else none
  | .column none name _, none =>
    let place? := fun (f : Heading → Bool) => headings.findIdx? f
    place? (fun heading => heading.isGiven && sameName heading.name name) <|>
      place? (fun heading => sameName heading.name name) <|>
      place? (fun heading => heading.otherNames.any (sameName name))
  | _, none => none

/-- The order of two rows by their columns in turn. -/
def rowOrder (collations : List Collation) : List Value → List Value → Ordering
  | a :: as, b :: bs =>
    (Value.order (collations.headD .binary) a b).then (rowOrder collations.tail as bs)
  | _, _ => .eq

/-- Whether a row is among some others. -/
def hasRow {α : Type} (collations : List Collation) (key : α → List Value) (rows : List α)
    (row : α) : Bool :=
  rows.any fun old => rowOrder collations (key old) (key row) == .eq

/-- Rows without those that repeat an earlier one. -/
def distinctRows {α : Type} (collations : List Collation) (key : α → List Value)
    (rows : List α) : List α :=
  (rows.foldl (fun kept row => if hasRow collations key kept row then kept else row :: kept)
    []).reverse

/-- Rows in order; the last one is left of those that are equal. -/
def rowSet {α : Type} (collations : List Collation) (key : α → List Value) (rows : List α) :
    List α :=
  (distinctRows collations key rows.reverse).mergeSort fun a b =>
    rowOrder collations (key a) (key b) != .gt

/-- The rows of two results after an operation. -/
def SetOp.rows {α : Type} (op : SetOp) (collations : List Collation) (key : α → List Value)
    (a b : List α) : List α :=
  match op with
  | unionAll => a ++ b
  | union => rowSet collations key (a ++ b)
  | intersect => (rowSet collations key a).filter (hasRow collations key b)
  | except => (rowSet collations key a).filter fun row => !hasRow collations key b row

/-- The greatest or least value that a function of many rows asks for. -/
def Expr.extreme? : Expr → Option (Ordering × Expr)
  | .call function _ [e] =>
    match Parser.folded function with
    | "min" => some (.lt, e)
    | "max" => some (.gt, e)
    | _ => none
  | _ => none

/-- The row of the first of the greatest or least values; a value that is nothing comes after all
others. -/
def extremeRow (wanted : Ordering) (collation : Collation) (rows : List (Value × Frame)) :
    Option Frame :=
  let present := rows.filter fun (value, _) => value != .null
  (present.foldl (fun best? (value, frame) =>
    match best? with
    | none => some (value, frame)
    | some best =>
      if Value.order collation value best.1 == wanted then some (value, frame) else some best)
    none).map (·.2) <|> rows.getLast?.map (·.2)

/-- Whether one row comes no later than another one. -/
def isSorted : List (Collation × Bool) → List Value → List Value → Bool
  | (collation, descending) :: terms, a :: as, b :: bs =>
    match Value.order collation a b with
    | .eq => isSorted terms as bs
    | .lt => !descending
    | .gt => descending
  | _, _, _ => true

/-- Whether an operand is one of some others, of which one may be unknown. -/
def membership (x : Operand) (collation : Collation) (items : List Operand) : Result Value :=
  if items.isEmpty then .ok (.ofBool false)
  else if x.value == .null then .ok .null
  else if items.any fun item => item.value != .null && Operand.order collation x item == .eq then
    .ok (.ofBool true)
  else if items.any fun item => item.value == .null then .ok .null
  else .ok (.ofBool false)

mutual

/-- The value of an expression. -/
def eval : Nat → Scope → Expr → Result Value
  | 0, _, _ => refuse .tooComplex
  | fuel + 1, scope, e => do
    let operand := fun e => do
      return Operand.mk (← eval fuel scope e) (affinityOf? scope e)
    match e with
    | .literal value => return value
    | .column table? name marks =>
      match scope.field? table? name with
      | some field => return field.value
      | none =>
        if marks && table?.isNone then return .text name
        else refuse (.noSuchColumn ((table?.map (· ++ ".")).getD "" ++ name))
    | .unary op a => return op.value (← eval fuel scope a)
    | .binary .and a b =>
      let first := (← eval fuel scope a).truth?
      if first == some false then return .ofBool false
      else match first, (← eval fuel scope b).truth? with
        | _, some false => return .ofBool false
        | some true, some true => return .ofBool true
        | _, _ => return .null
    | .binary .or a b =>
      let first := (← eval fuel scope a).truth?
      if first == some true then return .ofBool true
      else match first, (← eval fuel scope b).truth? with
        | _, some true => return .ofBool true
        | some false, some false => return .ofBool false
        | _, _ => return .null
    | .binary (.compare comparison) a b =>
      let x ← operand a
      let y ← operand b
      return comparison.value (commonCollation scope a b) x y
    | .binary op a b => return op.value (← eval fuel scope a) (← eval fuel scope b)
    | .between a low high =>
      eval fuel scope (.binary .and (.binary (.compare .atLeast) a low)
        (.binary (.compare .atMost) a high))
    | .among a items =>
      let x ← operand a
      let values ← items.mapM (eval fuel scope)
      membership x (collationOf scope a) (values.map fun value => ⟨value, none⟩)
    | .amongRows a query =>
      let x ← operand a
      let (heading, answers) ← runQuery fuel scope query
      membership x (collationOf scope a) (answers.map fun answer =>
        ⟨(answer.values.head?).getD .null, (heading.head?.bind (·.affinity?))⟩)
    | .choice subject? branches otherwise? =>
      chooseBranch fuel scope subject? branches otherwise?
    | .cast a affinity => return affinity.cast (← eval fuel scope a)
    | .collate a _ => eval fuel scope a
    | .raise none => .error .skipped
    | .raise (some message) => refuse (.raised message)
    | .anyRow query => return .ofBool !(← runQuery fuel scope query).2.isEmpty
    | .firstValue query =>
      return ((← runQuery fuel scope query).2.head?.bind fun answer => answer.values.head?).getD
        .null
    | .call written distinct arguments =>
      match Parser.folded written, arguments, scope.group? with
      | "count", [], some frames => return .integer frames.length
      | "iif", [a, b, c], _ =>
        if (← eval fuel scope a).truth? == some true then eval fuel scope b
        else eval fuel scope c
      | "coalesce", a :: rest, _ | "ifnull", a :: rest, _ =>
        let value ← eval fuel scope a
        if value != .null || rest.isEmpty then return value
        else eval fuel scope (.call "coalesce" false rest)
      | function, first :: rest, some frames =>
        if isAggregate function (rest.length + 1) then
          let values ← frames.mapM fun frame => eval fuel (scope.ofMember frame) first
          let present := values.filter (· != .null)
          let collation := collationOf scope first
          let counted :=
            if distinct then distinctRows [collation] (fun value => [value]) present else present
          let separator ← rest.mapM (eval fuel scope)
          aggregateValue function collation ((separator.head?.map Value.toText).getD ",") counted
        else
          let values ← (first :: rest).mapM (eval fuel scope)
          functionValue function (collationOf scope first) values
      | function, arguments, _ =>
        let values ← arguments.mapM (eval fuel scope)
        functionValue function ((arguments.head?.map (collationOf scope)).getD .binary) values

/-- The value of the first branch that is chosen. -/
def chooseBranch : Nat → Scope → Option Expr → List (Expr × Expr) → Option Expr → Result Value
  | 0, _, _, _, _ => refuse .tooComplex
  | fuel + 1, scope, subject?, branches, otherwise? =>
    match branches with
    | [] =>
      match otherwise? with
      | some e => eval fuel scope e
      | none => return .null
    | (condition, value) :: rest => do
      let test := match subject? with
        | some subject => Expr.binary (.compare .equal) subject condition
        | none => condition
      if (← eval fuel scope test).truth? == some true then eval fuel scope value
      else chooseBranch fuel scope subject? rest otherwise?

/-- The rows of a table or view. -/
def relationOf : Nat → Store → String → Result Relation
  | 0, _, _ => refuse .tooComplex
  | fuel + 1, store, name =>
    match store.table? name, store.view? name with
    | some table, _ => return table.shape.relation (← table.rows)
    | none, some view => do
      let (heading, answers) ← runQuery fuel { store } view.query
      return { heading := viewHeadings view heading
               rows := answers.map fun answer => (none, answer.values) }
    | none, none => refuse (.noSuchTable name)

/-- The rows that sources have together, and the fields of a row that is missing. -/
def joinSources : Nat → Scope → Frame × List Frame → List Source → Result (Frame × List Frame)
  | 0, _, _, _ => refuse .tooComplex
  | fuel + 1, scope, (blank, frames), sources =>
    match sources with
    | [] => return (blank, frames)
    | source :: rest => do
      let (relation, name, isOptional, conditions) ← match source with
        | .table name alias? isOptional conditions => do
          let found ← match relationOf fuel scope.store name with
            | .error (.refused (.noSuchTable missing)) => refuse (.noSuchTable
              (if sameName missing name then "main." ++ missing else missing))
            | other => other
          pure (found, alias?.getD name, isOptional, conditions)
        | .query query alias? isOptional conditions => do
          let (heading, answers) ← runQuery fuel { store := scope.store } query
          pure (Relation.mk heading (answers.map fun answer => (none, answer.values)) false,
            alias?.getD "", isOptional, conditions)
      let blankOf := relation.blankFrame name
      let joined ← frames.mapM fun frame => do
        let partners ← relation.rows.filterMapM fun (number?, values) => do
          let both := frame ++ relation.frame name number? values
          let test ← eval fuel (scope.within both) (Expr.conjunction conditions)
          return if test.truth? == some true then some both else none
        return if partners.isEmpty && isOptional then [frame ++ blankOf] else partners
      joinSources fuel scope (blank ++ blankOf, joined.flatten) rest

/-- The values of the columns of a result. -/
def resultValues : Nat → Scope → List ResultColumn → Result (List Value)
  | 0, _, _ => refuse .tooComplex
  | _, _, [] => return []
  | fuel + 1, scope, column :: rest => do
    let values ← match column with
      | .all => pure (((scope.frames.head?).getD []).filterMap fun field =>
        if field.visibility == .hidden then none else some field.value)
      | .allOf table => pure (((scope.frames.head?).getD []).filterMap fun field =>
        if field.visibility == .hidden || !sameName field.table table then none
        else some field.value)
      | .single e _ _ => do pure [← eval fuel scope e]
    return values ++ (← resultValues fuel scope rest)

/-- The headings and the rows of a query. -/
def runQuery : Nat → Scope → Query → Result (List Heading × List Answer)
  | 0, _, _ => refuse .tooComplex
  | fuel + 1, scope, query =>
    match query with
    | .values rows => do
      let answers ← rows.mapM fun row => do
        return Answer.mk (← row.mapM (eval fuel scope)) scope
      return (valueHeadings rows, answers)
    | .combine op a b => do
      let (heading, first) ← runQuery fuel scope a
      let (others, second) ← runQuery fuel scope b
      return (heading.zipWith Heading.along others,
        op.rows (heading.map (·.collation)) Answer.values first second)
    | .sorted inner terms limit? offset? => do
      let (heading, answers) ← runQuery fuel scope inner
      let keyed ← answers.mapM fun answer => do
        return (← orderKeys fuel heading answer terms, answer)
      let directions := terms.map fun (.by e descending) =>
        let told? := toldCollation? e <|>
          ((orderPlace? heading e).bind (heading[·]?)).map Heading.collation
        let own? := (answers.head?).map fun answer => collationOf answer.scope e
        (((told? <|> own?).getD .binary), descending)
      let inOrder := (keyed.mergeSort fun a b => isSorted directions a.1 b.1).map (·.2)
      let bound := fun (e : Expr) => do
        match Affinity.numeric.convert (← eval fuel { store := scope.store } e) with
        | .integer n => return n
        | _ => refuse .mismatch
      let limit? ← limit?.mapM bound
      let skip? ← offset?.mapM bound
      let rest := inOrder.drop (skip?.getD 0).toNat
      return (heading, match limit? with
        | some limit => if limit < 0 then rest else rest.take limit.toNat
        | none => rest)
    | .select distinct columns sources conditions groups having => do
      let (blank, frames) ← joinSources fuel scope ([], [[]]) sources
      let names := givenNames columns
      let plainNames := names.filter fun (_, e) => !hasAggregate e
      let kept ← frames.filterM fun frame => do
        if conditions.isEmpty then return true
        let within ← withNames fuel plainNames (scope.within frame)
        return (← eval fuel within (Expr.conjunction conditions)).truth? == some true
      let scopes ← if isGrouped columns groups then
          let extremes := (columns.filterMap ResultColumn.expr? ++ having).flatMap
            (aggregates depthLimit)
          groupScopes fuel scope blank extremes plainNames (groups.map (groupTerm columns)) kept
        else pure (kept.map scope.within)
      let named ← scopes.mapM fun within => do
        return (within, ← withNames fuel names within)
      let chosen ← named.filterM fun (_, within) => do
        return (← eval fuel within (Expr.conjunction having)).truth? == some true
      let answers ← chosen.mapM fun (within, named) => do
        return Answer.mk (← resultValues fuel within columns) named
      let headings := selectHeadings (scope.within blank) blank columns
      return (headings,
        if distinct then distinctRows (headings.map (·.collation)) Answer.values answers
        else answers)

/-- A scope in which the names that columns of a result are given can be used. -/
def withNames : Nat → List (String × Expr) → Scope → Result Scope
  | 0, _, _ => refuse .tooComplex
  | fuel + 1, names, scope => do
    let fields ← names.mapM fun (name, e) => do
      return { table := "", name, value := ← eval fuel scope e, affinity? := affinityOf? scope e
               collation := collationOf scope e, visibility := .hidden : Field }
    return scope.alongside fields

/-- The scopes of the groups of rows; without terms there is just one group.  What is no
function of many rows is about the first row of a group, or about the row of the greatest or
least value where that is asked for. -/
def groupScopes : Nat → Scope → Frame → List Expr → List (String × Expr) → List Expr →
    List Frame → Result (List Scope)
  | 0, _, _, _, _, _, _ => refuse .tooComplex
  | fuel + 1, scope, blank, extremes, names, groups, frames => do
    let scopeOf := fun (members : List Frame) => do
      let shown? ← match extremes.filterMap Expr.extreme? |>.getLast? with
        | none => pure members.head?
        | some (wanted, e) => do
          let keyed ← members.mapM fun frame => do
            return (← eval fuel (scope.within frame) e, frame)
          pure (extremeRow wanted (collationOf (scope.within blank) e) keyed)
      return { scope.within (shown?.getD blank) with group? := some members }
    if groups.isEmpty then return [← scopeOf frames]
    else
      let keyed ← frames.mapM fun frame => do
        let within ← withNames fuel names (scope.within frame)
        return (← groups.mapM (eval fuel within), frame)
      let within ← withNames fuel names (scope.within blank)
      let collations := groups.map (collationOf within)
      let keys := (distinctRows collations Prod.fst keyed).map (·.1)
      let inOrder := keys.mergeSort fun a b => rowOrder collations a b != .gt
      inOrder.mapM fun key => scopeOf ((keyed.filter fun (other, _) =>
        rowOrder collations key other == .eq).map (·.2))

/-- The values by which a row of a result is put in order. -/
def orderKeys : Nat → List Heading → Answer → List OrderTerm → Result (List Value)
  | 0, _, _, _ => refuse .tooComplex
  | _, _, _, [] => return []
  | fuel + 1, heading, answer, .by e _ :: rest => do
    let value ← match (orderPlace? heading e).bind fun place => answer.values[place]? with
      | some value => pure value
      | none => eval fuel answer.scope e
    return value :: (← orderKeys fuel heading answer rest)

end

/-- A value that is written out stands for itself. -/
theorem eval_literal (fuel : Nat) (scope : Scope) (value : Value) :
    eval (fuel + 1) scope (.literal value) = .ok value := by
  simp [eval]
  rfl

/-- The value of an expression. -/
def evaluate (scope : Scope) (e : Expr) : Result Value :=
  eval depthLimit scope e

/-- Whether all of some conditions hold. -/
def holdAll (scope : Scope) (conditions : List Expr) : Result Bool := do
  return (← evaluate scope (Expr.conjunction conditions)).truth? == some true

/-- The rows of a table or view. -/
def Store.relation (store : Store) (name : String) : Result Relation :=
  relationOf depthLimit store name

end Relational
end FeatureCensus
