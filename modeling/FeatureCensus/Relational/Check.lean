import FeatureCensus.Relational.Evaluate

/-!
# Checks of statements

What is wrong with a statement whatever the rows are: names that stand for nothing, functions
that are not there, and numbers of values that do not fit.  A statement is checked together
with all triggers that it may cause to act.

Main results:

- Theorem {lit}`Relational.checkExpr_literal`: nothing is wrong with what is written out.
- Theorem {lit}`Relational.checkWidth_self`: as many values as columns are right.
-/

namespace FeatureCensus
namespace Relational

/-! ## Expressions and queries -/

/-- Refuses a function that is not there, or that does not take so many values. -/
def checkFunction (function : String) (count : Nat) : Result Unit :=
  let name := Parser.folded function
  let fits? := ((openFunctions.lookup name).map fun least => decide (least ≤ count)) <|>
    ((functionArities ++ aggregateArities).lookup name).map fun arities => arities.contains count
  match fits? with
  | none => refuse (.noSuchFunction function)
  | some true => .ok ()
  | some false => refuse (.wrongArguments function)

/-- Refuses a function of many rows where there is just one. -/
def checkAggregate (scope : Scope) (function : String) (distinct : Bool) (count : Nat) :
    Result Unit :=
  if scope.group?.isNone then refuse (.misusedAggregate function)
  else if distinct && count != 1 then refuse .looseDistinct
  else .ok ()

/-- Refuses numbers that stand for no column of a result. -/
def checkTerms (clause : String) (columns : Nat) (terms : List Expr) : Result Unit :=
  terms.zipIdx.forM fun (e, i) =>
    match e.uncollated.number? with
    | some n =>
      if 0 < n && n ≤ columns then .ok () else refuse (.termOutOfRange clause (i + 1) columns)
    | none => .ok ()

/-- Refuses functions of many rows in the conditions on these rows. -/
def checkNoAggregates (conditions : List Expr) : Result Unit :=
  match conditions.flatMap (aggregates depthLimit) with
  | .call function _ _ :: _ => refuse (.strayAggregate function)
  | _ => .ok ()

/-- Refuses a query within an expression that has several columns. -/
def checkSingle (headings : List Heading) : Result Unit :=
  if headings.length = 1 then .ok () else refuse (.wrongSelectWidth headings.length)

/-- Refuses a collation that is not there, where something is put in order. -/
def checkCollation (e : Expr) : Result Unit :=
  match toldName? depthLimit e with
  | some name =>
    if (Collation.ofName? (Parser.folded name)).isSome then .ok ()
    else refuse (.noSuchCollation name)
  | none => .ok ()

/-- The expressions that are columns of the first part of a query. -/
def Query.firstColumns : Query → List Expr
  | .select _ columns _ _ _ _ => columns.filterMap ResultColumn.expr?
  | .values rows => (rows.head?).getD []
  | .combine _ a _ => firstColumns a
  | .sorted query _ _ _ => firstColumns query

/-- What a term of a grouping stands for, which may be a name that a column is given. -/
def groupMeaning (columns : List ResultColumn) (blank : Frame) (e : Expr) : Expr :=
  match groupTerm columns e with
  | .column none name marks =>
    if (Scope.fieldIn? none name blank).isSome then .column none name marks
    else (((givenNames columns).find? fun (given, _) => sameName given name).map (·.2)).getD e
  | e => e

/-- The words of an operation on two queries. -/
def SetOp.written : SetOp → String
  | union => "UNION"
  | unionAll => "UNION ALL"
  | intersect => "INTERSECT"
  | except => "EXCEPT"

/-- Refuses the name of a column that stands for nothing, or for several columns. -/
def checkColumn (scope : Scope) (table? : Option String) (name : String) (marks : Bool) :
    Result Unit :=
  let shown := (table?.map (· ++ ".")).getD "" ++ name
  match scope.frames.find? fun frame => (Scope.fieldIn? table? name frame).isSome with
  | none => if marks && table?.isNone then .ok () else refuse (.noSuchColumn shown)
  | some frame =>
    let plain := frame.countP fun field =>
      field.visibility == .plain && sameName field.name name &&
        (table?.map (sameName field.table)).getD true
    if 1 < plain then refuse (.ambiguousColumn shown) else .ok ()

mutual

/-- Refuses an expression with a name in it that stands for nothing. -/
def checkExpr : Nat → Scope → Expr → Result Unit
  | 0, _, _ => refuse .tooComplex
  | fuel + 1, scope, e =>
    let check := checkExpr fuel scope
    let ofQuery := fun query => checkQuery fuel { scope with group? := none } query
    let ofSingle := fun query => do
      checkSingle (← ofQuery query)
    match e with
    | .literal _ | .raise _ => .ok ()
    | .column table? name marks => checkColumn scope table? name marks
    | .unary _ a | .cast a _ => check a
    | .binary (.compare _) a b =>
      allChecks [check a, check b, checkCollation a, checkCollation b]
    | .binary _ a b => allChecks [check a, check b]
    | .between a b c => allChecks ([a, b, c].map check ++ [a, b, c].map checkCollation)
    | .among a items => allChecks ((a :: items).map check ++ [checkCollation a])
    | .amongRows a query => allChecks [check a, ofSingle query]
    | .choice subject? branches otherwise? =>
      allChecks ((subject?.toList ++ branches.flatMap (fun (a, b) => [a, b]) ++
        otherwise?.toList).map check)
    | .collate a _ => check a
    | .call function distinct arguments =>
      let isOfRows := isAggregate (Parser.folded function) arguments.length
      let within := if isOfRows then { scope with group? := none } else scope
      allChecks ([checkFunction function arguments.length,
        if isOfRows then checkAggregate scope function distinct arguments.length else .ok ()] ++
        arguments.map (checkExpr fuel within))
    | .anyRow query => do
      let _ ← ofQuery query
    | .firstValue query => ofSingle query

/-- The headings of a query, unless a name in it stands for nothing. -/
def checkQuery : Nat → Scope → Query → Result (List Heading)
  | 0, _, _ => refuse .tooComplex
  | fuel + 1, scope, query =>
    match query with
    | .sorted inner terms limit? offset? => do
      (limit?.toList ++ offset?.toList).forM (checkExpr fuel { store := scope.store })
      checkParts fuel scope (terms.map fun (.by e _) => e) inner
    | other => checkParts fuel scope [] other

/-- The headings of a query whose rows are put in order by some terms. -/
def checkParts : Nat → Scope → List Expr → Query → Result (List Heading)
  | 0, _, _, _ => refuse .tooComplex
  | fuel + 1, scope, terms, query =>
    match query with
    | .values rows => do
      rows.forM fun row => row.forM (checkExpr fuel scope)
      return valueHeadings rows
    | .combine op a b => do
      let others ← checkParts fuel scope [] b
      let headings ← checkParts fuel scope [] a
      if headings.length != others.length then refuse (.unevenSelects op.written)
      if op != .unionAll then
        (a.firstColumns ++ b.firstColumns).forM checkCollation
      let headings := headings.zipWith Heading.along others
      checkTerms "ORDER" headings.length terms
      match terms.findIdx? fun e => (orderPlace? headings e).isNone with
      | some i => refuse (.unmatchedTerm (i + 1))
      | none => return headings
    | .sorted .. => checkQuery fuel scope query
    | .select _ columns sources conditions groups having => do
      let blank ← checkSources fuel scope sources
      let within := scope.within blank
      columns.forM fun column => match column with
        | .single e _ _ => checkExpr fuel { within with group? := some [] } e
        | .all => if sources.isEmpty then refuse .noSources else return ()
        | .allOf table =>
          if blank.any fun field => sameName field.table table then return ()
          else refuse (.noSuchTable table)
      let headings := selectHeadings within blank columns
      let grouped := isGrouped columns groups
      let named := { within.alongside ((givenNames columns).map fun (name, _) =>
        { table := "", name, value := .null, visibility := .hidden : Field }) with
        group? := if grouped then some [] else none }
      if !grouped && !having.isEmpty then refuse .looseHaving
      let all := conditions ++ sources.flatMap fun source => match source with
        | .table _ _ _ onConditions | .query _ _ _ onConditions => onConditions
      (having ++ all).forM (checkExpr fuel named)
      checkNoAggregates all
      checkTerms "ORDER" headings.length terms
      let other := terms.filter fun e => (orderPlace? headings e).isNone
      other.forM (checkExpr fuel { named with group? := some [] })
      if !grouped then checkNoAggregates other
      checkTerms "GROUP" headings.length groups
      groups.forM (checkExpr fuel { named with group? := some [] })
      if (groups.map (groupMeaning columns blank)).any hasAggregate then refuse .groupedAggregate
      ((groups ++ terms).map (groupTerm columns)).forM checkCollation
      return headings

/-- The fields of sources without any rows. -/
def checkSources : Nat → Scope → List Source → Result Frame
  | 0, _, _ => refuse .tooComplex
  | fuel + 1, scope, sources =>
    match sources with
    | [] => return []
    | source :: rest => do
      let frame ← match source with
        | .table name alias? _ _ => do
          let relation ← checkTable fuel scope.store ("main." ++ name) name
          pure (relation.blankFrame (alias?.getD name))
        | .query query alias? _ _ => do
          let heading ← checkQuery fuel { store := scope.store } query
          query.firstColumns.forM checkCollation
          pure ((Relation.mk heading [] false).blankFrame (alias?.getD ""))
      return frame ++ (← checkSources fuel scope rest)

/-- What is told of the columns of a table or view, which is shown by a name if it is not
there. -/
def checkTable : Nat → Store → String → String → Result Relation
  | 0, _, _, _ => refuse .tooComplex
  | fuel + 1, store, shown, name =>
    match store.table? name, store.view? name with
    | some table, _ => return table.shape.relation #[]
    | none, some view => do
      let headings ← checkQuery fuel { store } view.query
      view.query.firstColumns.forM checkCollation
      if view.columns.isEmpty || view.columns.length = headings.length then
        return Relation.mk (viewHeadings view headings) [] false
      else refuse (.wrongViewWidth view.name view.columns.length headings.length)
    | none, none => refuse (.noSuchTable shown)

end

/-- Nothing is wrong with what is written out. -/
theorem checkExpr_literal (fuel : Nat) (scope : Scope) (value : Value) :
    checkExpr (fuel + 1) scope (.literal value) = .ok () := by
  simp [checkExpr]

/-- What is told of the columns of a table or view. -/
def Store.outline (store : Store) (name : String) : Result Relation :=
  checkTable depthLimit store name name

/-! ## Triggers -/

/-- Whether a trigger acts on an occasion. -/
def Occasion.covers : Occasion → Occasion → Bool
  | insertion, insertion | deletion, deletion => true
  | change wanted, change changed =>
    wanted.isEmpty || changed.any fun column => wanted.any (sameName column)
  | _, _ => false

/-- The triggers of a table for a moment and an occasion, the latest first. -/
def Store.triggersFor (store : Store) (table : String) (moment : Moment) (occasion : Occasion) :
    List Trigger :=
  (store.triggers.filter fun trigger =>
    sameName trigger.table table && trigger.moment == moment &&
      trigger.occasion.covers occasion).reverse

/-- The fields of a row as triggers know it: they need the name for the row, and nothing is
converted because of them. -/
def qualifiedFrame (frame : Frame) : Frame :=
  frame.map fun field => { field with visibility := .qualified, affinity? := none }

/-- The fields of the rows that triggers see on an occasion, without their values. -/
def Relation.sight (relation : Relation) (occasion : Occasion) : Frame :=
  let rows := match occasion with
    | .insertion => ["new"]
    | .deletion => ["old"]
    | .change _ => ["new", "old"]
  qualifiedFrame (rows.flatMap relation.blankFrame)

/-! ## Statements -/

/-- Refuses a row of a wrong number of values. -/
def checkWidth (table : String) (isNamed : Bool) (columns values : Nat) : Result Unit :=
  if values = columns then .ok ()
  else if isNamed then refuse (.wrongWidth columns values)
  else refuse (.wrongValueCount table columns values)

/-- As many values as columns are right. -/
theorem checkWidth_self (table : String) (isNamed : Bool) (columns : Nat) :
    checkWidth table isNamed columns columns = .ok () := by
  simp [checkWidth]

/-- The columns that a statement adds values to; the number of a row is no column. -/
def insertedColumns (shape : Shape) (table : String) (names : List String) :
    Result (List (Option Nat)) :=
  if names.isEmpty then
    .ok (((List.range shape.columns.length).filter fun i =>
      ((shape.columns[i]?).bind (·.generated?)).isNone).map some)
  else names.mapM fun name =>
    match shape.columnIndex? name with
    | some i =>
      match (shape.columns[i]?).bind fun column => column.generated?.map fun _ => column.name with
      | some generated => refuse (.generatedInsertion generated)
      | none => .ok (some i)
    | none =>
      if !shape.isKeyed && Relation.numberNames.contains (Parser.folded name) then .ok none
      else refuse (.noColumnNamed table name)

/-- The columns of a view that a statement adds values to. -/
def insertedNames (relation : Relation) (view : String) (names : List String) :
    Result (List String) := do
  names.forM fun name =>
    if (relation.columnIndex? name).isSome then .ok () else refuse (.noColumnNamed view name)
  return if names.isEmpty then relation.heading.map (·.name) else names

/-- The columns that a statement changes, with their new values. -/
def changedColumns (shape : Shape) (changes : List (String × Expr)) :
    Result (List (Nat × Expr)) :=
  changes.mapM fun (column, e) =>
    match shape.columnIndex? column with
    | some i =>
      if ((shape.columns[i]?).bind (·.generated?)).isSome then refuse (.generatedChange column)
      else .ok (i, e)
    | none => refuse (.noSuchColumn column)

/-- Refuses a view that no trigger takes changes for. -/
def checkView (store : Store) (view : String) (occasion : Occasion) : Result Unit :=
  if (store.triggersFor view .instead occasion).isEmpty then refuse (.viewUnchangeable view)
  else .ok ()

mutual

/-- Refuses a statement in sight of some rows for what is wrong with it whatever the rows are.
Triggers that are looked at already are left out. -/
def checkStatement : Nat → Store → List Frame → List String → Statement → Result Unit
  | 0, _, _, _, _ => refuse .tooComplex
  | fuel + 1, store, frames, seen, statement => do
    let scope : Scope := { store, frames }
    let within := fun (relation : Relation) (table : String) =>
      ({ store, frames := relation.blankFrame table :: frames } : Scope)
    let shown := fun name => if seen.isEmpty then name else "main." ++ name
    match statement with
    | .ask query =>
      let _ ← checkQuery depthLimit scope query
    | .insert _ name columns query? =>
      let relation ← checkTable depthLimit store (shown name) name
      let width ← match store.table? name, store.view? name with
        | some table, _ => pure (← insertedColumns table.shape name columns).length
        | none, some view => do
          checkView store view.name .insertion
          pure (← insertedNames relation name columns).length
        | none, none => pure 0
      query?.toList.forM fun query => do
        let heading ← checkQuery depthLimit scope query
        checkWidth name (!columns.isEmpty) width heading.length
      checkTriggers fuel store seen name relation .insertion
    | .delete name conditions =>
      let relation ← checkTable depthLimit store (shown name) name
      if (store.table? name).isNone then
        (store.view? name).toList.forM fun view => checkView store view.name .deletion
      conditions.forM (checkExpr depthLimit (within relation name))
      checkTriggers fuel store seen name relation .deletion
    | .update _ name changes conditions =>
      let relation ← checkTable depthLimit store (shown name) name
      let occasion := Occasion.change (changes.map (·.1))
      if (store.table? name).isNone then
        (store.view? name).toList.forM fun view => checkView store view.name occasion
      changes.forM fun (_, e) => checkExpr depthLimit (within relation name) e
      (store.table? name).toList.forM fun table => do
        let _ ← changedColumns table.shape changes
      conditions.forM (checkExpr depthLimit (within relation name))
      checkTriggers fuel store seen name relation occasion

/-- Refuses the triggers of a table or view. -/
def checkTriggers : Nat → Store → List String → String → Relation → Occasion → Result Unit
  | 0, _, _, _, _, _ => refuse .tooComplex
  | fuel + 1, store, seen, name, relation, occasion =>
    let all := [Moment.instead, .before, .after].flatMap fun moment =>
      store.triggersFor name moment occasion
    let frames := [relation.sight occasion]
    all.forM fun trigger =>
      if seen.contains trigger.name then return ()
      else do
        trigger.conditions.forM (checkExpr depthLimit { store, frames })
        trigger.statements.forM (checkStatement fuel store frames (trigger.name :: seen))

end

/-- How deep triggers are within each other. -/
def triggerLimit : Nat := 200

/-- Refuses a statement for what is wrong with it whatever the rows are. -/
def Store.check (store : Store) (statement : Statement) : Result Unit :=
  checkStatement triggerLimit store [] [] statement

end Relational
end FeatureCensus
