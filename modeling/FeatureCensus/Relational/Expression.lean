import FeatureCensus.Relational.Value

/-!
# Expressions and queries

The expressions of a database language: they compute a value from the columns of rows, and
may hold queries, which compute rows.  Statements change tables.

Main definitions:

- Definition {lit}`Relational.Expr`: the expressions.
- Definition {lit}`Relational.Query`: the queries.
- Definition {lit}`Relational.Statement`: the statements.
-/

namespace FeatureCensus
namespace Relational

/-- An operator with one operand. -/
inductive UnaryOp where
  | negate
  /-- Leaves the value as it is. -/
  | plus
  | complement
  | not
  deriving DecidableEq, Repr, Inhabited

/-- A comparison of two values. -/
inductive Comparison where
  | equal
  | notEqual
  | less
  | atMost
  | greater
  | atLeast
  /-- Equal, where nothing is equal to nothing. -/
  | same
  | notSame
  deriving DecidableEq, Repr, Inhabited

/-- An operator with two operands. -/
inductive BinaryOp where
  | or
  | and
  | compare (comparison : Comparison)
  | add
  | subtract
  | multiply
  | divide
  | remainder
  | concatenate
  | bitAnd
  | bitOr
  | shiftLeft
  | shiftRight
  deriving DecidableEq, Repr, Inhabited

/-- What happens where a row breaks a rule of its table. -/
inductive Reaction where
  /-- The statement fails. -/
  | abort
  /-- The row is left out. -/
  | ignore
  /-- The row takes the place of others. -/
  | replace
  deriving DecidableEq, Repr, Inhabited

/-- An operation on the rows of two queries. -/
inductive SetOp where
  | union
  | unionAll
  | intersect
  | except
  deriving DecidableEq, Repr, Inhabited

mutual

/-- An expression. -/
inductive Expr where
  | literal (value : Value)
  /-- A column.  If there is none of this name, the name in quotation marks is a text. -/
  | column (table? : Option String) (name : String) (marks : Bool)
  | unary (op : UnaryOp) (e : Expr)
  | binary (op : BinaryOp) (a b : Expr)
  | between (e low high : Expr)
  | among (e : Expr) (items : List Expr)
  | amongRows (e : Expr) (query : Query)
  /-- The first of the branches whose condition holds, or is equal to the subject. -/
  | choice (subject? : Option Expr) (branches : List (Expr × Expr)) (otherwise? : Option Expr)
  | cast (e : Expr) (affinity : Affinity)
  | collate (e : Expr) (collation : String)
  | call (function : String) (distinct : Bool) (arguments : List Expr)
  /-- Ends the work on a row, with an error if there is a message. -/
  | raise (message? : Option String)
  | anyRow (query : Query)
  /-- The first value of the first row. -/
  | firstValue (query : Query)

/-- A query. -/
inductive Query where
  | select (distinct : Bool) (columns : List ResultColumn) (sources : List Source)
      (conditions : List Expr) (groups : List Expr) (having : List Expr)
  | values (rows : List (List Expr))
  | combine (op : SetOp) (a b : Query)
  /-- The rows in order, of which some are skipped and some are left. -/
  | sorted (query : Query) (terms : List OrderTerm) (limit? offset? : Option Expr)

/-- A column of the rows of a query. -/
inductive ResultColumn where
  | all
  | allOf (table : String)
  | single (e : Expr) (name? : Option String) (written : String)

/-- A term of an order. -/
inductive OrderTerm where
  | by (e : Expr) (descending : Bool)

/-- Where the rows of a query come from.  A row of the sources before it that has no partner
is kept if the source is optional. -/
inductive Source where
  | table (name : String) (alias? : Option String) (optional : Bool) (conditions : List Expr)
  | query (query : Query) (alias? : Option String) (optional : Bool) (conditions : List Expr)

end

instance : Inhabited Expr := ⟨.literal .null⟩
instance : Inhabited Query := ⟨.values []⟩

/-- The expression that holds where all of some conditions hold. -/
def Expr.conjunction (conditions : List Expr) : Expr :=
  conditions.foldr (.binary .and) (.literal (.ofBool true))

/-- A statement that changes a table, or just asks. -/
inductive Statement where
  /-- Adds the rows of a query, or a row of defaults where there is none. -/
  | insert (reaction? : Option Reaction) (table : String) (columns : List String)
      (query? : Option Query)
  | update (reaction? : Option Reaction) (table : String) (changes : List (String × Expr))
      (conditions : List Expr)
  | delete (table : String) (conditions : List Expr)
  | ask (query : Query)
  deriving Inhabited

end Relational
end FeatureCensus
