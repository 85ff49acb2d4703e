import FeatureCensus.Relational.Expression
import FeatureCensus.Relational.Token

/-!
# Reading statements

Readers take tokens from the front of a statement.  An expression is an operand with tails, each
of which begins with an operator; how strongly operators bind tells where the other operand of
a tail ends.  What stands within an expression is read by readers that are given, so that a
bound on the depth closes the circle.

Main definitions:

- Definition {lit}`Relational.Parser.expression`: reads an expression.
- Definition {lit}`Relational.Parser.statement`: reads a statement.
-/

namespace FeatureCensus
namespace Relational

/-- A statement that is being read. -/
structure Reading where
  source : List Char
  tokens : List Token
  deriving Inhabited

/-- A reader, which may fail. -/
abbrev Parser (α : Type) := StateT Reading Option α

namespace Parser

variable {α : Type}

/-! ## Tokens -/

/-- The next token. -/
def token : Parser Token := do
  let reading ← get
  match reading.tokens with
  | [] => failure
  | t :: rest =>
    set { reading with tokens := rest }
    return t

/-- Reads what is there, or nothing. -/
def optional (p : Parser α) : Parser (Option α) :=
  (some <$> p) <|> pure none

/-- Reads again and again, at most so many times. -/
def manyUpTo (p : Parser α) : Nat → Parser (List α)
  | 0 => pure []
  | fuel + 1 => (do
    let first ← p
    return first :: (← manyUpTo p fuel)) <|> pure []

/-- Reads as often as there is something to read. -/
def many (p : Parser α) : Parser (List α) := do
  manyUpTo p (← get).tokens.length

/-- A token of a kind. -/
def kindOf (f : TokenKind → Option α) : Parser α := do
  match f (← token).kind with
  | some a => return a
  | none => failure

/-- A mark. -/
def mark (s : String) : Parser Unit :=
  kindOf fun kind => if kind == .mark s then some () else none

/-- One of the letters of the English alphabet in lower case, or any other character. -/
def folded (s : String) : String :=
  s.map Char.toLower

/-- A word, in whatever case it is written. -/
def word (s : String) : Parser Unit :=
  kindOf fun
    | .word written => if folded written == s then some () else none
    | _ => none

/-- Words one after the other. -/
def words (all : List String) : Parser Unit :=
  all.forM word

/-- Whether words come next; they are read if they do. -/
def hasWords (all : List String) : Parser Bool :=
  return (← optional (words all)).isSome

/-- Whether a mark comes next; it is read if it does. -/
def hasMark (s : String) : Parser Bool :=
  return (← optional (mark s)).isSome

/-- Items with commas between them. -/
def separated (p : Parser α) : Parser (List α) := do
  let first ← p
  return first :: (← many (mark "," *> p))

/-- Something in brackets. -/
def bracketed (p : Parser α) : Parser α := do
  mark "("
  let a ← p
  mark ")"
  return a

/-- Something together with its written form, without blanks around it. -/
def withSpan (p : Parser α) : Parser (α × String) := do
  let before ← get
  let a ← p
  let after ← get
  let read := before.tokens.take (before.tokens.length - after.tokens.length)
  let span := match read.head?, read.getLast? with
    | some first, some last => spanOf before.source first.start last.stop
    | _, _ => []
  return (a, String.ofList span)

/-! ## Names -/

/-- The words that are no names without quotes. -/
def reserved : List String :=
  ["add", "all", "alter", "and", "as", "autoincrement", "between", "case", "check", "collate",
    "commit", "constraint", "create", "default", "deferrable", "delete", "distinct", "drop",
    "else", "escape", "exists", "foreign", "from", "group", "having", "in", "index", "insert",
    "into", "is", "isnull", "join", "limit", "not", "nothing", "notnull", "null", "on", "or",
    "order", "primary", "references", "returning", "select", "set", "table", "then", "to",
    "transaction", "unique", "update", "using", "values", "when", "where", "union", "except",
    "intersect", "left", "inner", "cross", "natural", "outer", "right", "full"]

/-- A name. -/
def name : Parser String :=
  kindOf fun
    | .word s => if reserved.contains (folded s) then none else some s
    | .name s _ => some s
    | .text s => some s
    | _ => none

/-- A name that is told by the word before it, or stands alone. -/
def alias? : Parser (Option String) :=
  (word "as" *> (some <$> name)) <|> optional (kindOf fun
    | .word s => if reserved.contains (folded s) then none else some s
    | .name s _ => some s
    | .text s => some s
    | _ => none)

/-- The name of a table, of which the database is no matter. -/
def tableName : Parser String := do
  let first ← name
  if ← hasMark "." then name else return first

/-- A number with or without a sign. -/
def signedNumber : Parser Unit := do
  let _ ← optional (mark "+" <|> mark "-")
  kindOf fun
    | .number _ => some ()
    | _ => none

/-- The words that follow the type of a column. -/
def afterType : List String :=
  ["constraint", "primary", "not", "null", "unique", "check", "default", "collate", "references",
    "generated", "as"]

/-- The name of a type. -/
def typeName : Parser String := do
  let parts ← many (kindOf fun
    | .word s => if afterType.contains (folded s) then none else some s
    | .name s _ => some s
    | .text s => some s
    | _ => none)
  let size? ← optional (withSpan (bracketed (separated signedNumber)))
  return " ".intercalate parts ++ (size?.map (·.2)).getD ""

/-! ## Operators -/

/-- How strongly an operator binds. -/
abbrev Strength := Nat

namespace Strength

def weakest : Strength := 0
def disjunction : Strength := 1
def conjunction : Strength := 2
def negation : Strength := 3
def equality : Strength := 4
def order : Strength := 5
def bits : Strength := 6
def sum : Strength := 7
def product : Strength := 8
def concatenation : Strength := 9
def collation : Strength := 10

/-- The operator of a mark with its strength. -/
def ofMark? : String → Option (Strength × BinaryOp)
  | "=" | "==" => some (equality, .compare .equal)
  | "<>" | "!=" => some (equality, .compare .notEqual)
  | "<" => some (order, .compare .less)
  | "<=" => some (order, .compare .atMost)
  | ">" => some (order, .compare .greater)
  | ">=" => some (order, .compare .atLeast)
  | "&" => some (bits, .bitAnd)
  | "|" => some (bits, .bitOr)
  | "<<" => some (bits, .shiftLeft)
  | ">>" => some (bits, .shiftRight)
  | "+" => some (sum, .add)
  | "-" => some (sum, .subtract)
  | "*" => some (product, .multiply)
  | "/" => some (product, .divide)
  | "%" => some (product, .remainder)
  | "||" => some (concatenation, .concatenate)
  | _ => none

end Strength

/-- The readers of what stands within an expression: an expression whose operators bind at
least so strongly, and a query. -/
structure Inner where
  bound : Strength → Parser Expr
  query : Parser Query

/-- Any expression. -/
def Inner.any (inner : Inner) : Parser Expr :=
  inner.bound Strength.weakest

/-- Reads something if an operator of a strength may come. -/
def ifBound {α : Type} (least strength : Strength) (p : Parser α) : Parser α :=
  if least ≤ strength then p else failure

/-- A tail that begins with the mark of an operator. -/
def markTail (inner : Inner) (least : Strength) : Parser (Expr → Expr) := do
  let (strength, op) ← kindOf fun
    | .mark s => (Strength.ofMark? s).filter fun (strength, _) => least ≤ strength
    | _ => none
  let right ← inner.bound (strength + 1)
  return fun left => .binary op left right

/-- A tail that begins with the word of an operator. -/
def wordTail (inner : Inner) (least strength : Strength) (written : String) (op : BinaryOp) :
    Parser (Expr → Expr) :=
  ifBound least strength do
    word written
    let right ← inner.bound (strength + 1)
    return fun left => .binary op left right

/-- An expression that holds where another one does not. -/
def negated (negative : Bool) (e : Expr) : Expr :=
  if negative then .unary .not e else e

/-- The tail after a word that asks whether two values are the same. -/
def sameness (inner : Inner) : Parser (Expr → Expr) := do
  let negative ← hasWords ["not"]
  let distinct ← hasWords ["distinct", "from"]
  let truth := fun (b : Bool) (e : Expr) =>
    negated negative (.binary (.compare .same) (.unary .not (.unary .not e)) (.literal (.ofBool b)))
  (word "true" *> pure (truth true))
  <|> (word "false" *> pure (truth false))
  <|> (do
    let right ← inner.bound Strength.order
    return fun e => .binary (.compare (if negative != distinct then .notSame else .same)) e right)

/-- What may stand after a value and perhaps the word for the opposite. -/
def membership (inner : Inner) : Parser (Expr → Expr) :=
  (do
    word "in"
    bracketed (((fun query e => Expr.amongRows e query) <$> inner.query)
      <|> ((fun items e =>
          match items with
          | [.firstValue query] => Expr.amongRows e query
          | items => .among e items) <$> separated inner.any)
      <|> pure fun e => .among e []))
  <|> (do
    word "in"
    let table ← tableName
    return fun e => .amongRows e
      (.select false [.all] [.table table none false []] [] [] []))
  <|> (do
    let function ← (do word "like"; return "like") <|> (do word "glob"; return "glob")
    let pattern ← inner.bound Strength.order
    let escape ← optional (word "escape" *> inner.bound Strength.order)
    return fun e => .call function false ([pattern, e] ++ escape.toList))
  <|> (do
    word "between"
    let low ← inner.bound Strength.negation
    word "and"
    let high ← inner.bound Strength.order
    return fun e => .between e low high)

/-- A tail that asks what a value is. -/
def equalityTail (inner : Inner) : Parser (Expr → Expr) :=
  let null := Expr.literal .null
  (do word "isnull"; return fun e => .binary (.compare .same) e null)
    <|> (do word "notnull"; return fun e => .binary (.compare .notSame) e null)
    <|> (word "is" *> sameness inner)
    <|> membership inner

/-- A tail that begins with the word for the opposite. -/
def oppositeTail (inner : Inner) : Parser (Expr → Expr) := do
  word "not"
  (do
    word "null"
    return fun e => .binary (.compare .notSame) e (.literal .null))
  <|> (do
    let tail ← membership inner
    return fun e => .unary .not (tail e))

/-- A tail that tells the collation. -/
def collationTail : Parser (Expr → Expr) := do
  word "collate"
  let collation ← name
  return fun e => .collate e collation

/-- A tail whose operator binds at least so strongly. -/
def tail (inner : Inner) (least : Strength) : Parser (Expr → Expr) :=
  markTail inner least
    <|> wordTail inner least Strength.conjunction "and" .and
    <|> wordTail inner least Strength.disjunction "or" .or
    <|> ifBound least Strength.equality (equalityTail inner)
    <|> ifBound least Strength.negation (oppositeTail inner)
    <|> ifBound least Strength.collation collationTail

/-! ## Operands -/

/-- A value that is written out. -/
def literal : Parser Expr :=
  kindOf fun
    | .number value => some (.literal value)
    | .text s => some (.literal (.text s))
    | .bytes bytes => some (.literal (.blob bytes))
    | .word s =>
      match folded s with
      | "null" => some (.literal .null)
      | "current_timestamp" => some (.call "current_timestamp" false [])
      | "current_date" => some (.call "current_date" false [])
      | "current_time" => some (.call "current_time" false [])
      | _ => none
    | _ => none

/-- A choice between branches. -/
def choice (self : Parser Expr) : Parser Expr := do
  word "case"
  let subject? ← optional (do
    let next ← get
    let e ← self
    if (word "when").run next |>.isSome then failure else return e)
  let branches ← many do
    word "when"
    let condition ← self
    word "then"
    return (condition, ← self)
  let otherwise? ← optional (word "else" *> self)
  word "end"
  return .choice subject? branches otherwise?

/-- A call of a function. -/
def call (self : Parser Expr) : Parser Expr := do
  let function ← kindOf fun
    | .word s =>
      if ["not", "case", "in", "exists", "select", "values"].contains (folded s) then none
      else some s
    | .name s _ => some s
    | _ => none
  mark "("
  (do
    mark "*"
    mark ")"
    return .call function false [])
  <|> (do
    mark ")"
    return .call function false [])
  <|> (do
    let distinct ← hasWords ["distinct"]
    let arguments ← separated self
    mark ")"
    return .call function distinct arguments)

/-- What ends the work on a row. -/
def raise (self : Parser Expr) : Parser Expr := do
  word "raise"
  bracketed ((do word "ignore"; return .raise none)
    <|> (do
      word "abort" <|> word "fail" <|> word "rollback"
      mark ","
      match ← self with
      | .literal (.text message) => return .raise (some message)
      | .column none message _ => return .raise (some message)
      | _ => failure))

/-- A column, perhaps with its table. -/
def column : Parser Expr := do
  let part : Parser (String × Bool) := kindOf fun
    | .word s => if reserved.contains (folded s) then none else some (s, false)
    | .name s marks => some (s, marks)
    | _ => none
  let first ← part
  if ← hasMark "." then
    let second ← part
    if ← hasMark "." then
      let third ← part
      return .column (some second.1) third.1 false
    else return .column (some first.1) second.1 false
  else
    return match folded first.1 with
      | "true" => if first.2 then .column none first.1 true else .literal (.ofBool true)
      | "false" => if first.2 then .column none first.1 true else .literal (.ofBool false)
      | _ => .column none first.1 first.2

/-- Something written out, in brackets, or named. -/
def primary (inner : Inner) : Parser Expr :=
  bracketed (.firstValue <$> inner.query)
    <|> bracketed inner.any
    <|> choice inner.any
    <|> (word "cast" *> bracketed (do
      let e ← inner.any
      word "as"
      return .cast e (.ofType (folded (← typeName)))))
    <|> (word "exists" *> bracketed (.anyRow <$> inner.query))
    <|> raise inner.any
    <|> call inner.any
    <|> literal
    <|> column

/-- The sign in front of an operand. -/
def sign : Parser UnaryOp :=
  kindOf fun
    | .mark "-" => some .negate
    | .mark "+" => some .plus
    | .mark "~" => some .complement
    | _ => none

/-- An operand with its signs.  The word for the opposite takes all that binds more strongly. -/
def operand (inner : Inner) : Parser Expr := do
  let signs ← many sign
  let e ← (.unary .not <$> (word "not" *> inner.bound Strength.negation)) <|> primary inner
  return signs.foldr .unary e

/-- An expression whose operators bind at least so strongly. -/
def boundWith (inner : Inner) (least : Strength) : Parser Expr := do
  let first ← operand inner
  let tails ← many (tail inner least)
  return tails.foldl (fun e f => f e) first

/-! ## Queries -/

/-- A column of a result. -/
def resultColumn (self : Parser Expr) : Parser ResultColumn :=
  (do mark "*"; return .all)
  <|> (do
    let table ← name
    mark "."
    mark "*"
    return .allOf table)
  <|> (do
    let (e, written) ← withSpan self
    return .single e (← alias?) written)

/-- The conditions that partners of rows have to meet. -/
def onConditions (self : Parser Expr) : Parser (List Expr) := do
  return (← optional (word "on" *> self)).toList

/-- A source of rows. -/
def source (self : Parser Expr) (query : Parser Query) (isLeft : Bool) : Parser Source :=
  (do
    let inner ← bracketed query
    let given? ← alias?
    return .query inner given? isLeft (← onConditions self))
  <|> (do
    let table ← tableName
    let given? ← alias?
    return .table table given? isLeft (← onConditions self))

/-- What stands between two sources; tells whether rows without a partner are kept. -/
def joint : Parser Bool :=
  (do mark ","; return false)
  <|> (do
    word "left"
    let _ ← hasWords ["outer"]
    word "join"
    return true)
  <|> (do
    let _ ← optional (word "inner" <|> word "cross")
    word "join"
    return false)

/-- The sources of a query. -/
def sources (self : Parser Expr) (query : Parser Query) : Parser (List Source) := do
  let first ← source self query false
  let more ← many (do source self query (← joint))
  return first :: more

/-- A query without an order. -/
def simpleQuery (self : Parser Expr) (query : Parser Query) : Parser Query :=
  (do
    word "values"
    return .values (← separated (bracketed (separated self))))
  <|> (do
    word "select"
    let distinct ← hasWords ["distinct"]
    let _ ← hasWords ["all"]
    let columns ← separated (resultColumn self)
    let sources := (← optional (word "from" *> sources self query)).getD []
    let conditions := (← optional (word "where" *> self)).toList
    let groups := (← optional (words ["group", "by"] *> separated self)).getD []
    let having := (← optional (word "having" *> self)).toList
    return .select distinct columns sources conditions groups having)

/-- The name of an operation on two queries. -/
def setOp : Parser SetOp :=
  (words ["union", "all"] *> pure .unionAll) <|> (word "union" *> pure .union)
    <|> (word "intersect" *> pure .intersect) <|> (word "except" *> pure .except)

/-- A term of an order. -/
def orderTerm (self : Parser Expr) : Parser OrderTerm := do
  let e ← self
  let descending ← hasWords ["desc"]
  let _ ← hasWords ["asc"]
  return .by e descending

/-- A query in terms of what stands in brackets. -/
def queryWith (self : Parser Expr) (query : Parser Query) : Parser Query := do
  let first ← simpleQuery self query
  let more ← many do
    let op ← setOp
    return (op, ← simpleQuery self query)
  let combined := more.foldl (fun left (op, right) => .combine op left right) first
  let terms? ← optional (words ["order", "by"] *> separated (orderTerm self))
  let first? ← optional (word "limit" *> self)
  let count? ← if first?.isSome then optional (mark "," *> self) else pure none
  let skip? ← optional (word "offset" *> self)
  let (limit?, offset?) := if count?.isSome then (count?, first?) else (first?, skip?)
  if terms?.isNone && limit?.isNone then return combined
  else return .sorted combined (terms?.getD []) limit? offset?

mutual

/-- An expression whose operators bind at least so strongly, with at most so many others around
a part. -/
def boundUpTo : Nat → Strength → Parser Expr
  | 0, _ => failure
  | fuel + 1, least => fun reading =>
    boundWith ⟨boundUpTo fuel, queryUpTo fuel⟩ least reading

/-- A query with at most so many expressions around a part. -/
def queryUpTo : Nat → Parser Query
  | 0 => failure
  | fuel + 1 => fun reading =>
    queryWith (boundUpTo fuel Strength.weakest) (queryUpTo fuel) reading

end

/-- An expression. -/
def expression : Parser Expr := do
  boundUpTo ((← get).tokens.length + 1) Strength.weakest

/-- A query. -/
def query : Parser Query := do
  queryUpTo ((← get).tokens.length + 1)

/-! ## Statements -/

/-- What happens where a rule is broken, if it is told. -/
def reaction? (before : List String) : Parser (Option Reaction) :=
  optional do
    words before
    (word "replace" *> pure .replace) <|> (word "ignore" *> pure .ignore)
      <|> ((word "abort" <|> word "fail" <|> word "rollback") *> pure .abort)

/-- The conditions on rows. -/
def conditions : Parser (List Expr) := do
  return (← optional (word "where" *> expression)).toList

/-- A statement that adds rows. -/
def insertion : Parser Statement := do
  let reaction? ← (do word "replace"; return some .replace)
    <|> (do word "insert"; reaction? ["or"])
  word "into"
  let table ← tableName
  let _ ← optional (word "as" *> name)
  let columns := (← optional (bracketed (separated name))).getD []
  if ← hasWords ["default", "values"] then return .insert reaction? table [] none
  else return .insert reaction? table columns (some (← query))

/-- A change of a column. -/
def change : Parser (String × Expr) := do
  let column ← name
  mark "="
  return (column, ← expression)

/-- A statement. -/
def statement : Parser Statement :=
  insertion
  <|> (do
    word "update"
    let told? ← reaction? ["or"]
    let table ← tableName
    word "set"
    let changes ← separated change
    return .update told? table changes (← conditions))
  <|> (do
    words ["delete", "from"]
    let table ← tableName
    return .delete table (← conditions))
  <|> (.ask <$> query)

/-- Reads all of a statement. -/
def readAll (p : Parser α) (source : String) : Option α :=
  match p.run ⟨source.toList, Token.of source⟩ with
  | some (a, reading) => if reading.tokens.isEmpty then some a else none
  | none => none

end Parser
end Relational
end FeatureCensus
