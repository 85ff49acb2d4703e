import FeatureCensus.Relational.Store

/-!
# Operators and functions

What operators and functions make of values.  Nothing in an operand mostly gives nothing.
Before values are compared, one of them may be converted to what the other one prefers.

Main definitions:

- Definition {lit}`Relational.BinaryOp.value`: what an operator makes of two operands.
- Definition {lit}`Relational.functionValue`: what a function makes of its arguments.
- Definition {lit}`Relational.aggregateValue`: what a function makes of the values of rows.
-/

namespace FeatureCensus
namespace Relational

open Text

/-! ## Comparisons -/

/-- A value with what it prefers, if it comes from a column or a cast. -/
structure Operand where
  value : Value
  affinity? : Option Affinity := none
  deriving Inhabited

/-- The affinity in which two operands are compared, if they are converted at all. -/
def commonAffinity? (a b : Operand) : Option Affinity :=
  match a.affinity?, b.affinity? with
  | some x, some y => if x.isNumeric || y.isNumeric then some .numeric else none
  | some x, none | none, some x => if x.isNumeric then some .numeric else some x
  | none, none => none

/-- A value as it is compared in an affinity with another one. -/
def comparable (affinity? : Option Affinity) (value other : Value) : Value :=
  match affinity? with
  | some .numeric => match value with
    | .text s => (Affinity.numberOf? s).getD value
    | _ => value
  | some .text => match other with
    | .text _ | .brokenText _ => Affinity.text.convert value
    | _ => value
  | _ => value

/-- The order of two operands. -/
def Operand.order (collation : Collation) (a b : Operand) : Ordering :=
  let affinity? := commonAffinity? a b
  Value.order collation (comparable affinity? a.value b.value)
    (comparable affinity? b.value a.value)

namespace Comparison

/-- Whether a comparison holds for an order. -/
def holds : Comparison → Ordering → Bool
  | equal, o | same, o => o == .eq
  | notEqual, o | notSame, o => o != .eq
  | less, o => o == .lt
  | atMost, o => o != .gt
  | greater, o => o == .gt
  | atLeast, o => o != .lt

/-- The value of a comparison. -/
def value (comparison : Comparison) (collation : Collation) (a b : Operand) : Value :=
  if comparison != same && comparison != notSame && (a.value == .null || b.value == .null) then
    .null
  else .ofBool (comparison.holds (Operand.order collation a b))

end Comparison

/-! ## Numbers -/

/-- The sum, difference or product of integers, or of the nearest real numbers where it has
more than 64 bits. -/
def ofIntegers (n : Int) (real : Option Binary) : Value :=
  if isWord n then .integer n else .ofBinary? real

/-- What an operator on numbers gives. -/
def arithmetic (op : BinaryOp) (a b : Value) : Value :=
  let x := a.toBinary
  let y := b.toBinary
  match op, a.toNumber, b.toNumber with
  | _, .null, _ | _, _, .null => .null
  | .add, .integer m, .integer n => ofIntegers (m + n) (x.add? y)
  | .subtract, .integer m, .integer n => ofIntegers (m - n) (x.add? y.neg)
  | .multiply, .integer m, .integer n => ofIntegers (m * n) (x.mul? y)
  | .divide, .integer m, .integer n =>
    if n = 0 then .null else ofIntegers (m.tdiv n) (x.div? y)
  | .remainder, m, n =>
    let k := n.toInt
    let whole : Int := if k = 0 then 0 else (m.toInt).tmod k
    match m, n with
    | .integer _, .integer _ => if k = 0 then .null else .integer whole
    | _, _ => if k = 0 then .null else .real (.ofInt whole)
  | .add, _, _ => .ofBinary? (x.add? y)
  | .subtract, _, _ => .ofBinary? (x.add? y.neg)
  | .multiply, _, _ => .ofBinary? (x.mul? y)
  | .divide, _, _ => .ofBinary? (x.div? y)
  | _, _, _ => .null

/-- The integer of 64 bits that a number stands for. -/
def toWord (n : Nat) : Value :=
  .integer (Int.bmod n (twoPow 64))

/-- The bits of an integer. -/
def bitsOf (n : Int) : Nat :=
  (n % twoPow 64).toNat

/-- An integer whose bits are moved so far to the left, or to the right where the distance is
negative. -/
def shifted (n : Int) (distance : Int) : Value :=
  if 64 ≤ distance then .integer 0
  else if distance ≤ -64 then .integer (if n < 0 then -1 else 0)
  else if 0 ≤ distance then toWord (bitsOf n * twoPow distance.toNat)
  else .integer (n / twoPow (-distance).toNat)

namespace BinaryOp

/-- What an operator gives that asks for both of its operands and compares none. -/
def value (op : BinaryOp) (a b : Value) : Value :=
  if a == .null || b == .null then .null
  else match op with
    | concatenate => .text (a.toText ++ b.toText)
    | bitAnd => toWord (bitsOf a.toInt &&& bitsOf b.toInt)
    | bitOr => toWord (bitsOf a.toInt ||| bitsOf b.toInt)
    | shiftLeft => shifted a.toInt b.toInt
    | shiftRight => shifted a.toInt (-b.toInt)
    | op => arithmetic op a b

end BinaryOp

/-- What an operator with one operand gives. -/
def UnaryOp.value (op : UnaryOp) (a : Value) : Value :=
  match op with
  | .plus => a
  | .not => (a.truth?.map fun b => Value.ofBool !b).getD .null
  | .complement => if a == .null then .null else .integer (-a.toInt - 1)
  | .negate => BinaryOp.value .subtract (.integer 0) a

/-! ## Patterns -/

/-- Whether a text matches a pattern with wildcards for any characters and for one.  The
state is what is left of the pattern; the fuel bounds the characters of both. -/
def matchesWith (same : Char → Char → Bool) (any one : Char) (escape? : Option Char) :
    Nat → List Char → List Char → Bool
  | 0, _, _ => false
  | _ + 1, [], text => text.isEmpty
  | fuel + 1, p :: pattern, text =>
    if some p == escape? then
      match pattern, text with
      | q :: rest, c :: more => same q c && matchesWith same any one escape? fuel rest more
      | _, _ => false
    else if p == any then
      matchesWith same any one escape? fuel pattern text ||
        match text with
        | [] => false
        | _ :: more => matchesWith same any one escape? fuel (p :: pattern) more
    else match text with
      | [] => false
      | c :: more =>
        (p == one || same p c) && matchesWith same any one escape? fuel pattern more

/-- Whether a text matches a pattern; the case of letters does not count. -/
def matchesLike (escape? : Option Char) (pattern text : List Char) : Bool :=
  matchesWith (fun a b => a.toLower == b.toLower) '%' '_' escape?
    (pattern.length + text.length + 1) pattern text

/-- Whether a character is in a class of a pattern, up to its closing bracket, and what is
left of the pattern. -/
def inClass (c : Char) : Bool → List Char → Bool × List Char
  | found, [] => (found, [])
  | found, ']' :: rest => (found, rest)
  | found, a :: '-' :: b :: rest =>
    if b == ']' then (found || c == a || c == '-', rest)
    else inClass c (found || (a ≤ c && c ≤ b)) rest
  | found, a :: rest => inClass c (found || c == a) rest

/-- Whether a text matches a pattern with the wildcards of file names. -/
def matchesGlob : Nat → List Char → List Char → Bool
  | 0, _, _ => false
  | _ + 1, [], text => text.isEmpty
  | fuel + 1, p :: pattern, text =>
    if p == '*' then
      matchesGlob fuel pattern text ||
        match text with
        | [] => false
        | _ :: more => matchesGlob fuel (p :: pattern) more
    else match text with
      | [] => false
      | c :: more =>
        if p == '[' then
          let (opposite, body) := match pattern with
            | '^' :: rest => (true, rest)
            | rest => (false, rest)
          let (found, rest) := match body with
            | ']' :: more => inClass c (c == ']') more
            | body => inClass c false body
          (found != opposite) && matchesGlob fuel rest more
        else (p == '?' || p == c) && matchesGlob fuel pattern more

/-! ## Functions of values -/

/-- The part of a list from a place on, which counts from one, or from the end where it is
negative; a negative length takes what stands before. -/
def partOf {α : Type} (items : List α) (start : Int) (length? : Option Int) : List α :=
  let size : Int := items.length
  let first : Int := if 0 < start then start - 1 else if start < 0 then size + start else -1
  let (low, high) := match length? with
    | none => (if start = 0 then 0 else first, size)
    | some length => if 0 ≤ length then (first, first + length) else (first + length, first)
  let low' := (max low 0).toNat
  (items.drop low').take ((max high 0).toNat - low')

/-- The place of a list within another one, counted from one, or zero. -/
def placeOf {α : Type} [BEq α] (part : List α) : Nat → List α → Nat
  | place, [] => if part.isEmpty then place + 1 else 0
  | place, x :: rest =>
    if part.isPrefixOf (x :: rest) then place + 1 else placeOf part (place + 1) rest

/-- A list in which a part is replaced wherever it stands. -/
def replaceIn (part by' : List Char) : Nat → List Char → List Char
  | 0, cs => cs
  | _ + 1, [] => []
  | fuel + 1, c :: rest =>
    if part.isPrefixOf (c :: rest) then
      by' ++ replaceIn part by' fuel ((c :: rest).drop part.length)
    else c :: replaceIn part by' fuel rest

/-- A number rounded to so many places; a half is rounded away from zero. -/
def roundedTo (x : Binary) (places : Nat) : Value :=
  match x.magnitude? with
  | none => .real x
  | some (num, den) =>
    let scale := tenPow places
    .real (.ofQuotient x.isNegative ((2 * num * scale + den) / (2 * den)) scale)

/-- The hexadecimal digits of bytes. -/
def hexText (bytes : Bytes) : String :=
  String.ofList (bytes.flatMap fun b =>
    [Nat.digitChar (b.toNat / 16), Nat.digitChar (b.toNat % 16)].map Char.toUpper)

/-- The written form of a value in statements. -/
def quotedValue : Value → String
  | .null => "NULL"
  | .integer n => toString n
  | .real x => Value.realText x
  | .blob bytes => "X'" ++ hexText bytes ++ "'"
  | value => "'" ++ String.ofList (value.toText.toList.flatMap fun c =>
      if c == '\'' then ['\'', '\''] else [c]) ++ "'"

/-- The name of the sort of a value. -/
def sortName : Value → String
  | .null => "null"
  | .integer _ => "integer"
  | .real _ => "real"
  | .text _ | .brokenText _ => "text"
  | .blob _ => "blob"

/-- A text without the given characters at its ends. -/
def trimText (front back : Bool) (marks : List Char) (cs : List Char) : List Char :=
  let cs := if front then cs.dropWhile marks.contains else cs
  if back then (cs.reverse.dropWhile marks.contains).reverse else cs

/-- The number that a value is, or that its text is as a whole. -/
def numericValue? : Value → Option Value
  | .integer n => some (.integer n)
  | .real x => some (.real x)
  | .text s => Affinity.numberOf? s
  | _ => none

/-- The functions that tell the time, which is always the same one. -/
def clockFunctions : List String :=
  ["current_timestamp", "current_date", "current_time", "datetime", "date", "time", "strftime",
    "julianday", "unixepoch", "random"]

/-- What a function gives for values none of which is nothing. -/
def presentValue? (function : String) (arguments : List Value) : Option Value :=
  match function, arguments with
  | "abs", [value] => some (match value.toBinary with
    | .finite _ significand exponent => .real (.finite false significand exponent)
    | .infinite _ => .real (.infinite false))
  | "length", [.blob bytes] => some (.integer bytes.length)
  | "length", [value] => some (.integer value.toText.length)
  | "lower", [value] => some (.text (value.toText.map Char.toLower))
  | "upper", [value] => some (.text (value.toText.map Char.toUpper))
  | "sign", [value] =>
    (numericValue? value).map fun number =>
      match Value.order .binary number (.integer 0) with
      | .lt => .integer (-1)
      | .eq => .integer 0
      | .gt => .integer 1
  | "hex", [value] => some (.text (hexText value.toBytes))
  | "unicode", [value] =>
    some ((value.toText.toList.head?.map fun c => Value.integer c.toNat).getD .null)
  | "round", [value] => some (roundedTo value.toBinary 0)
  | "round", [value, places] => some (roundedTo value.toBinary (min places.toInt.toNat 30))
  | "instr", [.blob a, .blob b] => some (.integer (placeOf b 0 a))
  | "instr", [a, b] => some (.integer (placeOf b.toText.toList 0 a.toText.toList))
  | "replace", [a, b, c] =>
    let part := b.toText.toList
    some (.text (if part.isEmpty then a.toText
      else String.ofList (replaceIn part c.toText.toList (a.toText.length + 1) a.toText.toList)))
  | "trim", [a] => some (.text (String.ofList (trimText true true [' '] a.toText.toList)))
  | "ltrim", [a] => some (.text (String.ofList (trimText true false [' '] a.toText.toList)))
  | "rtrim", [a] => some (.text (String.ofList (trimText false true [' '] a.toText.toList)))
  | "trim", [a, b] =>
    some (.text (String.ofList (trimText true true b.toText.toList a.toText.toList)))
  | "ltrim", [a, b] =>
    some (.text (String.ofList (trimText true false b.toText.toList a.toText.toList)))
  | "rtrim", [a, b] =>
    some (.text (String.ofList (trimText false true b.toText.toList a.toText.toList)))
  | "like", [pattern, text] =>
    some (.ofBool (matchesLike none pattern.toText.toList text.toText.toList))
  | "like", [pattern, text, escape] =>
    some (.ofBool (matchesLike escape.toText.toList.head? pattern.toText.toList
      text.toText.toList))
  | "glob", [pattern, text] =>
    let (p, t) := (pattern.toText.toList, text.toText.toList)
    some (.ofBool (matchesGlob (p.length + t.length + 1) p t))
  | function, .blob bytes :: start :: rest =>
    if function == "substr" || function == "substring" then
      some (.blob (partOf bytes start.toInt (rest.head?.map Value.toInt)))
    else none
  | function, value :: start :: rest =>
    if function == "substr" || function == "substring" then
      some (.text (String.ofList
        (partOf value.toText.toList start.toInt (rest.head?.map Value.toInt))))
    else none
  | _, _ => none

/-- The greatest or least of some values, or nothing if one of them is. -/
def extreme (wanted : Ordering) (collation : Collation) : List Value → Value
  | [] => .null
  | first :: rest =>
    if (first :: rest).contains .null then .null
    else rest.foldl (fun best value =>
      if Value.order collation value best == wanted then value else best) first

/-- The functions of values and how many of them they take. -/
def functionArities : List (String × List Nat) :=
  [("abs", [1]), ("length", [1]), ("lower", [1]), ("upper", [1]), ("sign", [1]), ("hex", [1]),
    ("unicode", [1]), ("round", [1, 2]), ("instr", [2]), ("replace", [3]), ("trim", [1, 2]),
    ("ltrim", [1, 2]), ("rtrim", [1, 2]), ("like", [2, 3]), ("glob", [2]), ("substr", [2, 3]),
    ("substring", [2, 3]), ("typeof", [1]), ("quote", [1]), ("nullif", [2]), ("ifnull", [2]),
    ("iif", [3])]

/-- The functions that take any number of values from a least number on. -/
def openFunctions : List (String × Nat) :=
  clockFunctions.map (·, 0) ++ [("char", 0), ("coalesce", 2), ("min", 1), ("max", 1)]

/-- What a function gives. -/
def functionValue (function : String) (collation : Collation) (arguments : List Value) :
    Result Value :=
  if clockFunctions.contains function then .ok (.text "2000-01-01 00:00:00")
  else if function == "min" && 1 < arguments.length then .ok (extreme .lt collation arguments)
  else if function == "max" && 1 < arguments.length then .ok (extreme .gt collation arguments)
  else if function == "char" then
    .ok (.text (String.ofList (arguments.map fun a => Char.ofNat a.toInt.toNat)))
  else match functionArities.lookup function with
    | none => refuse (.noSuchFunction function)
    | some arities =>
      if !arities.contains arguments.length then refuse (.wrongArguments function)
      else match function, arguments with
        | "typeof", [value] => .ok (.text (sortName value))
        | "quote", [value] => .ok (.text (quotedValue value))
        | "nullif", [a, b] => .ok (if Value.order collation a b == .eq then .null else a)
        | "hex", [.null] => .ok (.text "")
        | "abs", [.integer n] =>
          if isWord n.natAbs then .ok (.integer n.natAbs) else refuse .tooGreat
        | _, _ =>
          if arguments.contains .null then .ok .null
          else .ok ((presentValue? function arguments).getD .null)

/-! ## Functions of many rows -/

/-- The functions of many rows and how many values of a row they take. -/
def aggregateArities : List (String × List Nat) :=
  [("count", [0, 1]), ("sum", [1]), ("total", [1]), ("avg", [1]), ("min", [1]), ("max", [1]),
    ("group_concat", [1, 2])]

/-- Whether a function is one of many rows, with so many arguments. -/
def isAggregate (function : String) (count : Nat) : Bool :=
  (aggregateArities.lookup function).isSome &&
    !((function == "min" || function == "max") && 1 < count)

/-- The sum of values as real numbers. -/
def realSum (values : List Value) : Value :=
  values.foldl (fun sum value => arithmetic .add sum (.real value.toBinary)) (.real (.zero false))

/-- The integer that a value is, or that its text is as a whole. -/
def wholeNumber? (value : Value) : Option Int :=
  match numericValue? value with
  | some (.integer n) => some n
  | _ => none

/-- The sum of some integers, none of whose first parts has more than 64 bits. -/
def wordSum? (numbers : List Int) : Option Int :=
  numbers.foldlM (fun sum n => if isWord (sum + n) then some (sum + n) else none) 0

/-- The sum of values: an integer if all of them are. -/
def sumOf (values : List Value) : Result Value :=
  match values.mapM wholeNumber? with
  | none => .ok (realSum values)
  | some numbers =>
    match wordSum? numbers with
    | some n => .ok (.integer n)
    | none => refuse .tooGreat

/-- What a function of many rows gives for the values that are there. -/
def aggregateValue (function : String) (collation : Collation) (separator : String)
    (values : List Value) : Result Value :=
  match function with
  | "count" => .ok (.integer values.length)
  | "total" => .ok (realSum values)
  | "min" => .ok (extreme .lt collation values)
  | "max" => .ok (extreme .gt collation values)
  | "avg" =>
    .ok (if values.isEmpty then .null
      else arithmetic .divide (realSum values) (.integer values.length))
  | "sum" => if values.isEmpty then .ok .null else sumOf values
  | _ =>
    .ok (if values.isEmpty then .null else .text (separator.intercalate (values.map Value.toText)))

end Relational
end FeatureCensus
