import FeatureCensus.Numeral
import FeatureCensus.Text.Utf8

/-!
# Values of tables

The values that tables hold: nothing, numbers, texts and bytes.  A column may prefer some
sort of values; a value that comes into it is converted where nothing is lost.  Values of
different sorts are ordered by their sorts, and texts as a collation tells.

Main definitions:

- Definition {lit}`Relational.Value`: the values.
- Definition {lit}`Relational.Value.order`: the order of values.
- Definition {lit}`Relational.Affinity.convert`: the conversion of a value that comes into a
  column.
-/

namespace FeatureCensus
namespace Relational

open Text

/-- A value of a table. -/
inductive Value where
  | null
  | integer (n : Int)
  | real (x : Binary)
  | text (s : String)
  /-- A text whose bytes stand for no characters. -/
  | brokenText (bytes : Bytes)
  | blob (bytes : Bytes)
  deriving DecidableEq, Repr, Inhabited

/-! ## Numbers in texts -/

/-- Whether a character is a blank around numbers. -/
def isSpace (c : Char) : Bool :=
  c == ' ' || (9 ≤ c.toNat && c.toNat ≤ 13)

/-- The least integer of 64 bits. -/
def leastWord : Int := -9223372036854775808

/-- The greatest integer of 64 bits. -/
def greatestWord : Int := 9223372036854775807

/-- Whether an integer has at most 64 bits. -/
def isWord (n : Int) : Bool :=
  leastWord ≤ n && n ≤ greatestWord

/-- A number at the front of a text. -/
structure Scan where
  number : Decimal
  /-- There is neither a point nor a power of ten. -/
  isWhole : Bool
  /-- What follows the number, without blanks at its front. -/
  rest : List Char
  deriving Repr, Inhabited

namespace Scan

/-- The number that digits stand for. -/
def digitsValue (digits : List Char) : Nat :=
  digits.foldl (fun n c => n * 10 + (c.toNat - 48)) 0

/-- The exponent at the front of a text and what follows it. -/
def exponent? : List Char → Option (Int × List Char)
  | e :: rest =>
    if e == 'e' || e == 'E' then
      let (negative, digits) := match rest with
        | '-' :: more => (true, more)
        | '+' :: more => (false, more)
        | more => (false, more)
      let found := digits.takeWhile Char.isDigit
      if found.isEmpty then none
      else some (if negative then -(digitsValue found : Int) else digitsValue found,
        digits.dropWhile Char.isDigit)
    else none
  | [] => none

/-- Reads the number of a sign, which has a digit at least. -/
def ofUnsigned? (negative : Bool) (cs : List Char) : Option Scan :=
  let whole := cs.takeWhile Char.isDigit
  let (fraction?, rest) : Option (List Char) × List Char :=
    match cs.dropWhile Char.isDigit with
    | '.' :: more => (some (more.takeWhile Char.isDigit), more.dropWhile Char.isDigit)
    | more => (none, more)
  let digits := whole ++ fraction?.getD []
  let places : Int := (fraction?.getD []).length
  if digits.isEmpty then none
  else match exponent? rest with
    | some (exponent, after) =>
      some ⟨⟨negative, digitsValue digits, exponent - places⟩, false, after.dropWhile isSpace⟩
    | none =>
      some ⟨⟨negative, digitsValue digits, -places⟩, fraction?.isNone, rest.dropWhile isSpace⟩

/-- Reads the number at the front of a text. -/
def ofChars? (cs : List Char) : Option Scan :=
  match cs.dropWhile isSpace with
  | '-' :: rest => ofUnsigned? true rest
  | '+' :: rest => ofUnsigned? false rest
  | rest => ofUnsigned? false rest

/-- The integer of a number with a sign. -/
def toInt (scan : Scan) : Int :=
  if scan.number.negative then -(scan.number.digits : Int) else scan.number.digits

/-- The value of a number: an integer if it is whole and has at most 64 bits. -/
def toValue (scan : Scan) : Value :=
  if scan.isWhole && isWord scan.toInt then .integer scan.toInt
  else .real (.ofDecimal scan.number)

end Scan

namespace Value

/-- The value of a truth value. -/
def ofBool (b : Bool) : Value :=
  .integer (if b then 1 else 0)

/-- The value of a result that may be no number. -/
def ofBinary? : Option Binary → Value
  | some x => .real x
  | none => .null

/-! ## Texts -/

/-- The style of numbers in texts. -/
def textStyle : Numeral.Style :=
  ⟨-4, 14, true, "Inf"⟩

/-- The number of digits of numbers in texts. -/
def textDigits : Nat := 15

/-- The text of a number with a fraction. -/
def realText (x : Binary) : String :=
  match x.magnitude? with
  | some (0, _) => "0.0"
  | some (num, den) =>
    (if x.isNegative then "-" else "") ++ (Numeral.rounded num den textDigits).text textStyle
  | none => (if x.isNegative then "-" else "") ++ textStyle.infinity

/-- The text that stands for a value. -/
def toText : Value → String
  | null => ""
  | integer n => toString n
  | real x => realText x
  | text s => s
  | brokenText bytes | blob bytes => decodeLenient bytes

/-- The bytes that stand for a value. -/
def toBytes : Value → Bytes
  | brokenText bytes | blob bytes => bytes
  | value => encode value.toText

/-! ## Numbers -/

/-- The integer that a real number is equal to, if it is not at the end of the range. -/
def wholeReal? (x : Binary) : Option Int :=
  x.toInt?.filter fun n => leastWord < n && n < greatestWord

/-- The number that a value counts as in computation.  A text counts as the number at its
front, and as zero without one. -/
def toNumber : Value → Value
  | null => null
  | integer n => integer n
  | real x => real x
  | value => ((Scan.ofChars? value.toText.toList).map Scan.toValue).getD (integer 0)

/-- A number as a binary one; anything else counts as zero. -/
def toBinary (value : Value) : Binary :=
  match value.toNumber with
  | integer n => .ofInt n
  | real x => x
  | _ => .zero false

/-- The integer nearest to a real number on the side of zero, within the range. -/
def clampReal (x : Binary) : Int :=
  match x.wholePart? with
  | some n => max leastWord (min n greatestWord)
  | none => if x.isNegative then leastWord else greatestWord

/-- The integer that a value counts as.  A text counts as the integer at its front. -/
def toInt : Value → Int
  | null => 0
  | integer n => n
  | real x => clampReal x
  | value =>
    match Scan.ofChars? (value.toText.toList.dropWhile isSpace |>.takeWhile fun c =>
        c.isDigit || c == '-' || c == '+') with
    | some scan => max leastWord (min scan.toInt greatestWord)
    | none => 0

/-- Whether a value counts as true, or nothing where it is null. -/
def truth? : Value → Option Bool
  | null => none
  | integer n => some (n != 0)
  | value => some !value.toBinary.isZero

/-! ## Order -/

/-- The place of the sort of a value among all sorts. -/
def rank : Value → Nat
  | null => 0
  | integer _ | real _ => 1
  | text _ | brokenText _ => 2
  | blob _ => 3

end Value

/-- How texts are compared. -/
inductive Collation where
  | binary
  /-- Letters of the English alphabet are the same in both cases. -/
  | noCase
  /-- Blanks at the end do not count. -/
  | trimmed
  deriving DecidableEq, Repr, Inhabited

namespace Collation

/-- The collation of a name in lower case. -/
def ofName? : String → Option Collation
  | "binary" => some binary
  | "nocase" => some noCase
  | "rtrim" => some trimmed
  | _ => none

/-- The characters that are compared. -/
def key (collation : Collation) (cs : List Char) : List Char :=
  match collation with
  | binary => cs
  | noCase => cs.map Char.toLower
  | trimmed => (cs.reverse.dropWhile (· == ' ')).reverse

/-- The order of two lists of numbers. -/
def orderOfCodes : List Nat → List Nat → Ordering
  | [], [] => .eq
  | [], _ :: _ => .lt
  | _ :: _, [] => .gt
  | a :: as, b :: bs => (compare a b).then (orderOfCodes as bs)

/-- The order of two texts. -/
def order (collation : Collation) (s t : String) : Ordering :=
  orderOfCodes ((collation.key s.toList).map Char.toNat) ((collation.key t.toList).map Char.toNat)

end Collation

namespace Value

/-- The order of two numbers. -/
def orderOfNumbers : Value → Value → Ordering
  | integer m, integer n => compare m n
  | integer m, real x =>
    match x.fraction? with
    | some (num, den) => compare (m * den) num
    | none => if x.isNegative then .gt else .lt
  | real x, integer m =>
    match x.fraction? with
    | some (num, den) => compare num (m * den)
    | none => if x.isNegative then .lt else .gt
  | real x, real y => x.order y
  | _, _ => .eq

/-- The order of two values: by their sorts, and then within a sort. -/
def order (collation : Collation) (a b : Value) : Ordering :=
  (compare a.rank b.rank).then
    (match a.rank with
      | 0 => .eq
      | 1 => orderOfNumbers a b
      | 2 => collation.order a.toText b.toText
      | _ => Collation.orderOfCodes (a.toBytes.map UInt8.toNat) (b.toBytes.map UInt8.toNat))

/-- Whether two values are equal in order. -/
def same (collation : Collation) (a b : Value) : Bool :=
  match collation, a, b with
  | .binary, text s, text t => s == t
  | _, integer m, integer n => m == n
  | _, _, _ => order collation a b == .eq

end Value

/-! ## Affinities -/

/-- The sort of values that a column prefers. -/
inductive Affinity where
  | text
  | numeric
  | integer
  | real
  /-- Values are left as they are. -/
  | blob
  deriving DecidableEq, Repr, Inhabited

namespace Affinity

/-- Whether a list of characters stands somewhere in another one. -/
def occurs (part : List Char) : List Char → Bool
  | [] => part.isEmpty
  | c :: rest => part.isPrefixOf (c :: rest) || occurs part rest

/-- The affinity of a column whose type is named so in lower case. -/
def ofType (name : String) : Affinity :=
  let names := fun part : String => occurs part.toList name.toList
  if names "int" then integer
  else if names "char" || names "clob" || names "text" then text
  else if names "blob" || name.isEmpty then blob
  else if names "real" || names "floa" || names "doub" then real
  else numeric

/-- Whether numbers are preferred. -/
def isNumeric : Affinity → Bool
  | numeric | integer | real => true
  | text | blob => false

/-- The number that a text is as a whole. -/
def numberOf? (s : String) : Option Value :=
  match Scan.ofChars? s.toList with
  | some scan => if scan.rest.isEmpty then some scan.toValue else none
  | none => none

/-- A number as an integer, where nothing is lost. -/
def wholeOf : Value → Value
  | .real x => ((Value.wholeReal? x).map Value.integer).getD (.real x)
  | value => value

/-- A number as a real one. -/
def realOf : Value → Value
  | .integer n => .real (.ofInt n)
  | value => value

/-- The value that comes into a column. -/
def convert (affinity : Affinity) (value : Value) : Value :=
  match affinity, value with
  | blob, _ => value
  | text, .integer _ | text, .real _ => .text value.toText
  | text, _ => value
  | real, .text s => realOf ((numberOf? s).getD value)
  | _, .text s => wholeOf ((numberOf? s).getD value)
  | real, .integer _ => realOf value
  | real, _ => value
  | _, _ => wholeOf value

/-- The value that a value is cast to. -/
def cast (affinity : Affinity) (value : Value) : Value :=
  match affinity, value with
  | _, .null => .null
  | text, _ => .text value.toText
  | blob, _ => .blob value.toBytes
  | integer, _ => .integer value.toInt
  | real, _ => .real value.toBinary
  | numeric, .integer _ | numeric, .real _ => value
  | numeric, _ => wholeOf value.toNumber

end Affinity
end Relational
end FeatureCensus
