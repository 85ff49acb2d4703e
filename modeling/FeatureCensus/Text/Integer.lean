import FeatureCensus.Text.Blank
import FeatureCensus.Text.Digit
import FeatureCensus.Text.Quoted
import FeatureCensus.Text.Split

/-!
# Integers in text

Reading of an integer: white space at both ends is ignored, one sign may come
first, and the digits, of any script, may be grouped by single underscores.  At
most 4300 digits are read.

Main definitions:

- Definition {lit}`Text.parseInteger`: the integer that a text writes.
-/

namespace FeatureCensus
namespace Text

/-- Why a text is not read as an integer. -/
inductive IntegerError where
  /-- The text is no numeral. -/
  | malformed (text : String)
  /-- The numeral has this many digits, more than are read. -/
  | tooManyDigits (count : Nat)
  deriving DecidableEq, Repr, Inhabited

/-- The number of digits up to which a numeral is read. -/
def digitLimit : Nat := 4300

/-- The number written by a row of decimal digits. -/
def digitsValue (cs : List Char) : Nat :=
  cs.foldl (fun n c => n * 10 + (decimalValue? c).getD 0) 0

/-- The digits of an unsigned numeral, which groups them by single underscores.  A
row with too many digits is refused for their number before anything that follows
it is looked at. -/
def numeralDigits (text : String) (cs : List Char) : Except IntegerError (List Char) :=
  let inNumeral := fun c => isDecimalDigit c || c == '_'
  let groups := fields (· == '_') (cs.takeWhile inNumeral)
  if groups.any List.isEmpty then .error (.malformed text)
  else if digitLimit < groups.flatten.length then .error (.tooManyDigits groups.flatten.length)
  else if (cs.dropWhile inNumeral).isEmpty then .ok groups.flatten
  else .error (.malformed text)

/-- The integer that a text stands for. -/
def parseInteger (text : String) : Except IntegerError Int :=
  match stripCharsWhere isNumeralBlank text.toList with
  | '-' :: cs => (numeralDigits text cs).map fun digits => -(digitsValue digits : Int)
  | '+' :: cs => (numeralDigits text cs).map fun digits => (digitsValue digits : Int)
  | cs => (numeralDigits text cs).map fun digits => (digitsValue digits : Int)

/-- What is wrong, with the first 200 characters of the quoted text. -/
def IntegerError.message : IntegerError → String
  | .malformed text =>
    "invalid literal for int() with base 10: " ++
      String.ofList ((quotedChars text.toList).take 200)
  | .tooManyDigits count =>
    s!"Exceeds the limit ({digitLimit} digits) for integer string conversion: " ++
      s!"value has {count} digits; use sys.set_int_max_str_digits() to increase the limit"

end Text
end FeatureCensus
