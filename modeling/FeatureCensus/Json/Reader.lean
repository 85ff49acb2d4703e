import FeatureCensus.Json.Value
import FeatureCensus.Text.Hexadecimal
import FeatureCensus.Text.Integer
import FeatureCensus.Text.Stray

/-!
# Reading JSON

The reader takes the standard grammar and besides it the words for the two
infinities and for what is not a number.  A whole number may have at most as many
digits as an integer in text.  Lists and objects may be nested as deep as the settings
of the reader tell; an escaped surrogate without its partner becomes the character of
the stray byte that it writes, if there is one, and else the replacement character.

Main definitions:

- Definition {lit}`Json.readValue`: reads the value at the front of a text.
- Definition {lit}`Json.parse`: the value that a text writes.
-/

namespace FeatureCensus
namespace Json

open Text

/-- How texts are read. -/
structure Settings where
  /-- How deep lists and objects may be nested, if there is a limit to it. -/
  depth? : Option Nat := none
  /-- The characters that are set aside for stray bytes. -/
  strays : Strays := []
  deriving DecidableEq, Repr, Inhabited

/-- Why a text is not read as a value. -/
inductive ReadError where
  /-- The text breaks the grammar. -/
  | malformed
  /-- A whole number has this many digits, more than are read. -/
  | tooManyDigits (count : Nat)
  /-- A list, or else an object, is nested too deep. -/
  | tooDeep (inList : Bool)
  deriving DecidableEq, Repr, Inhabited

/-- A value read from the front of a text, and what is left of the text. -/
abbrev Reading (α : Type) := Except ReadError (α × List Char)

/-! ## Blanks -/

/-- The characters that may stand between the parts of a value. -/
def isGap (c : Char) : Bool :=
  c == ' ' || c == '\t' || c == '\n' || c == '\r'

/-- What is left after leading blanks. -/
def skipBlanks (cs : List Char) : List Char :=
  cs.dropWhile isGap

/-! ## Texts -/

/-- The number written by four hexadecimal digits. -/
def hexQuad? (a b c d : Char) : Option Nat := do
  let a ← hexValue? a
  let b ← hexValue? b
  let c ← hexValue? c
  let d ← hexValue? d
  return a * 4096 + b * 256 + c * 16 + d

/-- The code of the character written by a pair of surrogates. -/
def joinSurrogates (high low : Nat) : Nat :=
  0x10000 + (high - 0xD800) * 0x400 + (low - 0xDC00)

/-- The character of a code.  A surrogate writes a stray byte or is replaced. -/
def charOfCode (settings : Settings) (n : Nat) : Char :=
  if 0xD800 ≤ n && n ≤ 0xDFFF then
    if 0xDC80 ≤ n && n ≤ 0xDCFF then
      (settings.strays.charOf? (n - 0xDC00).toUInt8).getD (Char.ofNat 0xFFFD)
    else Char.ofNat 0xFFFD
  else Char.ofNat n

/-- The character that a one-letter escape stands for. -/
def simpleEscape? : Char → Option Char
  | '"' => some '"'
  | '\\' => some '\\'
  | '/' => some '/'
  | 'b' => some (Char.ofNat 8)
  | 'f' => some (Char.ofNat 12)
  | 'n' => some '\n'
  | 'r' => some '\r'
  | 't' => some '\t'
  | _ => none

/-- Reads a text up to its closing quotation mark; the characters read so far come
in reverse, and a high surrogate that awaits its partner comes beside them. -/
def readText (settings : Settings) (soFar : List Char) (pending : Option Nat) :
    List Char → Reading String
  | '"' :: rest =>
    let soFar := if pending.isSome then Char.ofNat 0xFFFD :: soFar else soFar
    .ok (String.ofList soFar.reverse, rest)
  | '\\' :: 'u' :: a :: b :: c :: d :: rest =>
    match hexQuad? a b c d with
    | none => .error .malformed
    | some code =>
      match pending with
      | some high =>
        if 0xDC00 ≤ code && code ≤ 0xDFFF then
          readText settings (Char.ofNat (joinSurrogates high code) :: soFar) none rest
        else if 0xD800 ≤ code && code ≤ 0xDBFF then
          readText settings (Char.ofNat 0xFFFD :: soFar) (some code) rest
        else
          readText settings (charOfCode settings code :: Char.ofNat 0xFFFD :: soFar) none rest
      | none =>
        if 0xD800 ≤ code && code ≤ 0xDBFF then readText settings soFar (some code) rest
        else readText settings (charOfCode settings code :: soFar) none rest
  | '\\' :: c :: rest =>
    let soFar := if pending.isSome then Char.ofNat 0xFFFD :: soFar else soFar
    match simpleEscape? c with
    | none => .error .malformed
    | some d => readText settings (d :: soFar) none rest
  | c :: rest =>
    let soFar := if pending.isSome then Char.ofNat 0xFFFD :: soFar else soFar
    if c.toNat < 32 || c == '\\' then .error .malformed
    else readText settings (c :: soFar) none rest
  | [] => .error .malformed

/-! ## Numbers -/

/-- An ASCII digit. -/
def isDigit (c : Char) : Bool :=
  '0' ≤ c && c ≤ '9'

/-- The fraction digits of a number: a point and at least one digit. -/
def readFraction : List Char → List Char × List Char
  | '.' :: rest =>
    if (rest.takeWhile isDigit).isEmpty then ([], '.' :: rest)
    else (rest.takeWhile isDigit, rest.dropWhile isDigit)
  | cs => ([], cs)

/-- The power of ten of a number, where it has one. -/
def readExponent (cs : List Char) : Option Int × List Char :=
  match cs with
  | e :: rest =>
    if e == 'e' || e == 'E' then
      let (negative, digits) := match rest with
        | '-' :: more => (true, more)
        | '+' :: more => (false, more)
        | more => (false, more)
      let read := digits.takeWhile isDigit
      if read.isEmpty then (none, cs)
      else
        let n : Int := digitsValue read
        (some (if negative then -n else n), digits.dropWhile isDigit)
    else (none, cs)
  | [] => (none, [])

/-- The whole digits of a number: a zero, or a row that begins with another digit. -/
def readWhole : List Char → List Char × List Char
  | '0' :: rest => (['0'], rest)
  | cs => (cs.takeWhile isDigit, cs.dropWhile isDigit)

/-- Reads a number whose sign has been read. -/
def readNumber (negative : Bool) (cs : List Char) : Reading Json :=
  let (whole, afterWhole) := readWhole cs
  let (fraction, afterFraction) := readFraction afterWhole
  let (exponent, rest) := readExponent afterFraction
  if whole.isEmpty then .error .malformed
  else if fraction.isEmpty && exponent.isNone then
    if digitLimit < whole.length then .error (.tooManyDigits whole.length)
    else
      let n : Int := digitsValue whole
      .ok (.integer (if negative then -n else n), rest)
  else
    let d : Decimal :=
      ⟨negative, digitsValue (whole ++ fraction), exponent.getD 0 - fraction.length⟩
    .ok (.decimal d, rest)

/-! ## Values -/

/-- What is left after a word at the front of a text. -/
def afterWord? : List Char → List Char → Option (List Char)
  | [], cs => some cs
  | _ :: _, [] => none
  | w :: word, c :: cs => if w == c then afterWord? word cs else none

/-- Reads one of the words that are values. -/
def readWord (cs : List Char) : Reading Json :=
  match afterWord? "null".toList cs with
  | some rest => .ok (.null, rest)
  | none => match afterWord? "true".toList cs with
    | some rest => .ok (.bool true, rest)
    | none => match afterWord? "false".toList cs with
      | some rest => .ok (.bool false, rest)
      | none => match afterWord? "NaN".toList cs with
        | some rest => .ok (.notANumber, rest)
        | none => match afterWord? "Infinity".toList cs with
          | some rest => .ok (.infinity false, rest)
          | none => match afterWord? "-Infinity".toList cs with
            | some rest => .ok (.infinity true, rest)
            | none => .error .malformed

/-- Whether a list or an object would be nested too deep in so many others. -/
def Settings.forbids (settings : Settings) (level : Nat) : Bool :=
  settings.depth?.any (· ≤ level)

mutual

/-- Reads a value in so many lists and objects; the first number bounds the depth of the
reading. -/
def readValue (settings : Settings) : Nat → Nat → List Char → Reading Json
  | 0, _, _ => .error .malformed
  | fuel + 1, level, cs =>
    match cs with
    | '"' :: rest => (readText settings [] none rest).map fun (s, rest) => (.text s, rest)
    | '[' :: rest =>
      if settings.forbids level then .error (.tooDeep true)
      else match skipBlanks rest with
        | ']' :: rest => .ok (.list [], rest)
        | rest => readItems settings fuel (level + 1) [] rest
    | '{' :: rest =>
      if settings.forbids level then .error (.tooDeep false)
      else match skipBlanks rest with
        | '}' :: rest => .ok (.object [], rest)
        | rest => readFields settings fuel (level + 1) [] rest
    | '-' :: 'I' :: _ => readWord cs
    | '-' :: rest => readNumber true rest
    | c :: _ => if isDigit c then readNumber false cs else readWord cs
    | [] => .error .malformed

/-- Reads the items of a list up to its end. -/
def readItems (settings : Settings) :
    Nat → Nat → List Json → List Char → Except ReadError (Json × List Char)
  | 0, _, _, _ => .error .malformed
  | fuel + 1, level, soFar, cs => do
    let (item, rest) ← readValue settings fuel level cs
    match skipBlanks rest with
    | ',' :: rest => readItems settings fuel level (item :: soFar) (skipBlanks rest)
    | ']' :: rest => .ok (.list (item :: soFar).reverse, rest)
    | _ => .error .malformed

/-- Reads the fields of an object up to its end. -/
def readFields (settings : Settings) :
    Nat → Nat → List (String × Json) → List Char → Except ReadError (Json × List Char)
  | 0, _, _, _ => .error .malformed
  | fuel + 1, level, soFar, cs =>
    match cs with
    | '"' :: rest => do
      let (name, rest) ← readText settings [] none rest
      match skipBlanks rest with
      | ':' :: rest =>
        let (value, rest) ← readValue settings fuel level (skipBlanks rest)
        match skipBlanks rest with
        | ',' :: rest => readFields settings fuel level ((name, value) :: soFar) (skipBlanks rest)
        | '}' :: rest => .ok (.object ((name, value) :: soFar).reverse, rest)
        | _ => .error .malformed
      | _ => .error .malformed
    | _ => .error .malformed

end

/-- The value that a text holds. -/
def parse (settings : Settings) (s : String) : Except ReadError Json := do
  let cs := skipBlanks s.toList
  let (value, rest) ← readValue settings (cs.length + 1) 0 cs
  if (skipBlanks rest).isEmpty then .ok value else .error .malformed

end Json
end FeatureCensus
