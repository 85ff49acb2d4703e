import FeatureCensus.Relational.Value
import FeatureCensus.Text.Hexadecimal

/-!
# Tokens of statements

The words, numbers, texts and marks of a statement, each with what was still to be read when
it began and when it ended, so that the written form of a part can be recovered.  Comments
and blanks are left out.

Main definitions:

- Definition {lit}`Relational.Token.of`: the tokens of a text.
-/

namespace FeatureCensus
namespace Relational

open Text

/-- What a token is. -/
inductive TokenKind where
  /-- A word without quotes. -/
  | word (s : String)
  /-- A name in quotes; quotation marks may also stand around a text. -/
  | name (s : String) (marks : Bool)
  | text (s : String)
  | number (value : Value)
  | bytes (bytes : Bytes)
  | mark (s : String)
  deriving DecidableEq, Repr, Inhabited

/-- A token. -/
structure Token where
  kind : TokenKind
  /-- The number of characters from the token on. -/
  start : Nat
  /-- The number of characters after the token. -/
  stop : Nat
  deriving Repr, Inhabited

namespace Token

/-! ## Characters -/

/-- Whether a word may begin with a character. -/
def isWordStart (c : Char) : Bool :=
  c.isAlpha || c == '_' || 128 ≤ c.toNat

/-- Whether a word may go on with a character. -/
def isWordChar (c : Char) : Bool :=
  c.isAlphanum || c == '_' || c == '$' || 128 ≤ c.toNat

/-! ## Single tokens -/

/-- The text up to a closing quote, which stands for itself where it is doubled, and what
follows it. -/
def quotedPart (quote : Char) : List Char → List Char × List Char
  | [] => ([], [])
  | c :: rest =>
    if c == quote then
      match rest with
      | [] => ([], [])
      | d :: more =>
        if d == quote then
          let (part, after) := quotedPart quote more
          (quote :: part, after)
        else ([], d :: more)
    else
      let (part, after) := quotedPart quote rest
      (c :: part, after)

/-- What follows a comment up to its closing marks. -/
def afterComment : List Char → List Char
  | '*' :: '/' :: rest => rest
  | _ :: rest => afterComment rest
  | [] => []

/-- The value of the digits of a number with base sixteen, which wraps around 64 bits. -/
def hexValue (digits : List Char) : Value :=
  let n := digits.foldl (fun n c => n * 16 + (hexValue? c).getD 0) 0
  .integer (Int.bmod n (twoPow 64))

/-- The number at the front of a text that begins with a digit or a point, and what follows
it. -/
def numberPart (cs : List Char) : Value × List Char :=
  let hex := (cs.drop 2).takeWhile fun c => (hexValue? c).isSome
  if cs.head? == some '0' && ((cs.drop 1).head?.map (·.toLower)) == some 'x' && !hex.isEmpty then
    (hexValue hex, (cs.drop 2).dropWhile fun c => (hexValue? c).isSome)
  else
    match Scan.ofUnsigned? false cs with
    | none => (.null, cs.drop 1)
    | some scan =>
      let digits := fun cs : List Char => cs.dropWhile Char.isDigit
      let rest := match digits cs with
        | '.' :: more => digits more
        | more => more
      (scan.toValue, ((Scan.exponent? rest).map (·.2)).getD rest)

/-- The marks of two characters. -/
def pairMarks : List String :=
  ["||", "<<", ">>", "<=", ">=", "<>", "!=", "=="]

/-- The token at the front of a text and what follows it, or just what follows a blank or a
comment. -/
def next (c : Char) (rest : List Char) : Option TokenKind × List Char :=
  let quoted := fun (make : String → TokenKind) (quote : Char) =>
    let (part, after) := quotedPart quote rest
    (some (make (String.ofList part)), after)
  if isSpace c then (none, rest)
  else if c == '-' && rest.head? == some '-' then (none, rest.dropWhile (· != '\n'))
  else if c == '/' && rest.head? == some '*' then (none, afterComment (rest.drop 1))
  else if c == '"' then quoted (.name · true) '"'
  else if c == '\x60' then quoted (.name · false) '\x60'
  else if c == '[' then
    (some (.name (String.ofList (rest.takeWhile (· != ']'))) false),
      (rest.dropWhile (· != ']')).drop 1)
  else if c == '\'' then quoted .text '\''
  else if (c == 'x' || c == 'X') && rest.head? == some '\'' then
    let (part, after) := quotedPart '\'' (rest.drop 1)
    (some (.bytes (hexBytes part)), after)
  else if c.isDigit || (c == '.' && (rest.head?.map Char.isDigit).getD false) then
    let (value, after) := numberPart (c :: rest)
    (some (.number value), after)
  else if isWordStart c then
    (some (.word (String.ofList (c :: rest.takeWhile isWordChar))), rest.dropWhile isWordChar)
  else if pairMarks.contains (String.ofList (c :: rest.take 1)) then
    (some (.mark (String.ofList (c :: rest.take 1))), rest.drop 1)
  else (some (.mark (String.singleton c)), rest)

/-! ## Statements -/

/-- The tokens of a statement, of which at most so many are read. -/
def scan : Nat → List Char → List Token
  | 0, _ | _, [] => []
  | fuel + 1, c :: rest =>
    match next c rest with
    | (none, after) => scan fuel after
    | (some kind, after) => ⟨kind, rest.length + 1, after.length⟩ :: scan fuel after

/-- The tokens of a statement. -/
def of (statement : String) : List Token :=
  scan (statement.length + 1) statement.toList

end Token

/-- The part of a statement between two places, each told by the number of characters from
it on. -/
def spanOf (statement : List Char) (start stop : Nat) : List Char :=
  (statement.drop (statement.length - start)).take (start - stop)

end Relational
end FeatureCensus
