import FeatureCensus.Text.Printable

/-!
# Quoted text

The quoted form in which texts appear inside messages.  A text stands between
apostrophes, unless it holds an apostrophe and no quotation mark; then it stands
between quotation marks.  The backslash, the quote itself, line feed, carriage
return and tab are written with a backslash, and every other unprintable
character by its hexadecimal code.

Main definitions:

- Definition {lit}`Text.quoted`: the quoted form of a text.
-/

namespace FeatureCensus
namespace Text

/-! ## Hexadecimal codes -/

/-- The lower-case hexadecimal digit of a number below sixteen. -/
def hexDigit (n : Nat) : Char :=
  if n < 10 then Char.ofNat (48 + n) else Char.ofNat (87 + n)

/-- The last hexadecimal digits of a number, as many as asked for. -/
def hexCode : Nat → Nat → List Char
  | 0, _ => []
  | width + 1, n => hexCode width (n / 16) ++ [hexDigit (n % 16)]

/-! ## Escapes -/

/-- The quote that a text is put between. -/
def quoteFor (cs : List Char) : Char :=
  if cs.contains '\'' && !cs.contains '"' then '"' else '\''

/-- The written form of a character between the given quotes. -/
def escape (quote c : Char) : List Char :=
  if c == '\\' || c == quote then ['\\', c]
  else if c == '\n' then ['\\', 'n']
  else if c == '\r' then ['\\', 'r']
  else if c == '\t' then ['\\', 't']
  else if isPrintable c then [c]
  else if c.toNat < 0x100 then '\\' :: 'x' :: hexCode 2 c.toNat
  else if c.toNat < 0x10000 then '\\' :: 'u' :: hexCode 4 c.toNat
  else '\\' :: 'U' :: hexCode 8 c.toNat

/-- The quoted form of a list of characters. -/
def quotedChars (cs : List Char) : List Char :=
  let quote := quoteFor cs
  quote :: cs.flatMap (escape quote) ++ [quote]

/-- The quoted form of a text. -/
def quoted (s : String) : String :=
  String.ofList (quotedChars s.toList)

end Text
end FeatureCensus
