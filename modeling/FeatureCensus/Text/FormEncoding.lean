import FeatureCensus.Text.Utf8

/-!
# Form encoding

The encoding of names and values in the query part of a web address: letters,
digits and four marks stand for themselves, a space becomes a plus sign, and any
other character is written by the hexadecimal codes of its bytes.

Main definitions:

- Definition {lit}`Text.formQuery`: the query part for names and values.
-/

namespace FeatureCensus
namespace Text

/-- The bytes that stand for themselves. -/
def isUnreserved (b : UInt8) : Bool :=
  (0x30 ≤ b && b ≤ 0x39) || (0x41 ≤ b && b ≤ 0x5A) || (0x61 ≤ b && b ≤ 0x7A) ||
    b == 0x5F || b == 0x2E || b == 0x2D || b == 0x7E

/-- The upper-case hexadecimal digit of a number below sixteen. -/
def upperHexDigit (n : Nat) : Char :=
  if n < 10 then Char.ofNat (48 + n) else Char.ofNat (55 + n)

/-- The encoded form of a byte. -/
def formByte (b : UInt8) : List Char :=
  if isUnreserved b then [Char.ofNat b.toNat]
  else if b == 0x20 then ['+']
  else ['%', upperHexDigit (b.toNat / 16), upperHexDigit (b.toNat % 16)]

/-- The encoded form of a text. -/
def formEncode (s : String) : String :=
  String.ofList ((encode s).flatMap formByte)

/-- The query part with the given names and values. -/
def formQuery (parameters : List (String × String)) : String :=
  "&".intercalate (parameters.map fun p => formEncode p.1 ++ "=" ++ formEncode p.2)

end Text
end FeatureCensus
