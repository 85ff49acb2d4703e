import FeatureCensus.Text.Utf8

/-!
# Hexadecimal digits

The values of hexadecimal digits, and texts in which a percent sign in front of two such
digits stands for a byte.

Main definitions:

- Definition {lit}`Text.hexValue?`: the value of a hexadecimal digit.
- Definition {lit}`Text.percentDecode`: the bytes of a text with percent signs.
-/

namespace FeatureCensus
namespace Text

/-- The value of a hexadecimal digit. -/
def hexValue? (c : Char) : Option Nat :=
  if '0' ≤ c && c ≤ '9' then some (c.toNat - 48)
  else if 'a' ≤ c && c ≤ 'f' then some (c.toNat - 87)
  else if 'A' ≤ c && c ≤ 'F' then some (c.toNat - 55)
  else none

/-- The byte that two hexadecimal digits stand for. -/
def hexByte? (high low : Char) : Option UInt8 := do
  let high ← hexValue? high
  let low ← hexValue? low
  return (high * 16 + low).toUInt8

/-- The bytes that pairs of hexadecimal digits stand for; a pair of anything else stands
for none. -/
def hexBytes : List Char → Bytes
  | high :: low :: rest => (hexByte? high low).toList ++ hexBytes rest
  | _ => []

/-! ## Percent signs -/

/-- The bytes of a text in which a percent sign in front of two hexadecimal digits stands
for a byte. -/
def percentBytes : List Char → Bytes
  | [] => []
  | '%' :: high :: low :: rest =>
    match hexByte? high low with
    | some b => b :: percentBytes rest
    | none => encode "%" ++ percentBytes (high :: low :: rest)
  | c :: rest => encode (String.singleton c) ++ percentBytes rest

/-- The text of such bytes up to the first zero. -/
def percentDecode (cs : List Char) : String :=
  decodeLenient ((percentBytes cs).takeWhile (· != 0))

end Text
end FeatureCensus
