import FeatureCensus.Text.Utf8

/-!
# Encodings

Texts in one of the encodings with units of one, two or four bytes.  Which one it is can
be told from the zeros among the first four bytes of a text that begins with two ASCII
characters.

Main results:

- Theorem {lit}`Text.decodeUtf16?_units16`: the two-byte units of characters are read back.
-/

namespace FeatureCensus
namespace Text

/-- The order of the bytes of a unit. -/
inductive ByteOrder where
  | big
  | little
  deriving DecidableEq, Repr, Inhabited

/-- The number that bytes stand for. -/
def ByteOrder.value (order : ByteOrder) (bytes : Bytes) : Nat :=
  match order with
  | .big => bytes.foldl (fun n b => n * 256 + b.toNat) 0
  | .little => bytes.foldr (fun b n => n * 256 + b.toNat) 0

/-! ## Units of two bytes -/

/-- The units of two bytes, unless a byte is left over. -/
def pairs? (order : ByteOrder) : Bytes → Option (List Nat)
  | [] => some []
  | [_] => none
  | a :: b :: rest => (pairs? order rest).map (order.value [a, b] :: ·)

/-- A unit that begins a pair of units. -/
def isLeading (unit : Nat) : Bool :=
  0xD800 ≤ unit && unit < 0xDC00

/-- A unit that ends a pair of units. -/
def isTrailing (unit : Nat) : Bool :=
  0xDC00 ≤ unit && unit < 0xE000

/-- The characters of units of two bytes.  Characters past the first plane are pairs of
units, and no other units of pairs are allowed. -/
def decodeUtf16? : List Nat → Option (List Char)
  | [] => some []
  | [unit] => if isLeading unit || isTrailing unit then none else some [Char.ofNat unit]
  | unit :: next :: rest =>
    if isLeading unit then
      if isTrailing next then
        (decodeUtf16? rest).map
          (Char.ofNat (0x10000 + (unit - 0xD800) * 0x400 + (next - 0xDC00)) :: ·)
      else none
    else if isTrailing unit then none
    else (decodeUtf16? (next :: rest)).map (Char.ofNat unit :: ·)

/-- The units of two bytes of a character. -/
def units16 (c : Char) : List Nat :=
  if c.toNat < 0x10000 then [c.toNat]
  else [0xD800 + (c.toNat - 0x10000) / 0x400, 0xDC00 + (c.toNat - 0x10000) % 0x400]

theorem decodeUtf16?_cons {unit : Nat} (hlead : isLeading unit = false)
    (htrail : isTrailing unit = false) (rest : List Nat) :
    decodeUtf16? (unit :: rest) = (decodeUtf16? rest).map (Char.ofNat unit :: ·) := by
  cases rest <;> simp [decodeUtf16?, hlead, htrail]

/-- The two-byte units of characters are read back. -/
theorem decodeUtf16?_units16 (cs : List Char) :
    decodeUtf16? (cs.flatMap units16) = some cs := by
  induction cs with
  | nil => rfl
  | cons c rest ih =>
    have hvalid : c.toNat < 0xD800 ∨ (0xDFFF < c.toNat ∧ c.toNat < 0x110000) := c.valid
    rw [List.flatMap_cons, units16]
    split
    · rename_i hsmall
      have hlead : isLeading c.toNat = false := by simp [isLeading]; omega
      have htrail : isTrailing c.toNat = false := by simp [isTrailing]; omega
      rw [List.singleton_append, decodeUtf16?_cons hlead htrail, ih]
      simp
    · rename_i hlarge
      have hlead : isLeading (0xD800 + (c.toNat - 0x10000) / 0x400) = true := by
        simp [isLeading]; omega
      have htrail : isTrailing (0xDC00 + (c.toNat - 0x10000) % 0x400) = true := by
        simp [isTrailing]; omega
      have hvalue : 0x10000 + (0xD800 + (c.toNat - 0x10000) / 0x400 - 0xD800) * 0x400 +
          (0xDC00 + (c.toNat - 0x10000) % 0x400 - 0xDC00) = c.toNat := by omega
      simp only [List.cons_append, List.nil_append, decodeUtf16?, hlead, htrail, if_true, ih,
        Option.map_some, hvalue, Char.ofNat_toNat]

/-! ## Units of four bytes -/

/-- The units of four bytes, unless bytes are left over. -/
def quadruples? (order : ByteOrder) : Bytes → Option (List Nat)
  | [] => some []
  | a :: b :: c :: d :: rest => (quadruples? order rest).map (order.value [a, b, c, d] :: ·)
  | _ => none

/-- The characters of units of four bytes, which are their numbers. -/
def decodeUtf32? (units : List Nat) : Option (List Char) :=
  units.mapM fun unit =>
    if unit < 0xD800 || (0xDFFF < unit && unit < 0x110000) then some (Char.ofNat unit) else none

/-! ## Telling encodings apart -/

/-- An encoding. -/
inductive Encoding where
  | utf8
  | utf16 (order : ByteOrder)
  | utf32 (order : ByteOrder)
  deriving DecidableEq, Repr, Inhabited

/-- The bytes that may mark UTF-8 at the front of a text. -/
def byteOrderMark : Bytes :=
  [0xEF, 0xBB, 0xBF]

/-- The encoding of a text that begins with two ASCII characters, by the zeros among the
first four bytes.  With fewer bytes it is UTF-8. -/
def encodingOf? : Bytes → Option Encoding
  | a :: b :: c :: d :: _ =>
    match a == 0, b == 0, c == 0, d == 0 with
    | false, false, false, false => some .utf8
    | true, false, true, false => some (.utf16 .big)
    | false, true, false, true => some (.utf16 .little)
    | true, true, true, false => some (.utf32 .big)
    | false, true, true, true => some (.utf32 .little)
    | _, _, _, _ => none
  | _ => some .utf8

/-- The characters of bytes in an encoding. -/
def Encoding.decode? (encoding : Encoding) (bytes : Bytes) : Option (List Char) :=
  match encoding with
  | .utf8 => (decodeStrict bytes).toOption
  | .utf16 order => (pairs? order bytes).bind decodeUtf16?
  | .utf32 order => (quadruples? order bytes).bind decodeUtf32?

/-- The text of bytes in an encoding that is not told.  A mark of UTF-8 tells it and is no
part of the text. -/
def decodeAny? (bytes : Bytes) : Option String :=
  let characters :=
    if byteOrderMark.isPrefixOf bytes then
      Encoding.utf8.decode? (bytes.drop byteOrderMark.length)
    else (encodingOf? bytes).bind fun encoding => encoding.decode? bytes
  characters.map String.ofList

end Text
end FeatureCensus
