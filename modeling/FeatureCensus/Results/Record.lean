import FeatureCensus.Relational.Value
import FeatureCensus.Text.Encoding

/-!
# Records

The stored form of a row: a header with a number for the sort of each field, and then the
bytes of the fields.  Numbers in headers have a length of their own: each byte but the last
of nine gives seven bits and tells whether more follow.

Main results:

- Theorem {lit}`Record.length_number_lt`: a number covers at least one byte.
-/

namespace FeatureCensus
namespace Record

open Relational Text

/-! ## Numbers -/

/-- Reads a number of which a value was read before, and of which at most so many bytes are
left besides the last. -/
def numberFrom (left value : Nat) : Bytes → Nat × Bytes
  | [] => (value, [])
  | b :: rest =>
    match left with
    | 0 => (value * 256 + b.toNat, rest)
    | left + 1 =>
      if b < 128 then (value * 128 + b.toNat, rest)
      else numberFrom left (value * 128 + b.toNat % 128) rest

/-- The number at the front of bytes, and the bytes after it. -/
def number (bytes : Bytes) : Nat × Bytes :=
  numberFrom 8 0 bytes

theorem length_numberFrom_le (left value : Nat) (bytes : Bytes) :
    (numberFrom left value bytes).2.length ≤ bytes.length - 1 := by
  induction bytes generalizing left value with
  | nil => simp [numberFrom]
  | cons b rest ih =>
    cases left with
    | zero => simp [numberFrom]
    | succ left =>
      rw [numberFrom]
      split
      · simp
      · have := ih left (value * 128 + b.toNat % 128)
        simp only [List.length_cons]
        omega

/-- A number covers at least one byte. -/
theorem length_number_lt {bytes : Bytes} (h : bytes ≠ []) :
    (number bytes).2.length < bytes.length := by
  have hpos := List.length_pos_iff.2 h
  have := length_numberFrom_le 8 0 bytes
  simp only [number]
  omega

/-- All numbers in bytes, one after the other. -/
def numbers : Bytes → List Nat
  | [] => []
  | b :: rest =>
    (number (b :: rest)).1 :: numbers (number (b :: rest)).2
termination_by bytes => bytes.length
decreasing_by exact length_number_lt (List.cons_ne_nil b rest)

/-! ## Texts -/

/-- The numbers of the characters of units of two bytes.  A unit of a pair takes the next one
for the other unit, whatever that is. -/
def codesOf : List Nat → List Nat
  | [] => []
  | [unit] => [unit]
  | unit :: next :: rest =>
    if isLeading unit || isTrailing unit then
      (next % 0x400 + unit % 0x40 * 0x400 + (unit % 0x400 / 0x40 + 1) * 0x10000) :: codesOf rest
    else unit :: codesOf (next :: rest)

/-- The bytes of the number of a character, be it that of a unit of a pair. -/
def codeBytes (code : Nat) : Bytes :=
  if code < 0x80 then [code.toUInt8]
  else if code < 0x800 then [(0xC0 + code / 0x40).toUInt8, (0x80 + code % 0x40).toUInt8]
  else if code < 0x10000 then
    [(0xE0 + code / 0x1000).toUInt8, (0x80 + code / 0x40 % 0x40).toUInt8,
      (0x80 + code % 0x40).toUInt8]
  else
    [(0xF0 + code / 0x40000).toUInt8, (0x80 + code / 0x1000 % 0x40).toUInt8,
      (0x80 + code / 0x40 % 0x40).toUInt8, (0x80 + code % 0x40).toUInt8]

/-- The text of bytes in an encoding; a byte that is left over does not count. -/
def textOf (encoding : Encoding) (bytes : Bytes) : Value :=
  let plain := match encoding with
    | .utf16 order =>
      (codesOf ((pairs? order (bytes.take (bytes.length / 2 * 2))).getD [])).flatMap codeBytes
    | _ => bytes
  match decodeStrict plain with
  | .ok cs => .text (String.ofList cs)
  | .error _ => .brokenText plain

/-! ## Fields -/

/-- The integer with a sign that a number of so many bits stands for. -/
def signedOf (bits n : Nat) : Int :=
  if n < twoPow (bits - 1) then n else (n : Int) - twoPow bits

/-- The integer with a sign that bytes stand for. -/
def signed (bytes : Bytes) : Int :=
  signedOf (8 * bytes.length) (ByteOrder.big.value bytes)

/-- The number of bytes of a field of a sort. -/
def width (sort : Nat) : Nat :=
  match sort with
  | 0 | 8 | 9 | 10 | 11 => 0
  | 5 => 6
  | 6 | 7 => 8
  | sort => if sort < 5 then sort else (sort - 12) / 2

/-- The value of a field of a sort with its bytes. -/
def valueOf (encoding : Encoding) (sort : Nat) (bytes : Bytes) : Value :=
  match sort with
  | 0 | 10 | 11 => .null
  | 7 => .ofBinary? (Binary.ofBits? (ByteOrder.big.value bytes))
  | 8 => .integer 0
  | 9 => .integer 1
  | sort =>
    if sort < 7 then .integer (signed bytes)
    else if sort % 2 == 1 then textOf encoding bytes
    else .blob bytes

/-- The values of fields of sorts whose bytes follow each other. -/
def valuesOf (encoding : Encoding) : List Nat → Bytes → List Value
  | [], _ => []
  | sort :: sorts, bytes =>
    valueOf encoding sort (bytes.take (width sort)) ::
      valuesOf encoding sorts (bytes.drop (width sort))

/-- The values of a record. -/
def values (encoding : Encoding) (record : Bytes) : List Value :=
  let (size, rest) := number record
  valuesOf encoding (numbers (rest.take (size - (record.length - rest.length)))) (record.drop size)

end Record
end FeatureCensus
