/-!
# UTF-8

Decoding of byte sequences.  A sequence is cut into pieces: a well-formed
character, or a maximal part that no character can begin with.  Lenient decoding
puts one replacement character for each such part; strict decoding names the
first one, its place and what is wrong with it.

Main results:

- Theorem {lit}`Text.decodeStrict_eq_ok_iff`: strict decoding succeeds exactly when
  every piece is a character.
- Theorem {lit}`Text.decodeLenient_of_decodeStrict`: where strict decoding succeeds,
  lenient decoding agrees with it.
-/

namespace FeatureCensus
namespace Text

/-- A sequence of bytes. -/
abbrev Bytes := List UInt8

/-! ## Pieces -/

/-- What keeps bytes from being a character. -/
inductive Utf8Fault where
  /-- No character begins with this byte. -/
  | invalidStart
  /-- The byte after these bytes does not continue the character. -/
  | invalidContinuation
  /-- The sequence ends within a character. -/
  | unexpectedEnd
  deriving DecidableEq, Repr, Inhabited

/-- One step of a decoding. -/
inductive Piece where
  /-- A well-formed character and the number of its bytes after the first. -/
  | character (c : Char) (following : Nat)
  /-- A malformed part and the number of its bytes after the first. -/
  | malformed (fault : Utf8Fault) (following : Nat)
  deriving DecidableEq, Repr, Inhabited

/-- The number of bytes that a piece covers. -/
def Piece.width : Piece → Nat
  | .character _ following => following + 1
  | .malformed _ following => following + 1

/-- A byte that continues a character. -/
def isContinuation (b : UInt8) : Bool :=
  0x80 ≤ b && b ≤ 0xBF

/-- The six bits that a continuation byte adds to a character. -/
def continuationBits (b : UInt8) : Nat :=
  b.toNat % 64

/-- The second bytes allowed after a given first byte: those that continue a
character, without the overlong forms, the surrogates and what lies past the last
code. -/
def isSecond (first second : UInt8) : Bool :=
  isContinuation second &&
    (if first == 0xE0 then 0xA0 ≤ second
    else if first == 0xED then second < 0xA0
    else if first == 0xF0 then 0x90 ≤ second
    else if first == 0xF4 then second < 0x90
    else true)

/-- The piece that begins with the given byte, before the given rest. -/
def firstPiece (a : UInt8) (rest : Bytes) : Piece :=
  if a < 0x80 then .character (Char.ofNat a.toNat) 0
  else if a < 0xC2 then .malformed .invalidStart 0
  else if a < 0xE0 then
    match rest with
    | [] => .malformed .unexpectedEnd 0
    | b :: _ =>
      if isContinuation b then
        .character (Char.ofNat (a.toNat % 32 * 64 + continuationBits b)) 1
      else .malformed .invalidContinuation 0
  else if a < 0xF0 then
    match rest with
    | [] => .malformed .unexpectedEnd 0
    | b :: tail =>
      if !isSecond a b then .malformed .invalidContinuation 0
      else match tail with
        | [] => .malformed .unexpectedEnd 1
        | c :: _ =>
          if isContinuation c then
            .character (Char.ofNat (a.toNat % 16 * 4096 + continuationBits b * 64 +
              continuationBits c)) 2
          else .malformed .invalidContinuation 1
  else if a < 0xF5 then
    match rest with
    | [] => .malformed .unexpectedEnd 0
    | b :: tail =>
      if !isSecond a b then .malformed .invalidContinuation 0
      else match tail with
        | [] => .malformed .unexpectedEnd 1
        | c :: tail =>
          if !isContinuation c then .malformed .invalidContinuation 1
          else match tail with
            | [] => .malformed .unexpectedEnd 2
            | d :: _ =>
              if isContinuation d then
                .character (Char.ofNat (a.toNat % 8 * 262144 + continuationBits b * 4096 +
                  continuationBits c * 64 + continuationBits d)) 3
              else .malformed .invalidContinuation 2
  else .malformed .invalidStart 0

/-- The pieces of a byte sequence, in order. -/
def pieces : Bytes → List Piece
  | [] => []
  | a :: rest =>
    firstPiece a rest :: pieces (rest.drop ((firstPiece a rest).width - 1))
termination_by bytes => bytes.length
decreasing_by simp only [List.length_drop, List.length_cons]; omega

/-! ## Decoding -/

/-- The character that stands for a piece in lenient decoding. -/
def Piece.lenient : Piece → Char
  | .character c _ => c
  | .malformed _ _ => Char.ofNat 0xFFFD

/-- The decoded text, with a replacement character for each malformed part. -/
def decodeLenient (bytes : Bytes) : String :=
  String.ofList ((pieces bytes).map Piece.lenient)

/-- Bytes that are no text: where they begin, how many there are, the first of
them, and what is wrong. -/
structure Utf8Error where
  start : Nat
  width : Nat
  first : UInt8
  fault : Utf8Fault
  deriving DecidableEq, Repr, Inhabited

/-- The characters of pieces that begin at a place of the sequence, or the first
malformed part. -/
def decodePieces (bytes : Bytes) : Nat → List Piece → Except Utf8Error (List Char)
  | _, [] => .ok []
  | start, .character c following :: rest =>
    (decodePieces bytes (start + following + 1) rest).map (c :: ·)
  | start, .malformed fault following :: _ =>
    .error ⟨start, following + 1, bytes.getD start 0, fault⟩

/-- The decoded text, or the first malformed part. -/
def decodeStrict (bytes : Bytes) : Except Utf8Error (List Char) :=
  decodePieces bytes 0 (pieces bytes)

/-- The bytes of a text. -/
def encode (s : String) : Bytes :=
  s.toUTF8.toList

theorem decodePieces_eq_ok_iff (bytes : Bytes) (start : Nat) (ps : List Piece)
    (cs : List Char) :
    decodePieces bytes start ps = .ok cs ↔
      (∀ p ∈ ps, ∃ c following, p = .character c following) ∧ cs = ps.map Piece.lenient := by
  induction ps generalizing start cs with
  | nil => simp [decodePieces, eq_comm]
  | cons p rest ih =>
    cases p with
    | malformed fault following => simp [decodePieces]
    | character c following =>
      cases hrest : decodePieces bytes (start + following + 1) rest with
      | error e =>
        have := fun ds => (ih (start + following + 1) ds).2
        simp only [decodePieces, hrest, Except.map, reduceCtorEq, List.mem_cons, false_iff,
          not_and]
        intro hall _
        have hok := this _ ⟨fun p hp => hall p (Or.inr hp), rfl⟩
        rw [hrest] at hok
        cases hok
      | ok ds =>
        have hds := (ih (start + following + 1) ds).1 hrest
        simp only [decodePieces, hrest, Except.map, Except.ok.injEq, List.mem_cons,
          List.map_cons, Piece.lenient]
        constructor
        · intro h
          refine ⟨?_, by rw [← h, hds.2]⟩
          rintro p (rfl | hp)
          · exact ⟨c, following, rfl⟩
          · exact hds.1 p hp
        · rintro ⟨_, h⟩
          rw [h, hds.2]

/-- Strict decoding succeeds exactly when every piece is a character. -/
theorem decodeStrict_eq_ok_iff (bytes : Bytes) (cs : List Char) :
    decodeStrict bytes = .ok cs ↔
      (∀ p ∈ pieces bytes, ∃ c following, p = .character c following) ∧
        cs = (pieces bytes).map Piece.lenient :=
  decodePieces_eq_ok_iff bytes 0 (pieces bytes) cs

/-- Where strict decoding succeeds, lenient decoding agrees with it. -/
theorem decodeLenient_of_decodeStrict {bytes : Bytes} {cs : List Char}
    (h : decodeStrict bytes = .ok cs) : decodeLenient bytes = String.ofList cs := by
  rw [decodeLenient, ((decodeStrict_eq_ok_iff bytes cs).1 h).2]

/-! ## Messages -/

/-- What is wrong, in words. -/
def Utf8Fault.message : Utf8Fault → String
  | .invalidStart => "invalid start byte"
  | .invalidContinuation => "invalid continuation byte"
  | .unexpectedEnd => "unexpected end of data"

/-- The place of the malformed part: one byte by its value, several by their range. -/
def Utf8Error.message (e : Utf8Error) : String :=
  if e.width == 1 then
    let high := Nat.digitChar (e.first.toNat / 16)
    let low := Nat.digitChar (e.first.toNat % 16)
    s!"'utf-8' codec can't decode byte 0x{high}{low} in position {e.start}: {e.fault.message}"
  else
    s!"'utf-8' codec can't decode bytes in position {e.start}-{e.start + e.width - 1}: " ++
      e.fault.message

end Text
end FeatureCensus
