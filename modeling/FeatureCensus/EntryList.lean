import FeatureCensus.Text.Blank
import FeatureCensus.Text.Utf8

/-!
# Entry lists

An entry list is a text file with one entry per line.  Lines end with a line
feed, a carriage return or both, all of which are read as a line feed; blanks around
an entry and blank lines do not count.

Main definitions:

- Definition {lit}`EntryList.entries`: the entries of a text.
- Definition {lit}`EntryList.decodeFile`: the text of a file that is decoded by blocks.
-/

namespace FeatureCensus
namespace EntryList

open Text

/-! ## Lines -/

/-- A text with a line feed for whatever ends a line. -/
def translated : List Char → List Char
  | [] => []
  | '\r' :: '\n' :: rest => '\n' :: translated rest
  | c :: rest => (if c == '\r' then '\n' else c) :: translated rest

/-- The lines of a text, each with the line feed that ends it. -/
def lines : List Char → List (List Char)
  | [] => []
  | c :: rest =>
    if c == '\n' then [c] :: lines rest
    else match lines rest with
      | [] => [[c]]
      | line :: more => (c :: line) :: more

/-- The entries of a text: its lines without the blanks around them, if anything is left. -/
def entries (cs : List Char) : List String :=
  (((lines (translated cs)).map stripChars).filter (!·.isEmpty)).map String.ofList

/-! ## Bytes -/

/-- The number of bytes that are decoded at a time. -/
def blockSize : Nat := 8192

/-- Whether bytes are the first two of the three that would be a surrogate.  At the end of
a block such bytes wait for the third one, although no character begins with them. -/
def isSurrogateStart : Bytes → Bool
  | [first, second] => first == 0xED && 0xA0 ≤ second && second ≤ 0xBF
  | _ => false

/-- The characters at the beginning of a block and the bytes of an unfinished
character at its end. -/
def decodeBlock (block : Bytes) : Nat → List Piece → Except Utf8Error (List Char × Bytes)
  | _, [] => .ok ([], [])
  | start, .character c following :: rest =>
    (decodeBlock block (start + following + 1) rest).map fun (cs, left) => (c :: cs, left)
  | start, .malformed fault following :: _ =>
    let left := block.drop start
    if fault = .unexpectedEnd || isSurrogateStart left then .ok ([], left)
    else .error ⟨start, following + 1, block.getD start 0, fault⟩

/-- Decodes a file block by block.  The bytes of a character that a block leaves
unfinished are put before the next block, and the place of a malformed part counts
from the first of the bytes decoded together. -/
def decodeFile (carried : Bytes) (bytes : Bytes) : Except Utf8Error (List Char) :=
  match bytes with
  | [] => decodeStrict carried
  | b :: rest => do
    let block := carried ++ b :: rest.take (blockSize - 1)
    let (cs, left) ← decodeBlock block 0 (pieces block)
    let more ← decodeFile left (rest.drop (blockSize - 1))
    return cs ++ more
termination_by bytes.length
decreasing_by simp only [List.length_drop, List.length_cons]; omega

/-- The entries of a file. -/
def parse (bytes : Bytes) : Except Utf8Error (List String) :=
  (decodeFile [] bytes).map entries

end EntryList
end FeatureCensus
