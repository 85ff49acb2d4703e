import FeatureCensus.Json.Value
import FeatureCensus.Syntax.Token
import FeatureCensus.Text.Hexadecimal

/-!
# Recorded parses

Sources and the trees that a parser made of them, as they are written in a snapshot.  A
source is a text or a row of hexadecimal digits; a tree is a list of rows with depth,
type, place, flags and field.

Main definitions:

- Definition {lit}`Snapshot.sourceOf`: a recorded source.
- Definition {lit}`Snapshot.treeOf`: a recorded tree.
-/

namespace FeatureCensus
namespace Snapshot

open Text Syntax

/-! ## Sources -/

/-- The text in a field. -/
def textField? (j : Json) (name : String) : Option String :=
  (j.field? name).bind Json.text?

/-- The source in an object: digits count before a text, and nothing is an empty source. -/
def sourceOf (j : Json) : Bytes :=
  match textField? j "source_hex" with
  | some digits => hexBytes digits.toList
  | none => ((textField? j "source").map encode).getD []

/-! ## Trees -/

/-- The part of a source between two places. -/
def slice (source : Array UInt8) (start stop : Nat) : Bytes :=
  (source.extract start stop).toList

/-- The whole number of a value; anything else counts as zero. -/
def natOf (j : Option Json) : Nat :=
  ((j.bind Json.integer?).map Int.toNat).getD 0

/-- The flags of a row, which are those of a named node if they are not given. -/
def flagsOf (j : Option Json) : List Char :=
  ((j.bind Json.text?).getD "n").toList

/-- The node of a row, with its depth. -/
def nodeOf (source : Array UInt8) (row : Json) : Nat × Token :=
  let cells := (row.list?).getD []
  let start := natOf cells[2]?
  let stop := natOf cells[3]?
  let flags := flagsOf cells[4]?
  (natOf cells[0]?,
    { type := (cells[1]?.bind Json.text?).getD ""
      start
      stop
      named := flags.contains 'n'
      missing := flags.contains 'm'
      field := cells[5]?.bind Json.text?
      text := if flags.contains 'x' then [] else slice source start stop })

/-- The tree that is recorded for a source; without rows there is just a root. -/
def treeOf (source : Bytes) (rows? : Option Json) : ParseTree :=
  match rows?.bind Json.list? with
  | none => bareTree source
  | some rows => (Tree.ofRows? (rows.map (nodeOf source.toArray))).getD (bareTree source)

/-- The nodes of a tree that is recorded for a source, in document order. -/
def recordedTree (j : Json) : Bytes × ParseTree :=
  (sourceOf j, treeOf (sourceOf j) (j.field? "cst"))

end Snapshot
end FeatureCensus
