import FeatureCensus.Results.DatabaseError
import FeatureCensus.Results.Record

/-!
# Images of databases

The bytes of a database file: a header, and pages of one size.  The rows of a table hang on
a tree of pages, whose leaves hold the records; a long record goes on in overflow pages.

Main definitions:

- Definition {lit}`Image.ofBytes`: the image that bytes hold.
- Definition {lit}`Image.rowsAt`: the records of the table at a page.
-/

namespace FeatureCensus

open Text

/-- The bytes of a database file with what its header tells. -/
structure Image where
  bytes : Array UInt8
  pageSize : Nat
  pageCount : Nat
  /-- The number of bytes of a page that are not set aside. -/
  usable : Nat
  encoding : Encoding
  /-- The file may only be read. -/
  locked : Bool
  deriving Inhabited

namespace Image

/-! ## Bytes -/

/-- Some bytes from a place on; behind the end all are zero. -/
def slice (bytes : Array UInt8) (start count : Nat) : Bytes :=
  let found := (bytes.extract start (start + count)).toList
  found ++ List.replicate (count - found.length) 0

/-- The number that some bytes from a place on stand for. -/
def numberAt (bytes : Array UInt8) (start count : Nat) : Nat :=
  ByteOrder.big.value ((List.range count).map fun i => bytes.getD (start + i) 0)

/-- The byte at a place; behind the end all are zero. -/
def byteAt (bytes : Array UInt8) (place : Nat) : Nat :=
  numberAt bytes place 1

/-! ## Header -/

/-- The text at the front of all images. -/
def magic : Bytes :=
  encode "SQLite format 3\x00"

/-- The size of pages that a header tells. -/
def pageSizeOf (bytes : Array UInt8) : Nat :=
  if numberAt bytes 16 2 == 1 then 65536 else numberAt bytes 16 2

/-- Whether a number is a size that pages can have. -/
def isPageSize (size : Nat) : Bool :=
  (List.range 8).any fun i => twoPow (i + 9) == size

/-- Whether a header looks like that of a database. -/
def hasHeader (bytes : Array UInt8) : Bool :=
  magic.isPrefixOf (slice bytes 0 16) && byteAt bytes 19 ≤ 2 && byteAt bytes 21 == 64 &&
    byteAt bytes 22 == 32 && byteAt bytes 23 == 32 && isPageSize (pageSizeOf bytes)

/-- The number of pages in a file, where the last one may be cut off. -/
def pagesIn (bytes : Array UInt8) : Nat :=
  (bytes.size + pageSizeOf bytes - 1) / pageSizeOf bytes

/-- The number of pages of an image: what its header tells, if it was written together with
the last change, and otherwise all that are in the file. -/
def pagesTold (bytes : Array UInt8) : Nat :=
  if numberAt bytes 24 4 == numberAt bytes 92 4 && numberAt bytes 28 4 != 0 then
    numberAt bytes 28 4
  else pagesIn bytes

/-- The encoding of texts that a header tells. -/
def encodingOf (bytes : Array UInt8) : Encoding :=
  match byteAt bytes 59 % 4 with
  | 2 => .utf16 .little
  | 3 => .utf16 .big
  | _ => .utf8

/-- The image that bytes are. -/
def ofBytes (source : Bytes) : Except DatabaseError Image :=
  let bytes := source.toArray
  let image : Image :=
    { bytes
      pageSize := pageSizeOf bytes
      pageCount := pagesTold bytes
      usable := pageSizeOf bytes - byteAt bytes 20
      encoding := encodingOf bytes
      locked := 2 < byteAt bytes 18 }
  if !hasHeader bytes then .error .notADatabase
  else if pagesIn bytes < pagesTold bytes then .error .malformed
  else if image.usable < 480 then .error .notADatabase
  else if 4 < byteAt bytes 47 then .error .unsupportedFormat
  else .ok image

/-! ## Pages -/

/-- The place of a page.  The first page has the number one. -/
def pageStart (image : Image) (page : Nat) : Nat :=
  (page - 1) * image.pageSize

/-- The place of the header of a page, which on the first one follows that of the file. -/
def headerStart (image : Image) (page : Nat) : Nat :=
  image.pageStart page + if page == 1 then 100 else 0

/-- What a page is in a tree. -/
inductive PageKind where
  | leaf
  | branch
  | neither
  deriving DecidableEq, Repr, Inhabited

/-- What a tree of pages is for: a table whose rows have numbers, which hang on its leaves,
or an index, in which records stand on branches too. -/
inductive TreeKind where
  | table
  | index
  deriving DecidableEq, Repr, Inhabited

/-- What a page is in a tree of a kind. -/
def pageKind (image : Image) (tree : TreeKind) (page : Nat) : PageKind :=
  match tree, byteAt image.bytes (image.headerStart page) with
  | .table, 13 | .index, 10 => .leaf
  | .table, 5 | .index, 2 => .branch
  | _, _ => .neither

/-- The places of the cells of a page, whose pointers follow a header of this size. -/
def cellStarts (image : Image) (page headerSize : Nat) : List Nat :=
  let header := image.headerStart page
  (List.range (numberAt image.bytes (header + 3) 2)).map fun i =>
    image.pageStart page + numberAt image.bytes (header + headerSize + 2 * i) 2

/-- The last of the pages below a branch. -/
def lastChild (image : Image) (page : Nat) : Nat :=
  numberAt image.bytes (image.headerStart page + 8) 4

/-! ## Records -/

/-- The greatest number of bytes of a record that a page of a tree holds without others. -/
def TreeKind.limit (usable : Nat) : TreeKind → Nat
  | table => usable - 35
  | index => (usable - 12) * 64 / 255 - 23

/-- How many bytes of a record of a size a page holds, of which so many are usable and so many
are the limit. -/
def localSize (usable limit size : Nat) : Nat :=
  let least := (usable - 12) * 32 / 255 - 23
  let kept := least + (size - least) % (usable - 4)
  if size ≤ limit then size
  else if kept ≤ limit then min kept size
  else min least size

/-- Refuses pages that are not there. -/
def checkPage (image : Image) (page : Nat) : Except DatabaseError Unit :=
  if page == 0 || image.pageCount < page then .error .malformed else .ok ()

/-- The bytes of a record that overflow pages hold, of which there are at most so many. -/
def overflow (image : Image) : Nat → Nat → Nat → Except DatabaseError Bytes
  | 0, _, _ => .error .malformed
  | fuel + 1, page, count =>
    if count == 0 then .ok []
    else do
      image.checkPage page
      let start := image.pageStart page
      let size := min count (image.usable - 4)
      let more ← overflow image fuel (numberAt image.bytes start 4) (count - size)
      return slice image.bytes (start + 4) size ++ more

/-- A record with the number of its row, which is zero in an index. -/
structure Cell where
  number : Int
  record : Bytes
  deriving Inhabited

/-- The cell of a tree at a place. -/
def cellAt (image : Image) (tree : TreeKind) (start : Nat) : Except DatabaseError Cell := do
  let front := slice image.bytes start 18
  let (size, rest) := Record.number front
  let (number, rest) := match tree with
    | .table => Record.number rest
    | .index => (0, rest)
  let body := start + (front.length - rest.length)
  let count := localSize image.usable (tree.limit image.usable) size
  let more ←
    image.overflow (image.pageCount + 1) (numberAt image.bytes (body + count) 4) (size - count)
  return ⟨Record.signedOf 64 number, slice image.bytes body count ++ more⟩

/-- The greatest number of branches on the way to a leaf. -/
def depthLimit : Nat := 20

/-- The cells below a page in order, from which leaves are at most so many branches away. -/
def cellsBelow (image : Image) (tree : TreeKind) : Nat → Nat → Except DatabaseError (List Cell)
  | 0, _ => .error .malformed
  | depth + 1, page => do
    image.checkPage page
    match image.pageKind tree page with
    | .leaf => (image.cellStarts page 8).mapM (image.cellAt tree)
    | .branch =>
      let parts ← (image.cellStarts page 12).mapM fun start => do
        let below ← cellsBelow image tree depth (numberAt image.bytes start 4)
        match tree with
        | .table => return below
        | .index => return below ++ [← image.cellAt tree (start + 4)]
      return parts.flatten ++ (← cellsBelow image tree depth (image.lastChild page))
    | .neither => .error .malformed

/-- The numbers and the values of the rows that hang on the tree at a page. -/
def rowsAt (image : Image) (tree : TreeKind) (page : Nat) :
    Except DatabaseError (List (Int × List Relational.Value)) :=
  (image.cellsBelow tree depthLimit page).map fun cells =>
    cells.map fun cell => (cell.number, Record.values image.encoding cell.record)

end Image
end FeatureCensus
