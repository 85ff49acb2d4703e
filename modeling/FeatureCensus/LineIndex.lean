import FeatureCensus.Text.Utf8

/-!
# Line indexes

A line index maps offsets in a source to line numbers that count from one.  It holds
the offsets at which lines start and finds the line of an offset by bisection, which
also has a definite result where the starts are in no order.

Main results:

- Theorem {lit}`LineIndex.lineCount_ofBytes_nil`: the empty source has no lines.
- Theorem {lit}`LineIndex.one_le_lineNumber`: line numbers count from one.
- Theorem {lit}`LineIndex.bisect_le`: the bisection ends within the starts.
-/

namespace FeatureCensus

open Text

/-- The offsets at which the lines of a source start. -/
structure LineIndex where
  starts : Array Int
  deriving DecidableEq, Repr, Inhabited

namespace LineIndex

/-! ## Building -/

/-- The byte that ends a line. -/
def lineFeed : UInt8 := 10

/-- The offsets just after the line feeds of bytes that begin at an offset. -/
def startsAfter (offset : Nat) : Bytes → List Int
  | [] => []
  | b :: rest =>
    if b == lineFeed then (offset + 1 : Nat) :: startsAfter (offset + 1) rest
    else startsAfter (offset + 1) rest

/-- The line index of a source.  An empty source has no lines. -/
def ofBytes (source : Bytes) : LineIndex :=
  if source.isEmpty then ⟨#[]⟩ else ⟨(0 :: startsAfter 0 source).toArray⟩

/-- The number of lines. -/
def lineCount (index : LineIndex) : Nat :=
  index.starts.size

/-- The empty source has no lines. -/
theorem lineCount_ofBytes_nil : (ofBytes []).lineCount = 0 := rfl

/-! ## Looking up -/

/-- The number of starts that a bisection between two positions puts before an
offset. -/
def bisect (starts : Array Int) (offset : Int) (lo hi : Nat) (bound : hi ≤ starts.size) : Nat :=
  if _step : lo < hi then
    let mid := (lo + hi) / 2
    have _inside : mid < starts.size := by omega
    if offset < starts[mid] then bisect starts offset lo mid (by omega)
    else bisect starts offset (mid + 1) hi bound
  else lo
termination_by hi - lo

/-- The line of an offset; offsets before the first start are on line one. -/
def lineNumber (index : LineIndex) (offset : Int) : Nat :=
  max (bisect index.starts offset 0 index.starts.size (Nat.le_refl _)) 1

/-- The bisection ends within the starts. -/
theorem bisect_le (starts : Array Int) (offset : Int) (lo hi : Nat) (bound : hi ≤ starts.size)
    (h : lo ≤ hi) : bisect starts offset lo hi bound ≤ hi := by
  fun_induction bisect starts offset lo hi bound with
  | case1 lo hi bound step mid inside less ih =>
    exact Nat.le_trans (ih (by omega)) (by omega)
  | case2 lo hi bound step mid inside less ih => exact ih (by omega)
  | case3 lo hi bound step => exact h

/-- Line numbers count from one. -/
theorem one_le_lineNumber (index : LineIndex) (offset : Int) : 1 ≤ index.lineNumber offset :=
  Nat.le_max_right _ _

end LineIndex
end FeatureCensus
