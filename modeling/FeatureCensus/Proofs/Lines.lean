import FeatureCensus.Proofs.Bisection

/-!
# Lines

The bisection over starts in order counts the starts up to an offset, and lines start, in order, at
the beginning of a source and behind each line feed.  So the line of an offset is one more than the
number of line feeds before it, and lines follow each other as offsets do.

Main results:

- Theorem {lit}`LineIndex.lineNumber_ofBytes`: the line of an offset counts the line feeds before
  it.
- Theorem {lit}`LineIndex.lineNumber_ofBytes_le`: no line number exceeds the number of lines.
- Theorem {lit}`LineIndex.lineNumber_counts_lineFeeds`: what the lines of all offsets are, also of
  those in front of the source and behind it.
-/

namespace FeatureCensus
namespace LineIndex

open Text

/-! ## Starts -/

theorem lt_of_mem_startsAfter {offset : Nat} {source : Bytes} {start : Int}
    (h : start ∈ startsAfter offset source) : (offset : Int) < start := by
  induction source generalizing offset with
  | nil => cases h
  | cons b rest ih =>
    rw [startsAfter] at h
    split at h
    · rcases List.mem_cons.1 h with rfl | hlater
      · omega
      · have hnext := ih hlater
        omega
    · have hnext := ih h
      omega

/-- Lines start in order. -/
theorem pairwise_startsAfter (offset : Nat) (source : Bytes) :
    (startsAfter offset source).Pairwise (· ≤ ·) := by
  induction source generalizing offset with
  | nil => exact .nil
  | cons b rest ih =>
    rw [startsAfter]
    split
    · exact .cons (fun start hstart => le_of_lt (lt_of_mem_startsAfter hstart)) (ih (offset + 1))
    · exact ih (offset + 1)

/-- The starts up to a distance behind an offset are those behind the line feeds before it. -/
theorem countP_startsAfter (offset distance : Nat) (source : Bytes) :
    (startsAfter offset source).countP (· ≤ ((offset + distance : Nat) : Int)) =
      (source.take distance).count lineFeed := by
  induction source generalizing offset distance with
  | nil => simp [startsAfter]
  | cons b rest ih =>
    cases distance with
    | zero =>
      rw [List.take_zero, List.count_nil, List.countP_eq_zero]
      intro start hstart
      have hbehind := lt_of_mem_startsAfter hstart
      simpa using hbehind
    | succ distance =>
      have hrest := ih (offset + 1) distance
      rw [Nat.add_assoc, Nat.add_comm 1 distance] at hrest
      rw [startsAfter, List.take_succ_cons, List.count_cons, ← hrest]
      by_cases hb : (b == lineFeed) = true
      · rw [if_pos hb, if_pos hb, List.countP_cons_of_pos]
        simp
      · rw [if_neg hb, if_neg hb]
        rfl

theorem length_startsAfter (offset : Nat) (source : Bytes) :
    (startsAfter offset source).length = source.count lineFeed := by
  induction source generalizing offset with
  | nil => rfl
  | cons b rest ih =>
    rw [startsAfter, List.count_cons]
    by_cases hb : (b == lineFeed) = true
    · rw [if_pos hb, if_pos hb, List.length_cons, ih]
    · rw [if_neg hb, if_neg hb, ih, Nat.add_zero]

/-! ## Line numbers -/

/-- No line starts in front of the source. -/
theorem nonneg_of_mem_starts {source : Bytes} {start : Int}
    (h : start ∈ (ofBytes source).starts.toList) : 0 ≤ start := by
  unfold ofBytes at h
  split at h
  · cases h
  · rcases List.mem_cons.1 h with rfl | hlater
    · exact le_refl 0
    · exact le_of_lt (by simpa using lt_of_mem_startsAfter hlater)

theorem pairwise_starts (source : Bytes) :
    (ofBytes source).starts.toList.Pairwise (· ≤ ·) := by
  unfold ofBytes
  split
  · exact .nil
  · refine .cons (fun start hstart => ?_) (pairwise_startsAfter 0 source)
    exact le_of_lt (by simpa using lt_of_mem_startsAfter hstart)

/-- The line of an offset is one more than the number of line feeds before it. -/
theorem lineNumber_ofBytes (source : Bytes) (offset : Nat) :
    (ofBytes source).lineNumber offset = 1 + (source.take offset).count lineFeed := by
  rw [lineNumber, bisect_eq_countP (pairwise_starts source)]
  unfold ofBytes
  split
  · rename_i hempty
    obtain rfl := List.isEmpty_iff.1 hempty
    rw [List.take_nil, List.count_nil]
    rfl
  · have hcount := countP_startsAfter 0 offset source
    rw [Nat.zero_add] at hcount
    rw [List.countP_cons_of_pos (by simp), hcount]
    omega

theorem lineCount_ofBytes {source : Bytes} (h : source ≠ []) :
    (ofBytes source).lineCount = 1 + source.count lineFeed := by
  have hempty : source.isEmpty = false := by simpa using h
  rw [ofBytes, hempty, lineCount]
  simp [length_startsAfter, Nat.add_comm]

/-! ## Offsets in front of the source and behind it -/

/-- The number of line feeds at positions before an offset. -/
def lineFeedsBefore (source : Bytes) (offset : Int) : Nat :=
  source.zipIdx.countP fun (b, position) => b == lineFeed && decide ((position : Int) < offset)

theorem countP_zipIdx_lt (source : Bytes) (first distance : Nat) :
    (source.zipIdx first).countP (fun (b, position) =>
        b == lineFeed && decide ((position : Int) < (first + distance : Nat))) =
      (source.take distance).count lineFeed := by
  induction source generalizing first distance with
  | nil => simp
  | cons b rest ih =>
    cases distance with
    | zero =>
      rw [List.take_zero, List.count_nil, List.countP_eq_zero]
      intro entry hentry
      have hfirst := List.le_snd_of_mem_zipIdx hentry
      simp only [Bool.and_eq_true, decide_eq_true_eq, not_and]
      omega
    | succ distance =>
      have hrest := ih (first + 1) distance
      rw [Nat.add_assoc, Nat.add_comm 1 distance] at hrest
      rw [List.zipIdx_cons, List.countP_cons, hrest, List.take_succ_cons, List.count_cons]
      simp

/-- The line feeds before an offset are those in the part of the source that ends there. -/
theorem lineFeedsBefore_eq (source : Bytes) (offset : Int) :
    lineFeedsBefore source offset = (source.take offset.toNat).count lineFeed := by
  rw [← countP_zipIdx_lt source 0 offset.toNat, lineFeedsBefore]
  refine List.countP_congr fun entry _ => ?_
  have hsame : ((entry.2 : Int) < offset) ↔ ((entry.2 : Int) < (0 + offset.toNat : Nat)) := by
    omega
  simp only [hsame]

theorem lineFeedsBefore_mono (source : Bytes) {offset later : Int} (h : offset ≤ later) :
    lineFeedsBefore source offset ≤ lineFeedsBefore source later := by
  rw [lineFeedsBefore_eq, lineFeedsBefore_eq]
  have hle : offset.toNat ≤ later.toNat := by omega
  exact (List.take_sublist_take_left hle (l := source)).count_le lineFeed

/-- Behind a line feed there is one more before the offset. -/
theorem lineFeedsBefore_succ (source : Bytes) (position : Nat) :
    lineFeedsBefore source (position + 1 : Nat) =
      lineFeedsBefore source position +
        if source[position]? = some lineFeed then 1 else 0 := by
  rw [lineFeedsBefore_eq, lineFeedsBefore_eq, Int.toNat_natCast, Int.toNat_natCast,
    List.take_add_one, List.count_append]
  cases source[position]? with
  | none => simp
  | some b =>
    by_cases hb : b = lineFeed
    · simp [hb]
    · simp [hb]

/-- Offsets in front of the source are on line one. -/
theorem lineNumber_ofBytes_of_neg (source : Bytes) {offset : Int} (h : offset < 0) :
    (ofBytes source).lineNumber offset = 1 := by
  have hnone : (ofBytes source).starts.toList.countP (· ≤ offset) = 0 := by
    rw [List.countP_eq_zero]
    intro start hstart
    have hstart := nonneg_of_mem_starts hstart
    simp only [decide_eq_true_eq]
    omega
  rw [lineNumber, bisect_eq_countP (pairwise_starts source), hnone]
  rfl

/-- The line of any offset is one more than the number of line feeds before it. -/
theorem lineNumber_eq_lineFeedsBefore (source : Bytes) (offset : Int) :
    (ofBytes source).lineNumber offset = 1 + lineFeedsBefore source offset := by
  rw [lineFeedsBefore_eq]
  by_cases h : offset < 0
  · have hzero : offset.toNat = 0 := by omega
    rw [lineNumber_ofBytes_of_neg source h, hzero]
    rfl
  · have hnat : offset = (offset.toNat : Int) := by omega
    rw [hnat, lineNumber_ofBytes, Int.toNat_natCast]

/-- Lines follow each other as offsets do. -/
theorem lineNumber_ofBytes_mono (source : Bytes) {offset later : Int} (h : offset ≤ later) :
    (ofBytes source).lineNumber offset ≤ (ofBytes source).lineNumber later := by
  rw [lineNumber_eq_lineFeedsBefore, lineNumber_eq_lineFeedsBefore]
  exact Nat.add_le_add_left (lineFeedsBefore_mono source h) 1

/-- No line number exceeds the number of lines, if there are lines at all. -/
theorem lineNumber_ofBytes_le (source : Bytes) (offset : Int) :
    (ofBytes source).lineNumber offset ≤ max 1 (ofBytes source).lineCount := by
  rw [lineNumber_eq_lineFeedsBefore, lineFeedsBefore_eq]
  by_cases hsource : source = []
  · subst hsource
    simp
  · have hpart := (List.take_sublist offset.toNat source).count_le lineFeed
    rw [lineCount_ofBytes hsource]
    omega

/-- The line of an offset is one more than the number of line feeds before it, and there are as many
lines as line feeds and one more, unless the source is empty.  So the lines follow each other as the
offsets do, a new one begins just behind each line feed, and all are among the lines of the
source. -/
theorem lineNumber_counts_lineFeeds (source : Bytes) :
    (∀ offset : Int, (ofBytes source).lineNumber offset = 1 + lineFeedsBefore source offset) ∧
      (ofBytes source).lineCount = (if source = [] then 0 else 1 + source.count lineFeed) ∧
      (∀ offset later : Int, offset ≤ later →
        (ofBytes source).lineNumber offset ≤ (ofBytes source).lineNumber later) ∧
      (∀ position : Nat, (ofBytes source).lineNumber (position + 1 : Nat) =
        (ofBytes source).lineNumber position +
          if source[position]? = some lineFeed then 1 else 0) ∧
      ∀ offset : Int, 1 ≤ (ofBytes source).lineNumber offset ∧
        (ofBytes source).lineNumber offset ≤ max 1 (ofBytes source).lineCount := by
  have hlines := lineNumber_eq_lineFeedsBefore source
  refine ⟨hlines, ?_, fun _ _ h => lineNumber_ofBytes_mono source h, fun position => ?_,
    fun offset => ⟨one_le_lineNumber _ _, lineNumber_ofBytes_le source offset⟩⟩
  · split
    · rename_i hsource
      rw [hsource, lineCount_ofBytes_nil]
    · rename_i hsource
      exact lineCount_ofBytes hsource
  · rw [hlines, hlines, lineFeedsBefore_succ, Nat.add_assoc]

/-- A line feed at the end of a source begins a second line, on which all offsets behind it are. -/
theorem lineNumber_counts_lineFeeds_endedLine :
    (-3 : Int) ≤ 9 ∧
      (ofBytes [97, lineFeed]).lineNumber (-3) ≤ (ofBytes [97, lineFeed]).lineNumber 9 ∧
      (ofBytes [97, lineFeed]).lineNumber (-3) = 1 ∧
      (ofBytes [97, lineFeed]).lineNumber 9 = 2 ∧ (ofBytes [97, lineFeed]).lineCount = 2 := by
  obtain ⟨hlines, hcount, hmono, -, -⟩ := lineNumber_counts_lineFeeds [97, lineFeed]
  refine ⟨by decide, hmono (-3) 9 (by decide), ?_, ?_, hcount⟩
  · rw [hlines]
    decide
  · rw [hlines]
    decide

end LineIndex
end FeatureCensus
