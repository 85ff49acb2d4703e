import FeatureCensus.LineIndex
import Mathlib.Algebra.Group.Nat.Defs
import Mathlib.Algebra.Order.Group.Int
import Mathlib.Data.List.Basic

/-!
# Bisection

The bisection over the starts of lines, turn by turn.  A turn asks for the start in the middle of
the part that is left, so it may go astray where there is no such start.  What the turns keep is
said of the two ends of that part only, and therefore holds of starts in any order: the start in
front of the part is at most the offset, and the start behind it is above.

Main results:

- Theorem {lit}`LineIndex.after_of_brackets`: the turns never go astray, and each halves the part
  that is left.
- Theorem {lit}`LineIndex.bisection_ends_at_place`: where the bisection ends, for starts in any
  order.
- Theorem {lit}`LineIndex.bisect_eq_countP`: the bisection over starts in order counts those up to
  the offset.
-/

namespace FeatureCensus
namespace LineIndex

/-! ## Turns -/

/-- Where a bisection stands: the part between two positions is left to divide, or it has asked for
the start at a position that has none. -/
inductive Bisection where
  | between (lo hi : Nat)
  | astray (position : Nat)
  deriving DecidableEq, Repr

namespace Bisection

/-- One turn of a bisection.  It goes on in front of the start in the middle if that start is above
the offset, else behind it, and it is over when no part is left. -/
def turn? (starts : Array Int) (offset : Int) : Bisection → Option Bisection
  | between lo hi =>
    if lo < hi then
      match starts[(lo + hi) / 2]? with
      | some start =>
        if offset < start then some (between lo ((lo + hi) / 2))
        else some (between ((lo + hi) / 2 + 1) hi)
      | none => some (astray ((lo + hi) / 2))
    else none
  | astray _ => none

/-- Where a bisection stands after a number of turns.  One that is over stays where it is. -/
def after (starts : Array Int) (offset : Int) : Nat → Bisection → Bisection
  | 0, stand => stand
  | turns + 1, stand =>
    match turn? starts offset stand with
    | some next => after starts offset turns next
    | none => stand

end Bisection

/-- Where the bisection over all starts stands after a number of turns. -/
def bisection (index : LineIndex) (offset : Int) (turns : Nat) : Bisection :=
  Bisection.after index.starts offset turns (.between 0 index.lineCount)

/-- The position that the bisection over all starts finds. -/
def place (index : LineIndex) (offset : Int) : Nat :=
  bisect index.starts offset 0 index.lineCount (Nat.le_refl _)

/-! ## The two ends -/

/-- What a bisection keeps at the ends of the part that is left: the start in front of it is at most
the offset, and the start behind it is above. -/
structure Brackets (starts : Array Int) (offset : Int) (lo hi : Nat) : Prop where
  le : lo ≤ hi
  le_size : hi ≤ starts.size
  front : lo = 0 ∨ ∃ start, starts[lo - 1]? = some start ∧ start ≤ offset
  back : hi = starts.size ∨ ∃ start, starts[hi]? = some start ∧ offset < start

section

variable {starts : Array Int} {offset : Int} {lo hi : Nat}

/-- Nothing is in front of all starts or behind them. -/
theorem brackets_all (starts : Array Int) (offset : Int) :
    Brackets starts offset 0 starts.size :=
  ⟨Nat.zero_le _, Nat.le_refl _, Or.inl rfl, Or.inl rfl⟩

theorem Brackets.before_middle (h : Brackets starts offset lo hi) (step : lo < hi)
    (inside : (lo + hi) / 2 < starts.size) (less : offset < starts[(lo + hi) / 2]) :
    Brackets starts offset lo ((lo + hi) / 2) where
  le := by omega
  le_size := Nat.le_of_lt inside
  front := h.front
  back := Or.inr ⟨_, Array.getElem?_eq_getElem inside, less⟩

theorem Brackets.behind_middle (h : Brackets starts offset lo hi) (step : lo < hi)
    (inside : (lo + hi) / 2 < starts.size) (most : starts[(lo + hi) / 2] ≤ offset) :
    Brackets starts offset ((lo + hi) / 2 + 1) hi where
  le := by omega
  le_size := h.le_size
  front := Or.inr ⟨_, Array.getElem?_eq_getElem inside, most⟩
  back := h.back

/-- The position that is found does not lie in front of the first of the two it is looked for
between. -/
theorem le_bisect (bound : hi ≤ starts.size) : lo ≤ bisect starts offset lo hi bound := by
  fun_induction bisect starts offset lo hi bound with
  | case1 lo hi bound step mid inside less ih => exact ih
  | case2 lo hi bound step mid inside less ih =>
    apply Nat.le_trans _ ih
    omega
  | case3 lo hi bound step => exact Nat.le_refl lo

/-- Where a bisection ends, its two ends meet. -/
theorem brackets_bisect {bound : hi ≤ starts.size} (h : Brackets starts offset lo hi) :
    Brackets starts offset (bisect starts offset lo hi bound)
      (bisect starts offset lo hi bound) := by
  fun_induction bisect starts offset lo hi bound with
  | case1 lo hi bound step mid inside less ih =>
    apply ih
    exact h.before_middle step inside less
  | case2 lo hi bound step mid inside less ih =>
    apply ih
    exact h.behind_middle step inside (not_lt.1 less)
  | case3 lo hi bound step =>
    have hmeet : lo = hi := Nat.le_antisymm h.le (not_lt.1 step)
    subst hmeet
    exact h

/-! ## What a turn does -/

theorem turn?_of_lt (step : lo < hi) (inside : (lo + hi) / 2 < starts.size) :
    Bisection.turn? starts offset (.between lo hi) =
      if offset < starts[(lo + hi) / 2] then some (.between lo ((lo + hi) / 2))
      else some (.between ((lo + hi) / 2 + 1) hi) := by
  simp [Bisection.turn?, step, Array.getElem?_eq_getElem inside]

theorem turn?_of_not_lt (step : ¬lo < hi) :
    Bisection.turn? starts offset (.between lo hi) = none := by
  simp [Bisection.turn?, step]

theorem bisect_of_lt (step : lo < hi) (bound : hi ≤ starts.size)
    (inside : (lo + hi) / 2 < starts.size) :
    bisect starts offset lo hi bound =
      if offset < starts[(lo + hi) / 2] then
        bisect starts offset lo ((lo + hi) / 2) (Nat.le_of_lt inside)
      else bisect starts offset ((lo + hi) / 2 + 1) hi bound := by
  rw [bisect, dif_pos step]

/-- A turn between two ends finds a start to ask for.  It leads to two ends again, between which the
same position is found and at most half as much is left. -/
theorem turn?_of_brackets (h : Brackets starts offset lo hi) (step : lo < hi) :
    ∃ first last, ∃ next : Brackets starts offset first last,
      Bisection.turn? starts offset (.between lo hi) = some (.between first last) ∧
        bisect starts offset first last next.le_size = bisect starts offset lo hi h.le_size ∧
        2 * (last - first) ≤ hi - lo := by
  have inside : (lo + hi) / 2 < starts.size := by
    have hsize := h.le_size
    omega
  rw [turn?_of_lt step inside, bisect_of_lt step h.le_size inside]
  by_cases less : offset < starts[(lo + hi) / 2]
  · rw [if_pos less, if_pos less]
    refine ⟨lo, (lo + hi) / 2, h.before_middle step inside less, rfl, rfl, ?_⟩
    omega
  · rw [if_neg less, if_neg less]
    refine ⟨(lo + hi) / 2 + 1, hi, h.behind_middle step inside (not_lt.1 less), rfl, rfl, ?_⟩
    omega

/-- Turns between two ends never go astray.  They lead to two ends between which the same position
is found, and each leaves at most half as much. -/
theorem after_of_brackets (turns : Nat) (h : Brackets starts offset lo hi) :
    ∃ first last, ∃ next : Brackets starts offset first last,
      Bisection.after starts offset turns (.between lo hi) = .between first last ∧
        bisect starts offset first last next.le_size = bisect starts offset lo hi h.le_size ∧
        2 ^ turns * (last - first) ≤ hi - lo := by
  induction turns generalizing lo hi with
  | zero => exact ⟨lo, hi, h, rfl, rfl, by simp⟩
  | succ turns ih =>
    by_cases step : lo < hi
    · rcases turn?_of_brackets h step with ⟨first, last, next, hturn, hsame, hhalf⟩
      rcases ih next with ⟨first', last', next', hafter, hsame', hrest⟩
      refine ⟨first', last', next', ?_, hsame'.trans hsame, ?_⟩
      · simp [Bisection.after, hturn, hafter]
      · rw [pow_succ, Nat.mul_right_comm]
        omega
    -- A bisection that is over has no part left to halve.
    · refine ⟨lo, hi, h, ?_, rfl, ?_⟩
      · simp [Bisection.after, turn?_of_not_lt step]
      · simp [Nat.sub_eq_zero_of_le (not_lt.1 step)]

end

/-! ## Starts in order -/

/-- That all entries before a position are at most an offset, and all from it on are above. -/
structure Divides (starts : Array Int) (offset : Int) (lo hi : Nat) : Prop where
  before : ∀ i (h : i < starts.size), i < lo → starts[i] ≤ offset
  behind : ∀ i (h : i < starts.size), hi ≤ i → offset < starts[i]

/-- Where the starts are in order, what holds at the two ends holds of all in front and behind. -/
theorem Brackets.divides {starts : Array Int} (hsorted : starts.toList.Pairwise (· ≤ ·))
    {offset : Int} {lo hi : Nat} (h : Brackets starts offset lo hi) :
    Divides starts offset lo hi := by
  have hmono : ∀ i j (hi : i < starts.size) (hj : j < starts.size), i ≤ j →
      starts[i] ≤ starts[j] := by
    intro i j hi hj hij
    rcases Nat.lt_or_eq_of_le hij with hlt | rfl
    · exact List.pairwise_iff_getElem.1 hsorted i j hi hj hlt
    · exact le_refl _
  -- A start in front is at most the last one in front, one behind at least the first behind.
  constructor
  · intro i hsize hlt
    rcases h.front with rfl | ⟨start, hstart, hmost⟩
    · exact absurd hlt (Nat.not_lt_zero i)
    · rcases Array.getElem?_eq_some_iff.1 hstart with ⟨hfront, rfl⟩
      exact le_trans (hmono i (lo - 1) hsize hfront (by omega)) hmost
  · intro i hsize hle
    rcases h.back with rfl | ⟨start, hstart, hless⟩
    · exact absurd hsize (Nat.not_lt.2 hle)
    · rcases Array.getElem?_eq_some_iff.1 hstart with ⟨hback, rfl⟩
      exact lt_of_lt_of_le hless (hmono hi i hback hsize hle)

theorem countP_eq_of_divides {starts : Array Int} {offset : Int} {n : Nat} (hn : n ≤ starts.size)
    (h : Divides starts offset n n) : starts.toList.countP (· ≤ offset) = n := by
  have hbefore : (starts.toList.take n).countP (· ≤ offset) = (starts.toList.take n).length := by
    rw [List.countP_eq_length]
    intro start hstart
    obtain ⟨i, hi, rfl⟩ := List.mem_take_iff_getElem.1 hstart
    have hsize : i < starts.size := by simpa using (lt_min_iff.1 hi).2
    simpa using h.before i hsize (lt_min_iff.1 hi).1
  have hbehind : (starts.toList.drop n).countP (· ≤ offset) = 0 := by
    rw [List.countP_eq_zero]
    intro start hstart
    obtain ⟨i, hi, rfl⟩ := List.mem_drop_iff_getElem.1 hstart
    have hsize : n + i < starts.size := by simpa [Nat.add_comm] using hi
    simpa [Nat.add_comm] using h.behind (n + i) hsize (Nat.le_add_right n i)
  rw [← List.take_append_drop n starts.toList, List.countP_append, hbefore, hbehind]
  simpa using hn

/-- The bisection over starts in order counts those up to the offset. -/
theorem bisect_eq_countP {starts : Array Int} (hsorted : starts.toList.Pairwise (· ≤ ·))
    (offset : Int) :
    bisect starts offset 0 starts.size (Nat.le_refl _) =
      starts.toList.countP (· ≤ offset) := by
  have hfound : Brackets starts offset (bisect starts offset 0 starts.size (Nat.le_refl _))
      (bisect starts offset 0 starts.size (Nat.le_refl _)) :=
    brackets_bisect (brackets_all starts offset)
  exact (countP_eq_of_divides hfound.le_size (hfound.divides hsorted)).symm

/-! ## The place of an offset -/

/-- After any number of turns the place is still between the two ends. -/
theorem exists_bisection_eq (index : LineIndex) (offset : Int) (turns : Nat) :
    ∃ lo hi, index.bisection offset turns = .between lo hi ∧ lo ≤ index.place offset ∧
      index.place offset ≤ hi ∧ hi ≤ index.lineCount ∧
      2 ^ turns * (hi - lo) ≤ index.lineCount := by
  rcases after_of_brackets turns (brackets_all index.starts offset) with
    ⟨lo, hi, hends, hafter, hsame, hrest⟩
  refine ⟨lo, hi, hafter, ?_, ?_, hends.le_size, hrest⟩
  · exact (le_bisect hends.le_size).trans_eq hsame
  · exact hsame.symm.trans_le (bisect_le index.starts offset lo hi hends.le_size hends.le)

/-- When the turns have halved all starts away, the bisection is over. -/
theorem bisection_eq_place (index : LineIndex) (offset : Int) {turns : Nat}
    (h : index.lineCount < 2 ^ turns) :
    index.bisection offset turns = .between (index.place offset) (index.place offset) := by
  rcases exists_bisection_eq index offset turns with ⟨lo, hi, hafter, hfront, hback, -, hrest⟩
  have hnone : hi - lo < 1 := by
    apply Nat.lt_of_mul_lt_mul_left (a := 2 ^ turns)
    rw [Nat.mul_one]
    exact Nat.lt_of_le_of_lt hrest h
  have hlo : lo = index.place offset := by omega
  have hhi : hi = index.place offset := by omega
  rw [hafter, hlo, hhi]

/-- The bisection over starts in any order asks only for starts that there are, and it is over after
as many turns as the number of starts has binary digits.  It ends at a place just behind a start up
to the offset, unless in front of all, and just in front of a start above the offset, unless behind
all.  The line of the offset is this place, but at least one.  Where the starts are in order, the
place counts those up to the offset. -/
theorem bisection_ends_at_place (index : LineIndex) (offset : Int) :
    (∀ turns, ∃ lo hi, index.bisection offset turns = .between lo hi ∧
        lo ≤ index.place offset ∧ index.place offset ≤ hi ∧ hi ≤ index.lineCount) ∧
      (∀ turns, index.lineCount < 2 ^ turns →
        index.bisection offset turns = .between (index.place offset) (index.place offset)) ∧
      index.place offset ≤ index.lineCount ∧
      (index.place offset = 0 ∨
        ∃ start, index.starts[index.place offset - 1]? = some start ∧ start ≤ offset) ∧
      (index.place offset = index.lineCount ∨
        ∃ start, index.starts[index.place offset]? = some start ∧ offset < start) ∧
      index.lineNumber offset = max (index.place offset) 1 ∧
      (index.starts.toList.Pairwise (· ≤ ·) →
        index.place offset = index.starts.toList.countP (· ≤ offset)) := by
  have hplace : Brackets index.starts offset (index.place offset) (index.place offset) :=
    brackets_bisect (brackets_all index.starts offset)
  refine ⟨fun turns => ?_, fun turns hturns => bisection_eq_place index offset hturns,
    hplace.le_size, hplace.front, hplace.back, rfl, fun hsorted => bisect_eq_countP hsorted offset⟩
  rcases exists_bisection_eq index offset turns with ⟨lo, hi, hafter, hfront, hback, hsize, -⟩
  exact ⟨lo, hi, hafter, hfront, hback, hsize⟩

/-- Of starts in disorder the place need not count those up to the offset; of starts in order it
does. -/
theorem bisection_ends_at_place_shuffledStarts :
    4 < 2 ^ 3 ∧ (⟨#[0, 30, 10, 20]⟩ : LineIndex).bisection 15 3 = .between 3 3 ∧
      (⟨#[0, 30, 10, 20]⟩ : LineIndex).place 15 = 3 ∧
      (#[0, 30, 10, 20] : Array Int).toList.countP (· ≤ 15) = 2 ∧
      (#[0, 10, 20, 30] : Array Int).toList.Pairwise (· ≤ ·) ∧
      (⟨#[0, 10, 20, 30]⟩ : LineIndex).place 15 = 2 ∧
      (⟨#[0, 10, 20, 30]⟩ : LineIndex).lineNumber 15 = 2 := by
  have hturns : (⟨#[0, 30, 10, 20]⟩ : LineIndex).bisection 15 3 = .between 3 3 := by decide
  have hover := (bisection_ends_at_place ⟨#[0, 30, 10, 20]⟩ 15).2.1 3 (by decide)
  rcases bisection_ends_at_place ⟨#[0, 10, 20, 30]⟩ 15 with ⟨-, -, -, -, -, hline, hcount⟩
  have hordered : (#[0, 10, 20, 30] : Array Int).toList.Pairwise (· ≤ ·) := by decide
  have hplace : (⟨#[0, 10, 20, 30]⟩ : LineIndex).place 15 = 2 := (hcount hordered).trans (by decide)
  refine ⟨by decide, hturns, ?_, by decide, hordered, hplace, ?_⟩
  · rw [hturns] at hover
    injection hover with hlo _
    exact hlo.symm
  · rw [hline, hplace]
    rfl

end LineIndex
end FeatureCensus
