/-!
# Blank characters

The characters that count as white space around a line of text, and the
removal of such characters from both ends of a text.

Main results:

- Theorem {lit}`Text.stripChars_of_all_blank`: a text of blanks is stripped to
  nothing.
-/

namespace FeatureCensus
namespace Text

/-! ## The class of blanks -/

/-- The Unicode white space characters, together with the four ASCII information
separators. -/
def isBlank (c : Char) : Bool :=
  let n := c.toNat
  (9 ≤ n && n ≤ 13) || (28 ≤ n && n ≤ 32) || n == 0x85 || n == 0xA0 || n == 0x1680 ||
    (0x2000 ≤ n && n ≤ 0x200A) || n == 0x2028 || n == 0x2029 || n == 0x202F ||
    n == 0x205F || n == 0x3000

/-- The white space of numerals: the blanks without the ASCII information separators. -/
def isNumeralBlank (c : Char) : Bool :=
  isBlank c && !(28 ≤ c.toNat && c.toNat ≤ 31)

/-! ## Stripping -/

/-- Drops the characters of a class from both ends of a list of characters. -/
def stripCharsWhere (p : Char → Bool) (cs : List Char) : List Char :=
  ((cs.dropWhile p).reverse.dropWhile p).reverse

/-- Drops the blanks at both ends of a list of characters. -/
def stripChars (cs : List Char) : List Char :=
  stripCharsWhere isBlank cs

/-- Drops the blanks at both ends of a text. -/
def strip (s : String) : String :=
  String.ofList (stripChars s.toList)

/-- A text of blanks is stripped to nothing. -/
theorem stripChars_of_all_blank {cs : List Char} (h : ∀ c ∈ cs, isBlank c = true) :
    stripChars cs = [] := by
  have hdrop : cs.dropWhile isBlank = [] := by
    induction cs with
    | nil => rfl
    | cons c rest ih =>
      rw [List.dropWhile_cons_of_pos (h c List.mem_cons_self)]
      exact ih fun d hd => h d (List.mem_cons_of_mem c hd)
  simp [stripChars, stripCharsWhere, hdrop]

end Text
end FeatureCensus
