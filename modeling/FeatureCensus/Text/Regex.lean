/-!
# Regular expressions

Regular expressions of texts, classes of characters, options and sequences.  An expression is
matched by what may be left of a text behind it, so that a whole text is matched if nothing may be
left.

Main results:

- Theorem {lit}`Text.Regex.mem_remainders_iff`: what may be left is behind what is matched.
- Theorem {lit}`Text.Regex.fullMatches_iff`: a whole text is matched if it has the form.
-/

namespace FeatureCensus
namespace Text

/-- A regular expression. -/
inductive Regex where
  /-- A text as it stands. -/
  | text (word : List Char)
  /-- A character of a class. -/
  | one (p : Char → Bool)
  /-- Any number of characters of a class. -/
  | many (p : Char → Bool)
  /-- An expression or nothing. -/
  | optional (r : Regex)
  /-- An expression and another one behind it. -/
  | seq (first second : Regex)

namespace Regex

/-! ## Matching -/

/-- What may be left behind any number of characters of a class. -/
def remaindersOf (p : Char → Bool) : List Char → List (List Char)
  | [] => [[]]
  | c :: rest => (c :: rest) :: if p c then remaindersOf p rest else []

/-- What may be left of a text behind an expression. -/
def remainders : Regex → List Char → List (List Char)
  | text word, cs => if word.isPrefixOf cs then [cs.drop word.length] else []
  | one _, [] => []
  | one p, c :: rest => if p c then [rest] else []
  | many p, cs => remaindersOf p cs
  | optional r, cs => r.remainders cs ++ [cs]
  | seq first second, cs => (first.remainders cs).flatMap second.remainders

/-- Whether an expression matches a whole text. -/
def fullMatches (r : Regex) (cs : List Char) : Bool :=
  (r.remainders cs).any List.isEmpty

/-! ## Forms -/

/-- The texts that have the form of an expression. -/
inductive Matches : Regex → List Char → Prop where
  | text (word : List Char) : Matches (.text word) word
  | one {p : Char → Bool} {c : Char} (h : p c = true) : Matches (.one p) [c]
  | many {p : Char → Bool} {cs : List Char} (h : ∀ c ∈ cs, p c = true) : Matches (.many p) cs
  | present {r : Regex} {cs : List Char} (h : Matches r cs) : Matches (.optional r) cs
  | absent (r : Regex) : Matches (.optional r) []
  | seq {first second : Regex} {cs ds : List Char} (hfirst : Matches first cs)
      (hsecond : Matches second ds) : Matches (.seq first second) (cs ++ ds)

variable {r first second : Regex} {p : Char → Bool} {cs front rest : List Char}

theorem mem_remaindersOf_iff :
    rest ∈ remaindersOf p cs ↔ ∃ front, (∀ c ∈ front, p c = true) ∧ cs = front ++ rest := by
  induction cs with
  | nil =>
    simp only [remaindersOf, List.mem_singleton, List.nil_eq, List.append_eq_nil_iff]
    constructor
    · rintro rfl
      exact ⟨[], by simp, rfl, rfl⟩
    · rintro ⟨front, -, -, hrest⟩
      exact hrest
  | cons c tail ih =>
    rw [remaindersOf, List.mem_cons]
    constructor
    · rintro (rfl | hmem)
      · exact ⟨[], by simp, rfl⟩
      · split at hmem
        · rename_i hc
          obtain ⟨front, hfront, rfl⟩ := ih.1 hmem
          exact ⟨c :: front, List.forall_mem_cons.2 ⟨hc, hfront⟩, rfl⟩
        · cases hmem
    · rintro ⟨front, hfront, hcs⟩
      cases front with
      | nil => exact .inl hcs.symm
      | cons d front =>
        obtain ⟨rfl, rfl⟩ := List.cons.inj hcs
        rw [List.forall_mem_cons] at hfront
        rw [if_pos hfront.1]
        exact .inr (ih.2 ⟨front, hfront.2, rfl⟩)

theorem mem_remainders_text_iff {word : List Char} :
    rest ∈ (text word).remainders cs ↔ cs = word ++ rest := by
  rw [remainders]
  constructor
  · intro hmem
    split at hmem
    · rename_i hprefix
      obtain ⟨tail, rfl⟩ := List.isPrefixOf_iff_prefix.1 hprefix
      rw [List.drop_left, List.mem_singleton] at hmem
      rw [hmem]
    · cases hmem
  · rintro rfl
    rw [if_pos (List.isPrefixOf_iff_prefix.2 (List.prefix_append _ _)), List.drop_left]
    exact List.mem_singleton_self rest

theorem mem_remainders_one_iff :
    rest ∈ (one p).remainders cs ↔ ∃ c, p c = true ∧ cs = c :: rest := by
  cases cs with
  | nil => simp [remainders]
  | cons first tail =>
    rw [remainders, List.mem_ite_nil_right, List.mem_singleton]
    constructor
    · rintro ⟨hfirst, rfl⟩
      exact ⟨first, hfirst, rfl⟩
    · rintro ⟨c, hc, hcs⟩
      obtain ⟨rfl, rfl⟩ := List.cons.inj hcs
      exact ⟨hc, rfl⟩

/-- What may be left of a text is what stands in it behind something of the form. -/
theorem mem_remainders_iff :
    rest ∈ r.remainders cs ↔ ∃ front, r.Matches front ∧ cs = front ++ rest := by
  induction r generalizing cs rest with
  | text word =>
    rw [mem_remainders_text_iff]
    constructor
    · rintro rfl
      exact ⟨word, .text word, rfl⟩
    · rintro ⟨front, hfront, rfl⟩
      cases hfront with
      | text => rfl
  | one p =>
    rw [mem_remainders_one_iff]
    constructor
    · rintro ⟨c, hc, rfl⟩
      exact ⟨[c], .one hc, rfl⟩
    · rintro ⟨front, hfront, rfl⟩
      cases hfront with
      | @one _ c hc => exact ⟨c, hc, rfl⟩
  | many p =>
    rw [remainders, mem_remaindersOf_iff]
    constructor
    · rintro ⟨front, hfront, rfl⟩
      exact ⟨front, .many hfront, rfl⟩
    · rintro ⟨front, hfront, rfl⟩
      cases hfront with
      | many hall => exact ⟨front, hall, rfl⟩
  | optional r ih =>
    rw [remainders, List.mem_append, List.mem_singleton, ih]
    constructor
    · rintro (⟨front, hfront, rfl⟩ | rfl)
      · exact ⟨front, .present hfront, rfl⟩
      · exact ⟨[], .absent r, rfl⟩
    · rintro ⟨front, hfront, rfl⟩
      cases hfront with
      | present hfront => exact .inl ⟨front, hfront, rfl⟩
      | absent => exact .inr rfl
  | seq first second ihfirst ihsecond =>
    rw [remainders, List.mem_flatMap]
    constructor
    · rintro ⟨between, hbetween, hrest⟩
      obtain ⟨front, hfront, rfl⟩ := ihfirst.1 hbetween
      obtain ⟨middle, hmiddle, rfl⟩ := ihsecond.1 hrest
      exact ⟨front ++ middle, .seq hfront hmiddle, (List.append_assoc _ _ _).symm⟩
    · rintro ⟨front, hfront, rfl⟩
      cases hfront with
      | @seq _ _ front middle hfront hmiddle =>
        refine ⟨middle ++ rest, ihfirst.2 ⟨front, hfront, List.append_assoc _ _ _⟩, ?_⟩
        exact ihsecond.2 ⟨middle, hmiddle, rfl⟩

/-- A whole text is matched if it has the form. -/
theorem fullMatches_iff : r.fullMatches cs = true ↔ r.Matches cs := by
  rw [fullMatches, List.any_eq_true]
  constructor
  · rintro ⟨rest, hrest, hempty⟩
    obtain ⟨front, hfront, rfl⟩ := mem_remainders_iff.1 hrest
    rwa [List.isEmpty_iff.1 hempty, List.append_nil]
  · intro h
    exact ⟨[], mem_remainders_iff.2 ⟨cs, h, (List.append_nil cs).symm⟩, rfl⟩

end Regex
end Text
end FeatureCensus
