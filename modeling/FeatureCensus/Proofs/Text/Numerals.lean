import FeatureCensus.Text.Integer
import Mathlib.Algebra.Group.Nat.Defs
import Mathlib.Data.List.TakeWhile

/-!
# Numerals of natural numbers

The decimal numeral of a natural number holds plain digits only: no blank is stripped from it
and nothing groups it.  So it is read as the number again, unless it is longer than numerals
that are read.

Main results:

- Theorem {lit}`Text.digitsValue_eq_ofDigitChars`: plain digits have the value that the library
  gives them.
- Theorem {lit}`Text.numeralDigits_of_isDigit`: a row of plain digits is a numeral.
- Theorem {lit}`Text.parseInteger_toString`: a number is read back from its numeral.
- Theorem {lit}`Text.eq_of_parseInteger_toString`: nothing else is read from it.
-/

namespace FeatureCensus
namespace Text

/-! ## Plain digits -/

theorem toNat_of_isDigit {c : Char} (h : c.isDigit = true) : 48 ≤ c.toNat ∧ c.toNat ≤ 57 := by
  simpa [Char.isDigit, UInt32.le_iff_toNat_le] using h

theorem decimalValue?_of_isDigit {c : Char} (h : c.isDigit = true) :
    decimalValue? c = some (c.toNat - 48) := by
  obtain ⟨hlow, hhigh⟩ := toNat_of_isDigit h
  simp [decimalValue?, decimalZeros, hlow, hhigh]

theorem isDecimalDigit_of_isDigit {c : Char} (h : c.isDigit = true) :
    isDecimalDigit c = true := by
  simp [isDecimalDigit, decimalValue?_of_isDigit h]

theorem not_isNumeralBlank_of_isDigit {c : Char} (h : c.isDigit = true) :
    isNumeralBlank c = false := by
  obtain ⟨hlow, hhigh⟩ := toNat_of_isDigit h
  have hblank : isBlank c = false := by
    simp only [isBlank, Bool.or_eq_false_iff, Bool.and_eq_false_iff, decide_eq_false_iff_not,
      beq_eq_false_iff_ne]
    omega
  simp [isNumeralBlank, hblank]

theorem ne_of_isDigit {c d : Char} (h : c.isDigit = true) (hd : d.isDigit = false) : c ≠ d := by
  rintro rfl
  rw [h] at hd
  cases hd

/-! ## Rows of plain digits -/

theorem stripCharsWhere_eq_self {p : Char → Bool} {cs : List Char}
    (h : ∀ c ∈ cs, p c = false) : stripCharsWhere p cs = cs := by
  have hkeep : ∀ ds : List Char, (∀ c ∈ ds, p c = false) → ds.dropWhile p = ds := by
    intro ds hds
    rw [List.dropWhile_eq_self_iff]
    intro hlength
    simp [hds ds[0] (List.getElem_mem hlength)]
  rw [stripCharsWhere, hkeep cs h, hkeep cs.reverse, List.reverse_reverse]
  intro c hc
  exact h c (List.mem_reverse.1 hc)

/-- Without a separator there is one field. -/
theorem fields_eq_singleton {p : Char → Bool} {cs : List Char} (h : ∀ c ∈ cs, p c = false) :
    fields p cs = [cs] := by
  induction cs with
  | nil => rfl
  | cons c rest ih =>
    exact fields_cons_of_neg (h c List.mem_cons_self)
      (ih fun d hd => h d (List.mem_cons_of_mem c hd))

/-- Plain digits have the value that the library gives them. -/
theorem digitsValue_eq_ofDigitChars {cs : List Char} (h : ∀ c ∈ cs, c.isDigit = true) :
    digitsValue cs = Nat.ofDigitChars 10 cs 0 := by
  have hfrom : ∀ start : Nat, cs.foldl (fun n c => n * 10 + (decimalValue? c).getD 0) start =
      Nat.ofDigitChars 10 cs start := by
    induction cs with
    | nil => simp
    | cons c rest ih =>
      intro start
      rw [List.foldl_cons, decimalValue?_of_isDigit (h c List.mem_cons_self),
        ih fun d hd => h d (List.mem_cons_of_mem c hd), Nat.ofDigitChars_cons, Nat.mul_comm]
      rfl
  exact hfrom 0

/-- A row of plain digits is a numeral of these digits, unless it is too long. -/
theorem numeralDigits_eq_of_isDigit (text : String) {cs : List Char} (hne : cs ≠ [])
    (h : ∀ c ∈ cs, c.isDigit = true) :
    numeralDigits text cs =
      if digitLimit < cs.length then .error (.tooManyDigits cs.length) else .ok cs := by
  have hfields : fields (· == '_') cs = [cs] := by
    refine fields_eq_singleton fun c hc => ?_
    simpa using ne_of_isDigit (h c hc) (by decide)
  have hdigits : ∀ c ∈ cs, (isDecimalDigit c || c == '_') = true := by
    intro c hc
    simp [isDecimalDigit_of_isDigit (h c hc)]
  have htake : cs.takeWhile (fun c => isDecimalDigit c || c == '_') = cs :=
    List.takeWhile_eq_self_iff.2 hdigits
  have hdrop : cs.dropWhile (fun c => isDecimalDigit c || c == '_') = [] :=
    List.dropWhile_eq_nil_iff.2 hdigits
  simp [numeralDigits, htake, hdrop, hfields, hne]

/-- A row of plain digits is a numeral, unless it is too long. -/
theorem numeralDigits_of_isDigit (text : String) {cs : List Char} (hne : cs ≠ [])
    (h : ∀ c ∈ cs, c.isDigit = true) (hlength : cs.length ≤ digitLimit) :
    numeralDigits text cs = .ok cs := by
  rw [numeralDigits_eq_of_isDigit text hne h, if_neg (Nat.not_lt.2 hlength)]

/-! ## Numbers -/

theorem isDigit_of_mem_toDigits_ten {n : Nat} {c : Char} (h : c ∈ Nat.toDigits 10 n) :
    c.isDigit = true :=
  Nat.isDigit_of_mem_toDigits (by decide) (by decide) h

/-- The numeral of a number holds digits only. -/
theorem not_mem_toString {c : Char} (hc : c.isDigit = false) (n : Nat) :
    c ∉ (toString n).toList := by
  rw [Nat.toString_eq_repr, Nat.toList_repr]
  intro h
  exact ne_of_isDigit (isDigit_of_mem_toDigits_ten h) hc rfl

/-- The numeral of an integer holds digits and a sign at most. -/
theorem not_mem_toString_of_ne_minus {c : Char} (hc : c.isDigit = false) (hsign : c ≠ '-')
    (i : Int) : c ∉ (toString i).toList := by
  rw [Int.toString_eq_repr, Int.repr_eq_if]
  split
  · exact not_mem_toString hc i.toNat
  · rw [String.toList_append, List.mem_append, not_or]
    refine ⟨?_, not_mem_toString hc (-i).toNat⟩
    intro h
    exact hsign (List.mem_singleton.1 h)

/-- The numeral of a number is read as an unsigned row of its digits. -/
theorem parseInteger_toString_eq (n : Nat) :
    parseInteger (toString n) = (numeralDigits (toString n) (Nat.toDigits 10 n)).map
      fun digits => (digitsValue digits : Int) := by
  have hstrip : stripCharsWhere isNumeralBlank (toString n).toList = Nat.toDigits 10 n := by
    rw [Nat.toString_eq_repr, Nat.toList_repr]
    exact stripCharsWhere_eq_self fun c hc =>
      not_isNumeralBlank_of_isDigit (isDigit_of_mem_toDigits_ten hc)
  unfold parseInteger
  rw [hstrip]
  split
  · rename_i rest hrest
    have hminus := isDigit_of_mem_toDigits_ten (n := n) (c := '-') (by simp [hrest])
    cases hminus
  · rename_i rest hrest
    have hplus := isDigit_of_mem_toDigits_ten (n := n) (c := '+') (by simp [hrest])
    cases hplus
  · rfl

/-- A number is read back from its numeral, unless that is too long. -/
theorem parseInteger_toString {n : Nat} (h : n < 10 ^ digitLimit) :
    parseInteger (toString n) = .ok n := by
  have hdigit : ∀ c ∈ Nat.toDigits 10 n, c.isDigit = true := fun c => isDigit_of_mem_toDigits_ten
  have hlength : (Nat.toDigits 10 n).length ≤ digitLimit :=
    (Nat.length_toDigits_le_iff (by decide) (by decide)).2 h
  rw [parseInteger_toString_eq, numeralDigits_of_isDigit _ Nat.toDigits_ne_nil hdigit hlength,
    Except.map, digitsValue_eq_ofDigitChars hdigit, Nat.ofDigitChars_ten_toDigits]

/-- What is read from the numeral of a number, if anything, is the number. -/
theorem eq_of_parseInteger_toString {n : Nat} {m : Int} (h : parseInteger (toString n) = .ok m) :
    m = n := by
  have hdigit : ∀ c ∈ Nat.toDigits 10 n, c.isDigit = true := fun c => isDigit_of_mem_toDigits_ten
  rw [parseInteger_toString_eq, numeralDigits_eq_of_isDigit _ Nat.toDigits_ne_nil hdigit] at h
  split at h
  · cases h
  · rw [Except.map, digitsValue_eq_ofDigitChars hdigit, Nat.ofDigitChars_ten_toDigits] at h
    exact (Except.ok.inj h).symm

end Text
end FeatureCensus
