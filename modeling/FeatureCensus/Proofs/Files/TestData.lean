import FeatureCensus.Analysis.SourceFiles
import FeatureCensus.Proofs.Text.Fields

/-!
# Test data

A path is test data if it is on one line and the name of the directories of test data stands in it
with a separator behind it, and with a separator or nothing before it.  What stands so is one of
the directories on the way to the file.  So no part of a directory's name counts, and the name of
the file does not count at all.

Main results:

- Theorem {lit}`SourceFiles.matches_testDataForm_iff`: which paths have the form of test data.
- Theorem {lit}`SourceFiles.isSetApart_iff`: what is set apart in a path is a component but not the
  last one.
- Theorem {lit}`SourceFiles.excludes_testData_iff`: which paths are excluded as test data.
-/

namespace FeatureCensus
namespace SourceFiles

open Text

variable {name cs : List Char}

/-! ## Names set apart by separators -/

/-- That a name stands in a path with a separator behind it, and at the beginning of the path or
with a separator before it. -/
def IsSetApart (name cs : List Char) : Prop :=
  ∃ before c after, isSeparator c = true ∧ cs = before ++ name ++ c :: after ∧
    (before = [] ∨ ∃ trunk d, isSeparator d = true ∧ before = trunk ++ [d])

theorem staysOnLine_of_isSeparator {c : Char} (h : isSeparator c = true) :
    staysOnLine c = true := by
  rw [isSeparator, Bool.or_eq_true, beq_iff_eq, beq_iff_eq] at h
  rcases h with rfl | rfl <;> decide

theorem staysOnLine_of_mem_testDataName : ∀ c ∈ testDataName, staysOnLine c = true := by
  simp [testDataName, staysOnLine]

/-- The parts of a path that has the form of test data. -/
theorem exists_of_matches_testDataForm (h : testDataForm.Matches cs) :
    ∃ before c after, cs = before ++ (testDataName ++ ([c] ++ after)) ∧ isSeparator c = true ∧
      (∀ b ∈ after, staysOnLine b = true) ∧
      (before = [] ∨ ∃ trunk d, before = trunk ++ [d] ∧ isSeparator d = true ∧
        ∀ b ∈ trunk, staysOnLine b = true) := by
  cases h with
  | @seq _ _ before _ hbefore hrest =>
  cases hrest with
  | seq hword hrest =>
  cases hword with
  | text =>
  cases hrest with
  | @seq _ _ _ after hseparator hafter =>
  cases hseparator with
  | @one _ c hc =>
  cases hafter with
  | many hafter =>
  refine ⟨before, c, after, rfl, hc, hafter, ?_⟩
  cases hbefore with
  | absent => exact .inl rfl
  | present hbefore =>
    cases hbefore with
    | @seq _ _ trunk _ htrunk hseparator =>
    cases hseparator with
    | @one _ d hd =>
    cases htrunk with
    | many htrunk => exact .inr ⟨trunk, d, rfl, hd, htrunk⟩

/-- A path has the form of test data if it is on one line and the name of the directories of test
data is set apart in it. -/
theorem matches_testDataForm_iff :
    testDataForm.Matches cs ↔ (∀ c ∈ cs, staysOnLine c = true) ∧ IsSetApart testDataName cs := by
  constructor
  · intro h
    obtain ⟨before, c, after, rfl, hc, hafter, hbefore⟩ := exists_of_matches_testDataForm h
    have hstays : ∀ b ∈ before, staysOnLine b = true := by
      rcases hbefore with rfl | ⟨trunk, d, rfl, hd, htrunk⟩
      · simp
      · simpa [or_imp, forall_and, staysOnLine_of_isSeparator hd] using htrunk
    refine ⟨?_, before, c, after, hc, by simp, ?_⟩
    · intro b hb
      simp only [List.mem_append, List.mem_singleton] at hb
      rcases hb with hb | hb | rfl | hb
      · exact hstays b hb
      · exact staysOnLine_of_mem_testDataName b hb
      · exact staysOnLine_of_isSeparator hc
      · exact hafter b hb
    · exact hbefore.imp_right fun ⟨trunk, d, heq, hd, _⟩ => ⟨trunk, d, hd, heq⟩
  · rintro ⟨hstays, before, c, after, hc, rfl, hbefore⟩
    have hafter : ∀ b ∈ after, staysOnLine b = true := fun b hb => hstays b (by simp [hb])
    have hrest : (Regex.seq (.text testDataName)
        (.seq (.one isSeparator) (.many staysOnLine))).Matches (testDataName ++ ([c] ++ after)) :=
      .seq (.text testDataName) (.seq (.one hc) (.many hafter))
    rw [List.append_assoc]
    rcases hbefore with rfl | ⟨trunk, d, hd, rfl⟩
    · exact .seq (.absent _) hrest
    · have htrunk : ∀ b ∈ trunk, staysOnLine b = true := fun b hb => hstays b (by simp [hb])
      exact .seq (.present (.seq (.many htrunk) (.one hd))) hrest

/-! ## Components -/

theorem mem_dropLast_iff {α : Type} {x : α} {xs : List α} :
    x ∈ xs.dropLast ↔ ∃ before after, after ≠ [] ∧ xs = before ++ [x] ++ after := by
  constructor
  · intro h
    obtain ⟨before, after, hsplit⟩ := List.append_of_mem h
    have hne : xs ≠ [] := by
      rintro rfl
      cases h
    refine ⟨before, after ++ [xs.getLast hne], by simp, ?_⟩
    calc xs = xs.dropLast ++ [xs.getLast hne] := (List.dropLast_append_getLast hne).symm
      _ = before ++ [x] ++ (after ++ [xs.getLast hne]) := by rw [hsplit]; simp
  · rintro ⟨before, after, hafter, rfl⟩
    rw [List.dropLast_append_of_ne_nil hafter]
    simp

/-- What is set apart in a path and has no separators is one of the components, but not the last
one. -/
theorem isSetApart_iff (hname : ∀ c ∈ name, isSeparator c = false) :
    IsSetApart name cs ↔ name ∈ (fields isSeparator cs).dropLast := by
  have hsingle : fields isSeparator name = [name] := fields_eq_singleton hname
  rw [mem_dropLast_iff]
  constructor
  · rintro ⟨before, c, after, hc, rfl, rfl | ⟨trunk, d, hd, rfl⟩⟩
    · refine ⟨[], fields isSeparator after, fields_ne_nil _ after, ?_⟩
      rw [List.nil_append, fields_append_separator hc, hsingle, List.nil_append]
    · refine ⟨fields isSeparator trunk, fields isSeparator after, fields_ne_nil _ after, ?_⟩
      rw [fields_append_separator hc, List.append_assoc, List.singleton_append,
        fields_append_separator hd, hsingle]
  · rintro ⟨before, after, hafter, hfields⟩
    obtain ⟨first, c, rest, hc, rfl, hfirst, -⟩ :=
      exists_of_fields_eq_append (by simp) hafter hfields
    -- The name is now the last field of what stands in front of a separator.
    by_cases hbefore : before = []
    · subst hbefore
      obtain rfl := eq_of_fields_eq_singleton hfirst
      exact ⟨[], c, rest, hc, rfl, .inl rfl⟩
    · obtain ⟨trunk, d, last, hd, rfl, -, hlast⟩ :=
        exists_of_fields_eq_append hbefore (List.cons_ne_nil name []) hfirst
      obtain rfl := eq_of_fields_eq_singleton hlast
      exact ⟨trunk ++ [d], c, rest, hc, by simp, .inr ⟨trunk, d, hd, rfl⟩⟩

/-- A path is excluded as test data if it is on one line and one of its components but the last one
is the name of the directories of test data. -/
theorem excludes_testData_iff (path : String) :
    excludes path .testData = true ↔
      '\n' ∉ path.toList ∧ "testData".toList ∈ (fields isSeparator path.toList).dropLast := by
  have hname : "testData".toList = testDataName := rfl
  have hplain : ∀ c ∈ testDataName, isSeparator c = false := by simp [testDataName, isSeparator]
  have hline : (∀ c ∈ path.toList, staysOnLine c = true) ↔ '\n' ∉ path.toList := by
    simp only [staysOnLine, bne_iff_ne]
    exact ⟨fun h hfeed => h _ hfeed rfl, fun h c hc heq => h (heq ▸ hc)⟩
  rw [excludes, isTestData, Regex.fullMatches_iff, matches_testDataForm_iff, isSetApart_iff hplain,
    hname, hline]

/-- Neither the name of the file nor a part of a directory's name counts. -/
example : ["a/testData", "testDataLoader/A.kt", "a\\mytestData/A.kt"].any
    (excludes · .testData) = false := by
  decide

end SourceFiles
end FeatureCensus
