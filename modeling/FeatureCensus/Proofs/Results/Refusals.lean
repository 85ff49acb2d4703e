import FeatureCensus.Results.Database
import Mathlib.Logic.Basic

/-!
# Refused sessions

What keeps a session out of a database: an integer with more than 64 bits, a text with stray bytes,
or a place without a project, in any of its rows.

Main results:

- Theorem {lit}`Tables.refusals_eq_nil_iff`: nothing keeps out rows without any of these.
- Theorem {lit}`Tables.exists_of_mem_refusals`: where all integers are small enough and all projects
  are there, it is a text that is refused.
-/

namespace FeatureCensus

open Relational Text

variable {strays : Strays}

/-- Of values whose integers are small enough only a text is kept out. -/
theorem exists_of_obstacle?_eq_some {rows : List (List Value)} {error : DatabaseError}
    (hfits : ∀ values ∈ rows, fits values = true) (h : obstacle? strays rows = some error) :
    ∃ run, error = .unencodable run := by
  obtain ⟨value, hvalue, hobstacle⟩ := List.exists_of_findSome?_eq_some h
  obtain ⟨values, hvalues, hmem⟩ := List.mem_flatten.1 hvalue
  have hsmall := List.all_eq_true.1 (hfits values hvalues) value hmem
  cases value with
  | integer n =>
    rw [obstacleOf?, if_pos hsmall] at hobstacle
    cases hobstacle
  | text s =>
    obtain ⟨run, -, rfl⟩ := Option.map_eq_some_iff.1 hobstacle
    exact ⟨run, rfl⟩
  | null | real | brokenText | blob => cases hobstacle

namespace Tables

/-- The values of all rows. -/
def allValues (t : Tables) : List (List Value) :=
  t.listing.totals ++ t.listing.counters ++ t.listing.usages

/-- That all integers of rows have at most 64 bits. -/
def AreInRange (t : Tables) : Prop :=
  ∀ values ∈ t.allValues, fits values = true

/-- That all texts of rows can be encoded. -/
def AreEncodable (t : Tables) (strays : Strays) : Prop :=
  ∀ values ∈ t.allValues, isEncodable strays values = true

instance (t : Tables) : Decidable t.AreInRange :=
  inferInstanceAs (Decidable (∀ _ ∈ _, _))

instance (t : Tables) (strays : Strays) : Decidable (t.AreEncodable strays) :=
  inferInstanceAs (Decidable (∀ _ ∈ _, _))

/-- That the projects of all places are there. -/
def HaveProjects (t : Tables) : Prop :=
  ∀ row ∈ t.usages, row.project?.isSome

/-! ## Rows in batches -/

theorem mem_usageRows_iff {key : String} {c : Counter} {row : UsageRow} :
    row ∈ usageRows key c ↔ ∃ rows ∈ batches batchSize (usageRows key c), row ∈ rows := by
  rw [← List.mem_flatten, flatten_batches (by decide)]

theorem toList_obstacle?_eq_nil_iff {values : List Value} :
    (obstacle? strays [values]).toList = [] ↔
      fits values = true ∧ isEncodable strays values = true := by
  rw [Option.toList_eq_nil_iff, obstacle?_eq_none_iff]
  simp

theorem batchRefusals_eq_nil_iff {rows : List UsageRow} :
    batchRefusals strays rows = [] ↔
      ∀ row ∈ rows, (fits row.values = true ∧ isEncodable strays row.values = true) ∧
        row.project?.isSome := by
  have hobstacle : obstacle? strays (rows.map UsageRow.values) = none ↔ _ := obstacle?_eq_none_iff
  rw [List.forall_mem_map] at hobstacle
  rw [forall₂_and, ← hobstacle, batchRefusals]
  cases obstacle? strays (rows.map UsageRow.values) <;> simp [Option.isSome_iff_ne_none]

theorem counterRefusals_eq_nil_iff {entry : (String × Counter) × Nat} :
    counterRefusals strays entry = [] ↔
      (fits (counterRow entry.2 entry.1.1 entry.1.2).values = true ∧
        isEncodable strays (counterRow entry.2 entry.1.1 entry.1.2).values = true) ∧
      ∀ row ∈ usageRows entry.1.1 entry.1.2,
        (fits row.values = true ∧ isEncodable strays row.values = true) ∧ row.project?.isSome := by
  rw [counterRefusals, List.append_eq_nil_iff, toList_obstacle?_eq_nil_iff,
    List.flatMap_eq_nil_iff]
  refine and_congr_right fun _ => ?_
  simp only [batchRefusals_eq_nil_iff, mem_usageRows_iff]
  exact ⟨fun h row ⟨rows, hrows, hrow⟩ => h rows hrows row hrow,
    fun h rows hrows row hrow => h row ⟨rows, hrows, hrow⟩⟩

/-! ## Sessions -/

variable {s : Session}

theorem mem_usages_iff {row : UsageRow} :
    row ∈ (ofSession s).usages ↔
      ∃ entry ∈ s.counters.zipIdx, row ∈ usageRows entry.1.1 entry.1.2 := by
  rw [usages_ofSession, List.mem_flatMap]

/-- Nothing keeps a session out if its integers are small enough, its texts can be encoded and its
places have projects. -/
theorem refusals_eq_nil_iff :
    refusals strays s = [] ↔ (ofSession s).AreInRange ∧ (ofSession s).AreEncodable strays ∧
      (ofSession s).HaveProjects := by
  have hboth : (ofSession s).AreInRange ∧ (ofSession s).AreEncodable strays ↔
      ∀ values ∈ (ofSession s).allValues, fits values = true ∧ isEncodable strays values = true :=
    forall₂_and.symm
  rw [← and_assoc, hboth, refusals, List.append_eq_nil_iff, toList_obstacle?_eq_nil_iff,
    List.flatMap_eq_nil_iff]
  simp only [counterRefusals_eq_nil_iff, allValues, listing, List.forall_mem_append,
    List.forall_mem_map, HaveProjects, mem_usages_iff]
  constructor
  · rintro ⟨htotals, hentries⟩
    refine ⟨⟨⟨?_, ?_⟩, ?_⟩, ?_⟩
    · simpa [ofSession] using htotals
    · intro row hrow
      obtain ⟨entry, hentry, rfl⟩ := List.mem_map.1 hrow
      exact (hentries entry hentry).1
    · rintro row ⟨entry, hentry, hrow⟩
      exact ((hentries entry hentry).2 row hrow).1
    · rintro row ⟨entry, hentry, hrow⟩
      exact ((hentries entry hentry).2 row hrow).2
  · rintro ⟨⟨⟨htotals, hcounters⟩, husages⟩, hprojects⟩
    refine ⟨htotals _ List.mem_cons_self, fun entry hentry => ⟨?_, fun row hrow => ?_⟩⟩
    · exact hcounters _ (List.mem_map_of_mem hentry)
    · exact ⟨husages row ⟨entry, hentry, hrow⟩, hprojects row ⟨entry, hentry, hrow⟩⟩

/-- Where all integers are small enough and all projects are there, it is texts that are refused. -/
theorem exists_of_mem_refusals (hrange : (ofSession s).AreInRange)
    (hprojects : (ofSession s).HaveProjects) {error : DatabaseError}
    (h : error ∈ refusals strays s) : ∃ run, error = .unencodable run := by
  have hsingle : ∀ values ∈ (ofSession s).allValues,
      error ∈ (obstacle? strays [values]).toList → ∃ run, error = .unencodable run := by
    intro values hvalues hmem
    refine exists_of_obstacle?_eq_some ?_ (Option.mem_toList.1 hmem)
    simpa using hrange values hvalues
  simp only [AreInRange, allValues, listing, List.forall_mem_append, List.forall_mem_map]
    at hrange hsingle
  rcases List.mem_append.1 h with htotals | hlater
  · exact hsingle.1.1 _ List.mem_cons_self htotals
  obtain ⟨entry, hentry, hmem⟩ := List.mem_flatMap.1 hlater
  rcases List.mem_append.1 hmem with hcounter | husages
  · exact hsingle.1.2 _ (List.mem_map_of_mem hentry) hcounter
  obtain ⟨rows, hrows, hbatch⟩ := List.mem_flatMap.1 husages
  have hstored : ∀ row ∈ rows, row ∈ (ofSession s).usages := fun row hrow =>
    mem_usages_iff.2 ⟨entry, hentry, mem_usageRows_iff.2 ⟨rows, hrows, hrow⟩⟩
  rw [batchRefusals] at hbatch
  cases hobstacle : obstacle? strays (rows.map UsageRow.values) with
  | some other =>
    rw [hobstacle] at hbatch
    obtain rfl := List.mem_singleton.1 hbatch
    refine exists_of_obstacle?_eq_some ?_ hobstacle
    rw [List.forall_mem_map]
    exact fun row hrow => hrange.2 row (hstored row hrow)
  | none =>
    have hall : (rows.any fun row => row.project?.isNone) = false := by
      rw [List.any_eq_false]
      intro row hrow
      simpa [Option.isSome_iff_ne_none] using hprojects row (hstored row hrow)
    rw [hobstacle, hall] at hbatch
    cases hbatch

end Tables
end FeatureCensus
