import FeatureCensus.Proofs.Corpus.Naming
import FeatureCensus.Survey.Exclusion

/-!
# What exclusion lists exclude

An entry of an exclusion list excludes the paths that end with a slash and the entry.  These are the
paths whose last components are those of the entry, with some before them: no entry agrees with a
part of a component only.  A copy below a base directory has the base directory's components before
the owner and the own name of its repository, so a full name on the list excludes one repository,
and a text without slashes excludes the repositories of that own name.

Main results:

- Theorem {lit}`Exclusion.endsInEntry_iff`: an entry agrees with whole components.
- Theorem {lit}`Corpus.isExcluded_pathTo_iff`: full names and own names exclude repositories.
- Theorem {lit}`Exclusion.isExcluded_by_components`: what is excluded, and which copies are.
-/

namespace FeatureCensus
namespace Exclusion

variable {path entry : String} {entries : List String}

/-- A path ends with a slash and an entry if something else stands before these. -/
theorem endsInEntry_iff_exists :
    endsInEntry path entry = true ↔ ∃ before, path = before ++ "/" ++ entry := by
  rw [endsInEntry, List.isSuffixOf_iff_suffix]
  constructor
  · rintro ⟨before, hbefore⟩
    refine ⟨String.ofList before, ?_⟩
    rw [← String.toList_inj, ← hbefore]
    simp
  · rintro ⟨before, rfl⟩
    exact ⟨before.toList, by simp⟩

/-- An entry excludes the paths that have its components last, with others before them. -/
theorem endsInEntry_iff (path entry : String) :
    endsInEntry path entry = true ↔
      Path.components entry <:+ Path.components path ∧
        Path.components entry ≠ Path.components path := by
  rw [endsInEntry_iff_exists]
  constructor
  · rintro ⟨before, rfl⟩
    rw [Path.components_append_slash]
    refine ⟨List.suffix_append _ _, ?_⟩
    intro heq
    exact Path.components_ne_nil before (List.self_eq_append_left.mp heq)
  · rintro ⟨⟨before, hbefore⟩, hne⟩
    have hnonempty : before ≠ [] := by
      rintro rfl
      exact hne hbefore
    refine ⟨Path.ofNames before, ?_⟩
    calc path = Path.ofNames (Path.components path) := (Path.ofNames_components path).symm
      _ = Path.ofNames (before ++ Path.components entry) := by rw [hbefore]
      _ = Path.ofNames before ++ "/" ++ Path.ofNames (Path.components entry) :=
        Path.ofNames_append hnonempty (Path.components_ne_nil entry)
      _ = Path.ofNames before ++ "/" ++ entry := by rw [Path.ofNames_components]

/-- A path is excluded if any of the entries excludes it. -/
theorem isExcluded_iff (path : String) (entries : List String) :
    isExcluded path entries = true ↔
      ∃ entry ∈ entries, Path.components entry <:+ Path.components path ∧
        Path.components entry ≠ Path.components path := by
  rw [isExcluded, List.any_eq_true]
  constructor
  · rintro ⟨entry, hmem, hends⟩
    exact ⟨entry, hmem, (endsInEntry_iff path entry).mp hends⟩
  · rintro ⟨entry, hmem, hcomponents⟩
    exact ⟨entry, hmem, (endsInEntry_iff path entry).mpr hcomponents⟩

theorem isExcluded_singleton (path entry : String) :
    isExcluded path [entry] = endsInEntry path entry := by
  rw [isExcluded_cons, isExcluded_nil, Bool.or_false]

end Exclusion

namespace Corpus

open Exclusion

variable {corpus : Corpus} {repo other : Repo} {entry : String} {entries : List String}

/-- The path of a copy has components of the base directory before the owner and the own name of
its repository. -/
theorem exists_components_pathTo_of_hasTwoParts (hbase : corpus.base ≠ "") (h : repo.HasTwoParts) :
    ∃ trunk, trunk ≠ [] ∧
      Path.components (corpus.pathTo repo) = trunk ++ [repo.owner, repo.name] := by
  obtain ⟨trunk, htrunk, hcomponents⟩ := Path.exists_trunk corpus.base
  refine ⟨trunk, ?_, ?_⟩
  · rintro rfl
    rcases htrunk with hnil | hempty
    · exact Path.components_ne_nil _ hnil
    · apply hbase
      rw [← Path.ofNames_components corpus.base, hempty]
      rfl
  · rw [corpus.pathTo_of_hasTwoParts h, Path.opened_of_ne hbase, hcomponents,
      h.components_fullName]

/-- An entry of two parts excludes the copy of the repository of that full name only. -/
theorem endsInEntry_fullName_iff (hbase : corpus.base ≠ "") (h : repo.HasTwoParts)
    (hother : other.HasTwoParts) :
    endsInEntry (corpus.pathTo repo) other.fullName = true ↔ repo.fullName = other.fullName := by
  obtain ⟨trunk, htrunk, hpath⟩ := exists_components_pathTo_of_hasTwoParts hbase h
  rw [endsInEntry_iff, hpath, hother.components_fullName]
  constructor
  · rintro ⟨hsuffix, -⟩
    have hparts : [other.owner, other.name] = [repo.owner, repo.name] := by
      have hown : [repo.owner, repo.name] <:+ trunk ++ [repo.owner, repo.name] :=
        List.suffix_append _ _
      exact (List.suffix_of_suffix_length_le hsuffix hown (Nat.le_refl 2)).eq_of_length rfl
    obtain ⟨howner, hname⟩ := List.cons.inj hparts
    rw [h.fullName_eq, hother.fullName_eq, howner, (List.cons.inj hname).1]
  · intro hfull
    have hparts : [other.owner, other.name] = [repo.owner, repo.name] := by
      rw [← h.components_fullName, ← hother.components_fullName, hfull]
    rw [hparts]
    refine ⟨List.suffix_append _ _, ?_⟩
    intro heq
    exact htrunk (List.self_eq_append_left.mp heq)

/-- An entry without slashes excludes the copies of the repositories of that own name only. -/
theorem endsInEntry_name_iff (hbase : corpus.base ≠ "") (h : repo.HasTwoParts)
    (hentry : '/' ∉ entry.toList) :
    endsInEntry (corpus.pathTo repo) entry = true ↔ repo.name = entry := by
  obtain ⟨trunk, -, hpath⟩ := exists_components_pathTo_of_hasTwoParts hbase h
  have hlast : trunk ++ [repo.owner, repo.name] = (trunk ++ [repo.owner]) ++ [repo.name] := by
    rw [List.append_assoc]
    rfl
  rw [endsInEntry_iff, hpath, Path.components_of_noSlash hentry, hlast]
  constructor
  · rintro ⟨⟨before, hbefore⟩, -⟩
    have hsame := (List.append_inj' hbefore rfl).2
    exact (List.cons.inj hsame).1.symm
  · rintro rfl
    refine ⟨List.suffix_append _ _, ?_⟩
    intro heq
    have hnil := List.self_eq_append_left.mp heq
    exact List.append_ne_nil_of_right_ne_nil trunk (List.cons_ne_nil _ _) hnil

/-- A list of full names and own names excludes the copies of the repositories that it names. -/
theorem isExcluded_pathTo_iff (hbase : corpus.base ≠ "") (h : repo.HasTwoParts)
    (hentries : ∀ entry ∈ entries, '/' ∉ entry.toList ∨
      ∃ other : Repo, other.HasTwoParts ∧ other.fullName = entry) :
    isExcluded (corpus.pathTo repo) entries = true ↔
      repo.fullName ∈ entries ∨ repo.name ∈ entries := by
  rw [isExcluded, List.any_eq_true]
  constructor
  · rintro ⟨entry, hmem, hends⟩
    rcases hentries entry hmem with hslash | ⟨other, hother, rfl⟩
    · rw [endsInEntry_name_iff hbase h hslash] at hends
      rw [hends]
      exact .inr hmem
    · rw [endsInEntry_fullName_iff hbase h hother] at hends
      rw [hends]
      exact .inl hmem
  · rintro (hmem | hmem)
    · exact ⟨_, hmem, (endsInEntry_fullName_iff hbase h h).mpr rfl⟩
    · exact ⟨_, hmem, (endsInEntry_name_iff hbase h h.noSlash).mpr rfl⟩

end Corpus

namespace Exclusion

/-- A path is excluded exactly if the components of an entry are a proper suffix of its own.  So in
a base directory the full name of a repository excludes the copy of that repository only, an entry
without slashes those of the repositories of that own name, and a list of such entries those of the
repositories that it names in one way or the other. -/
theorem isExcluded_by_components :
    (∀ (path : String) (entries : List String), isExcluded path entries = true ↔
      ∃ entry ∈ entries, Path.components entry <:+ Path.components path ∧
        Path.components entry ≠ Path.components path) ∧
    ∀ (corpus : Corpus) (repo : Repo), corpus.base ≠ "" → repo.HasTwoParts →
      (∀ other : Repo, other.HasTwoParts →
        (isExcluded (corpus.pathTo repo) [other.fullName] = true ↔
          repo.fullName = other.fullName)) ∧
      (∀ entry : String, '/' ∉ entry.toList →
        (isExcluded (corpus.pathTo repo) [entry] = true ↔ repo.name = entry)) ∧
      ∀ entries : List String,
        (∀ entry ∈ entries, '/' ∉ entry.toList ∨
          ∃ other : Repo, other.HasTwoParts ∧ other.fullName = entry) →
        (isExcluded (corpus.pathTo repo) entries = true ↔
          repo.fullName ∈ entries ∨ repo.name ∈ entries) := by
  refine ⟨isExcluded_iff, ?_⟩
  intro corpus repo hbase h
  refine ⟨?_, ?_, ?_⟩
  · intro other hother
    rw [isExcluded_singleton]
    exact Corpus.endsInEntry_fullName_iff hbase h hother
  · intro entry hentry
    rw [isExcluded_singleton]
    exact Corpus.endsInEntry_name_iff hbase h hentry
  · intro entries hentries
    exact Corpus.isExcluded_pathTo_iff hbase h hentries

/-- Entries that agree with a part of an own name only, or name another owner's repository, do not
exclude a copy. -/
theorem isExcluded_by_components_partOfName :
    let corpus : Corpus := { base := "/corpus" }
    let repo := Repo.of "alice/one" "https://example.org/alice/one.git"
    let other := Repo.of "bob/one" "https://example.org/bob/one.git"
    corpus.base ≠ "" ∧ repo.HasTwoParts ∧ other.HasTwoParts ∧
      isExcluded (corpus.pathTo repo) ["ne"] = false ∧
      isExcluded (corpus.pathTo repo) [other.fullName] = false ∧
      isExcluded (corpus.pathTo repo) ["ne", "alice/one"] = true := by
  intro corpus repo other
  have hbase : corpus.base ≠ "" := by decide
  have hrepo : repo.HasTwoParts := by decide +kernel
  have hother : other.HasTwoParts := by decide +kernel
  obtain ⟨-, hcopies⟩ := isExcluded_by_components
  obtain ⟨hfullNames, hnames, hlists⟩ := hcopies corpus repo hbase hrepo
  refine ⟨hbase, hrepo, hother, ?_, ?_, ?_⟩
  · rw [Bool.eq_false_iff, Ne, hnames "ne" (by decide)]
    decide +kernel
  · rw [Bool.eq_false_iff, Ne, hfullNames other hother]
    decide
  · refine (hlists _ ?_).mpr (.inl (by decide))
    intro entry hentry
    rcases List.mem_pair.mp hentry with rfl | rfl
    · exact .inl (by decide)
    · exact .inr ⟨repo, hrepo, rfl⟩

end Exclusion
end FeatureCensus
