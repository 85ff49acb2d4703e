import FeatureCensus.Corpus.Corpus
import FeatureCensus.Proofs.Files.Growth

/-!
# Places of copies

The copies of repositories that are named by their owners and their own names have places of their
own below the base directory.  None of them is on the way to another one or in it.

Main results:

- Theorem {lit}`Corpus.resolve_pathTo`: the place of a copy.
- Theorem {lit}`Corpus.resolve_pathTo_inj`: different repositories have different places.
- Theorem {lit}`Corpus.exists_pathTo_iff`: when a copy is there.
- Theorem {lit}`Corpus.not_concerns_of_ne`: copies of different repositories stand apart.
-/

namespace FeatureCensus

open FeatureCensus.Path (IsStraight isPlain)

/-! ## Names of repositories -/

/-- Whether a text can be the name of an owner or of a repository. -/
structure Path.IsPart (text : String) : Prop where
  ne_empty : text ≠ ""
  ne_self : text ≠ "."
  ne_parent : text ≠ ".."
  noSlash : '/' ∉ text.toList

instance (text : String) : Decidable (Path.IsPart text) :=
  decidable_of_iff (text ≠ "" ∧ text ≠ "." ∧ text ≠ ".." ∧ '/' ∉ text.toList)
    ⟨fun ⟨hempty, hself, hparent, hslash⟩ => ⟨hempty, hself, hparent, hslash⟩,
      fun h => ⟨h.ne_empty, h.ne_self, h.ne_parent, h.noSlash⟩⟩

namespace Path.IsPart

variable {text : String}

theorem isPlain (h : IsPart text) : isPlain text = true := by
  rw [Path.isPlain, Bool.and_eq_true, bne_iff_ne, bne_iff_ne]
  exact ⟨h.ne_empty, h.ne_self⟩

theorem isAbsolute (h : IsPart text) : isAbsolute text = false := by
  rw [Path.isAbsolute, beq_eq_false_iff_ne]
  exact fun hslash => h.noSlash (List.mem_of_mem_head? hslash)

theorem components (h : IsPart text) : components text = [text] :=
  components_of_noSlash h.noSlash

theorem isStraight (h : IsPart text) : IsStraight text := by
  rw [IsStraight, h.components, List.mem_singleton]
  exact fun hup => h.ne_parent hup.symm

end Path.IsPart

/-- Whether a repository is named by its owner and its own name. -/
structure Repo.IsNamed (repo : Repo) : Prop where
  fullName_eq : repo.fullName = repo.owner ++ "/" ++ repo.name
  owner : Path.IsPart repo.owner
  name : Path.IsPart repo.name

instance (repo : Repo) : Decidable repo.IsNamed :=
  decidable_of_iff (repo.fullName = repo.owner ++ "/" ++ repo.name ∧ Path.IsPart repo.owner ∧
      Path.IsPart repo.name)
    ⟨fun ⟨hname, howner, hown⟩ => ⟨hname, howner, hown⟩,
      fun h => ⟨h.fullName_eq, h.owner, h.name⟩⟩

namespace Repo

/-- No owner has a slash in its name. -/
theorem noSlash_owner (repo : Repo) : '/' ∉ repo.owner.toList := by
  intro hslash
  rw [owner, String.toList_ofList] at hslash
  have hno := List.mem_takeWhile_imp hslash
  cases hno

theorem isAbsolute_owner (repo : Repo) : Path.isAbsolute repo.owner = false := by
  rw [Path.isAbsolute, beq_eq_false_iff_ne]
  intro hslash
  exact repo.noSlash_owner (List.mem_of_mem_head? hslash)

end Repo

/-! ## Places of copies -/

namespace Corpus

variable {corpus : Corpus} {repo other : Repo}

/-- The path of a copy is made of the full name alone. -/
theorem pathTo_congr (h : repo.fullName = other.fullName) :
    corpus.pathTo repo = corpus.pathTo other := by
  rw [pathTo, pathTo, ownerDirectory, ownerDirectory, Repo.owner, Repo.owner, Repo.name,
    Repo.name, h]

/-- The path of a copy leads up in the path of the base directory only. -/
theorem clears_ownerDirectory {t : FileTree Content} (hbase : t.Clears corpus.base)
    (h : repo.IsNamed) : t.Clears (corpus.ownerDirectory repo) :=
  hbase.join h.owner.isAbsolute h.owner.isStraight

theorem clears_pathTo {t : FileTree Content} (hbase : t.Clears corpus.base) (h : repo.IsNamed) :
    t.Clears (corpus.pathTo repo) :=
  (clears_ownerDirectory hbase h).join h.name.isAbsolute h.name.isStraight

/-- Where the directory of an owner leads to, whatever its name is. -/
theorem resolve_ownerDirectory_eq (corpus : Corpus) (repo : Repo) :
    Path.resolve (corpus.ownerDirectory repo) =
      Path.resolveName (Path.resolve corpus.base) repo.owner := by
  rw [ownerDirectory, Path.resolve_join_eq _ repo.isAbsolute_owner,
    Path.components_of_noSlash repo.noSlash_owner]
  rfl

theorem resolve_ownerDirectory (corpus : Corpus) (h : repo.IsNamed) :
    Path.resolve (corpus.ownerDirectory repo) = Path.resolve corpus.base ++ [repo.owner] := by
  rw [resolve_ownerDirectory_eq, Path.resolveName_of_isPlain h.owner.isPlain h.owner.ne_parent]

theorem resolve_pathTo (corpus : Corpus) (h : repo.IsNamed) :
    Path.resolve (corpus.pathTo repo) =
      Path.resolve corpus.base ++ [repo.owner, repo.name] := by
  have hname : ∀ place, Path.resolveFrom place [repo.name] = place ++ [repo.name] := by
    intro place
    exact Path.resolveName_of_isPlain h.name.isPlain h.name.ne_parent
  rw [pathTo, Path.resolve_join_eq _ h.name.isAbsolute, corpus.resolve_ownerDirectory h,
    h.name.components, hname, List.append_assoc]
  rfl

/-- Different repositories have their copies at different places. -/
theorem resolve_pathTo_inj (h : repo.IsNamed) (hother : other.IsNamed) :
    Path.resolve (corpus.pathTo repo) = Path.resolve (corpus.pathTo other) ↔
      repo.fullName = other.fullName := by
  constructor
  · intro hplace
    rw [corpus.resolve_pathTo h, corpus.resolve_pathTo hother, List.append_cancel_left_eq,
      List.cons.injEq, List.cons.injEq] at hplace
    obtain ⟨howner, hname, -⟩ := hplace
    rw [h.fullName_eq, hother.fullName_eq, howner, hname]
  · intro hfull
    rw [pathTo_congr hfull]

theorem exists_components_pathTo (corpus : Corpus) (h : repo.IsNamed) :
    ∃ init, Path.components (corpus.pathTo repo) = init ++ [repo.name] := by
  obtain ⟨trunk, htrunk, -⟩ :=
    Path.exists_components_join (corpus.ownerDirectory repo) h.name.isAbsolute
  exact ⟨trunk, by rw [pathTo, htrunk, h.name.components]⟩

/-- A copy is there if something stands at its place, and its path can be followed at all. -/
theorem exists_pathTo_iff {t : FileTree Content} (ht : t.IsSound) (hbase : t.Clears corpus.base)
    (h : repo.IsNamed) :
    t.exists? (corpus.pathTo repo) = true ↔
      t.checkPath (corpus.pathTo repo) = .ok () ∧
        (t.node? (Path.resolve (corpus.pathTo repo))).isSome = true := by
  obtain ⟨init, hinit⟩ := corpus.exists_components_pathTo h
  exact ht.exists_iff hinit h.name.isPlain (clears_pathTo hbase h)

/-- Whether a place is on the way to the copy of a repository or in it. -/
def Concerns (corpus : Corpus) (repo : Repo) (place : Location) : Prop :=
  place <+: Path.resolve (corpus.pathTo repo) ∨ Path.resolve (corpus.pathTo repo) <+: place

/-- The place of one copy is neither on the way to another one nor in it. -/
theorem not_concerns_of_ne (h : repo.IsNamed) (hother : other.IsNamed)
    (hne : repo.fullName ≠ other.fullName) :
    ¬ corpus.Concerns repo (Path.resolve (corpus.pathTo other)) := by
  have hlength : (Path.resolve (corpus.pathTo repo)).length =
      (Path.resolve (corpus.pathTo other)).length := by
    rw [corpus.resolve_pathTo h, corpus.resolve_pathTo hother, List.length_append,
      List.length_append]
    rfl
  rintro (hbegins | hbegins)
  · have hplace := hbegins.eq_of_length hlength.symm
    exact hne ((resolve_pathTo_inj h hother).mp hplace.symm)
  · have hplace := hbegins.eq_of_length hlength
    exact hne ((resolve_pathTo_inj h hother).mp hplace)

theorem concerns_of_isOnWay_ownerDirectory {t : FileTree Content} (ht : t.IsSound)
    (hbase : t.Clears corpus.base) (h : repo.IsNamed) {place : Location}
    (hplace : t.IsOnWay (corpus.ownerDirectory repo) place) :
    place <+: Path.resolve corpus.base ++ [repo.owner] := by
  rw [← corpus.resolve_ownerDirectory h]
  exact (hplace ht (clears_ownerDirectory hbase h)).2

end Corpus

end FeatureCensus
