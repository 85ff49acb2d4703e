import FeatureCensus.World.Action
import FeatureCensus.EntryList

/-!
# Exclusion lists

Lists of repositories in text files, and the paths that an exclusion list excludes.

Main results:

- Theorem {lit}`Exclusion.isExcluded_nil`: an empty list excludes nothing.
- Theorem {lit}`Exclusion.isExcluded_cons`: a path is excluded by any of the entries.
-/

namespace FeatureCensus
namespace Exclusion

variable {σ : Type}

/-- Whether a path ends with a slash and an entry. -/
def endsInEntry (path entry : String) : Bool :=
  ('/' :: entry.toList).isSuffixOf path.toList

/-- Whether any entry excludes a path. -/
def isExcluded (path : String) (entries : List String) : Bool :=
  entries.any (endsInEntry path)

/-- An empty list excludes nothing. -/
theorem isExcluded_nil (path : String) : isExcluded path [] = false := rfl

/-- A path is excluded by any of the entries. -/
theorem isExcluded_cons (path entry : String) (rest : List String) :
    isExcluded path (entry :: rest) = (endsInEntry path entry || isExcluded path rest) := rfl

/-- The entries of the list in a file; without the file there are none. -/
def readList (path : String) (files : FileTree Content) : Except Failure (List String) :=
  if !files.exists? path then .ok []
  else match files.read path with
    | .error error => .error (.file error)
    | .ok content =>
      match EntryList.parse content.toBytes with
      | .error error => .error (.undecodable error)
      | .ok entries => .ok entries

end Exclusion
end FeatureCensus
