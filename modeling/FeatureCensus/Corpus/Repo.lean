import FeatureCensus.Files.Path
import FeatureCensus.Search.Page

/-!
# Repositories

A repository has a full name, made of the name of its owner and its own name, and the
address that it can be cloned from.

Main definitions:

- Definition {lit}`Repo.ofListed?`: the repository of an item of a search.
- Definition {lit}`Repo.owner`: the part of the full name before the slash.
-/

namespace FeatureCensus

/-- A repository.  Its address is a text, unless a listing tells something else. -/
structure Repo where
  fullName : String
  cloneAddress : Json
  deriving Inhabited

namespace Repo

/-- The repository of a full name and an address. -/
def of (fullName cloneAddress : String) : Repo :=
  ⟨fullName, .text cloneAddress⟩

/-- The repository of a listed one with a usable name. -/
def ofListed? (listed : Listed) : Option Repo :=
  listed.fullName.text?.map fun fullName => ⟨fullName, listed.cloneUrl⟩

/-- The address that repositories are usually cloned from. -/
def usualAddress (fullName : String) : String :=
  "https://github.com/" ++ fullName ++ ".git"

/-- The name of the owner: what stands before the first slash. -/
def owner (repo : Repo) : String :=
  String.ofList (repo.fullName.toList.takeWhile (!Path.isSlash ·))

/-- The name of the repository itself: what stands after the first slash, or all of the
full name where there is none. -/
def name (repo : Repo) : String :=
  match repo.fullName.toList.dropWhile (!Path.isSlash ·) with
  | [] => repo.fullName
  | _ :: rest => String.ofList rest

/-- The repository with its full name. -/
def description (repo : Repo) : String :=
  "Repo(" ++ repo.fullName ++ ")"

/-- Repositories are the same where their full names are. -/
def same (repo other : Repo) : Bool :=
  repo.fullName == other.fullName

end Repo
end FeatureCensus
