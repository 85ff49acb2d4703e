import FeatureCensus.Files.FileTree
import FeatureCensus.Files.NamePattern

/-!
# Searching for files

A search pattern is a path in which components may be name patterns.  A component of
two stars alone stands for any number of directories.  Names that begin with a dot are
found only by components that begin with one.

Main definitions:

- Definition {lit}`Glob.Pattern.ofText`: the steps of a pattern.
- Definition {lit}`Glob.search`: the paths that a pattern finds.
-/

namespace FeatureCensus
namespace Glob

open NamePattern

/-! ## Steps -/

/-- What one component of a pattern asks for below a directory. -/
inductive Step where
  /-- The entry of this name. -/
  | entry (name : String)
  /-- The entries whose names match. -/
  | wild (pattern : String)
  /-- The directory itself and everything below it. -/
  | deep
  /-- The directory itself. -/
  | self
  deriving DecidableEq, Repr, Inhabited

/-- The step of a component. -/
def Step.ofComponent (component : String) : Step :=
  if component.isEmpty then self
  else if component == "**" then deep
  else if hasWildcard component then wild component
  else entry component

/-- A pattern: the path where the search starts, and the steps from there. -/
structure Pattern where
  start : String
  steps : List Step
  deriving DecidableEq, Repr, Inhabited

/-- The components at the end, of which only the last one may be empty. -/
def stepsOf (components : List String) : List Step :=
  (components.dropLast.filter (!·.isEmpty) ++ components.getLast?.toList).map Step.ofComponent

/-- A pattern is searched from the directory before its first component with a wildcard. -/
def Pattern.ofText (text : String) : Pattern :=
  let components := Path.components text
  let before := components.takeWhile (!hasWildcard ·)
  let head := "/".intercalate (before ++ [""])
  { start := String.ofList (Path.dropTrailingSlashes head.toList)
    steps := stepsOf (components.drop before.length) }

/-! ## Expansion -/

/-- Whether a name begins with a dot. -/
def isHidden (name : String) : Bool :=
  name.toList.head? == some '.'

variable {γ : Type}

/-- The path that stands for a directory; the empty path is the working directory. -/
def directoryPath (path : String) : String :=
  if path.isEmpty then "." else path

/-- The names in the directory at a place, as it lists them; only those of directories if asked
for. -/
def entriesAt (t : FileTree γ) (directoriesOnly : Bool) (place : Location) : List String :=
  (t.listedAt place).filter fun name => !directoriesOnly || t.holdsDirectory (place ++ [name])

/-- The names that lead from a place to what is below it and not hidden, of at most so many levels.
Each directory comes before what is in it. -/
def namesBelow (t : FileTree γ) (directoriesOnly : Bool) : Nat → Location → List Location
  | 0, _ => []
  | levels + 1, place =>
    ((entriesAt t directoriesOnly place).filter (!isHidden ·)).flatMap fun name =>
      [name] :: (namesBelow t directoriesOnly levels (place ++ [name])).map (name :: ·)

/-- The paths from a directory to everything below it that is not hidden; only those of
directories if asked for. -/
def descendants (t : FileTree γ) (directoriesOnly : Bool) (path : String) : List String :=
  match t.locate (directoryPath path) with
  | .error _ => []
  | .ok place => (namesBelow t directoriesOnly t.height place).map ("/".intercalate ·)

/-- The names in a directory that match a pattern. -/
def wildNames (t : FileTree γ) (directoriesOnly : Bool) (pattern path : String) : List String :=
  match t.locate (directoryPath path) with
  | .error _ => []
  | .ok place => (entriesAt t directoriesOnly place).filter fun name =>
    (isHidden pattern || !isHidden name) && nameMatches pattern name

/-- What a step finds below a directory. -/
def Step.find (t : FileTree γ) (directoriesOnly : Bool) (path : String) : Step → List String
  | entry name => if t.exists? (Path.join path name) then [name] else []
  | wild pattern => wildNames t directoriesOnly pattern path
  | deep => "" :: descendants t directoriesOnly path
  | self => if t.isDirectory path then [""] else []

/-- The paths that steps find from the given ones.  All steps but the last one find
directories. -/
def expand (t : FileTree γ) : List Step → List String → List String
  | [], paths => paths
  | step :: rest, paths =>
    expand t rest (paths.flatMap fun path =>
      (step.find t (!rest.isEmpty) path).map (Path.join path))

/-- The path itself, if a pattern without wildcards finds it. -/
def searchLiteral (t : FileTree γ) (path : String) : List String :=
  if t.exists? path then [path] else []

/-- What a search has found, in an order. -/
def arrange {α : Type} (key : α → String) (order : SearchOrder) (found : List α) : List α :=
  match order with
  | .asListed => found
  | .byPath => FileTree.sortBy key found

/-- The paths that a pattern finds.  No directory can be searched whose path is not one. -/
def search (t : FileTree γ) (text : String) : Except FileError (List String) :=
  if !hasWildcard text then .ok (searchLiteral t text)
  else
    let pattern := Pattern.ofText text
    if pattern.start.toList.contains '\x00' then .error .embeddedNull
    else .ok (arrange id t.order (expand t pattern.steps [pattern.start]))

end Glob
end FeatureCensus
