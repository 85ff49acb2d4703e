import FeatureCensus.Files.Glob
import FeatureCensus.Text.Regex

/-!
# Source files

The files of a project that are analyzed: those that a search pattern finds, without
those that a filter excludes.

Main definitions:

- Definition {lit}`SourceFiles.testDataForm`: the form of the paths of test data.
- Definition {lit}`SourceFiles.keys`: the files of a project that are analyzed.
-/

namespace FeatureCensus

/-- A filter of files by their paths within the project. -/
inductive FileFilter where
  /-- Files below a directory of test data are excluded. -/
  | testData
  /-- Files whose paths end so are excluded. -/
  | ending (text : String)
  deriving DecidableEq, Repr, Inhabited

namespace SourceFiles

/-! ## Test data -/

/-- The characters between directories on all systems. -/
def isSeparator (c : Char) : Bool :=
  c == '/' || c == '\\'

/-- The name of directories of test data. -/
def testDataName : List Char := ['t', 'e', 's', 't', 'D', 'a', 't', 'a']

/-- Whether a character stays on its line. -/
def staysOnLine (c : Char) : Bool :=
  c != '\n'

/-- The form of paths that lead, on one line, through a directory of test data: anything up to a
separator, or nothing, then its name and a separator, and then anything. -/
def testDataForm : Text.Regex :=
  .seq (.optional (.seq (.many staysOnLine) (.one isSeparator)))
    (.seq (.text testDataName) (.seq (.one isSeparator) (.many staysOnLine)))

/-- Whether a path, on one line, leads through a directory of test data. -/
def isTestData (path : List Char) : Bool :=
  testDataForm.fullMatches path

/-! ## Filters -/

/-- Whether a text ends with another one. -/
def endsWith (text ending : String) : Bool :=
  ending.toList.isSuffixOf text.toList

/-- Whether a filter excludes a path. -/
def excludes (path : String) : FileFilter → Bool
  | .testData => isTestData path.toList
  | .ending text => endsWith path text

/-- The paths, within a project, of the files that a pattern finds in it, in the order of
the paths that lead to them through the project, without those that are excluded. -/
def keys {γ : Type} (t : FileTree γ) (pattern : String) (filters : List FileFilter)
    (project : String) : Except FileError (List String) :=
  (Glob.search t (Path.join project pattern)).map fun paths =>
    ((paths.filter t.isFile).map (Path.relativeTo project)).filter fun path =>
      !filters.any (excludes path)

end SourceFiles
end FeatureCensus
