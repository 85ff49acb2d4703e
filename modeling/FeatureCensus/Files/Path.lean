import FeatureCensus.Text.Split

/-!
# Paths

Paths of files as text, with components separated by slashes.  Joining, splitting and
making a path relative look at the text alone; a relative path starts at the working
directory.

Main results:

- Theorem {lit}`Path.length_split`: the parts of a split path are no longer than the path.
- Theorem {lit}`Path.resolveFrom_append`: components are resolved one after the other.
-/

namespace FeatureCensus

open Text

/-- A place in the file system: the names on the way from its root. -/
abbrev Location := List String

/-- The place of the working directory. -/
def workingDirectory : Location := ["work"]

namespace Path

/-- The character between components. -/
def isSlash (c : Char) : Bool :=
  c == '/'

/-! ## Joining -/

/-- A path continued by another one. -/
def joinChars (a b : List Char) : List Char :=
  if b.head? == some '/' then b
  else if a.isEmpty || a.getLast? == some '/' then a ++ b
  else a ++ '/' :: b

/-- A path continued by another one; an absolute one replaces it. -/
def join (a b : String) : String :=
  String.ofList (joinChars a.toList b.toList)

/-! ## Splitting -/

/-- The components between slashes, empty ones included. -/
def components (path : String) : List String :=
  (fields isSlash path.toList).map String.ofList

/-- Drops the slashes at the end, unless there is nothing else. -/
def dropTrailingSlashes (cs : List Char) : List Char :=
  if cs.all isSlash then cs else (cs.reverse.dropWhile isSlash).reverse

/-- What stands before the last slash, and the last component. -/
def split (cs : List Char) : List Char × List Char :=
  (dropTrailingSlashes (cs.reverse.dropWhile (!isSlash ·)).reverse,
    (cs.reverse.takeWhile (!isSlash ·)).reverse)

theorem length_dropTrailingSlashes (cs : List Char) :
    (dropTrailingSlashes cs).length ≤ cs.length := by
  unfold dropTrailingSlashes
  split
  · exact Nat.le_refl _
  · simpa using (List.dropWhile_sublist isSlash (l := cs.reverse)).length_le

/-- The parts of a split path are no longer than the path. -/
theorem length_split (cs : List Char) :
    (split cs).1.length + (split cs).2.length ≤ cs.length := by
  have hwhole := congrArg List.length (List.takeWhile_append_dropWhile (p := (!isSlash ·))
    (l := cs.reverse))
  have hhead := length_dropTrailingSlashes (cs.reverse.dropWhile (!isSlash ·)).reverse
  simp only [List.length_append, List.length_reverse] at hwhole hhead
  simp only [split, List.length_reverse]
  omega

/-- The directory above and the last component that is not empty because of a slash at
the end. -/
def parentAndName (cs : List Char) : List Char × List Char :=
  if (split cs).2.isEmpty then split (split cs).1 else split cs

/-- Above a named path there is a shorter one. -/
theorem length_parent_lt {cs : List Char} (h : (parentAndName cs).2 ≠ []) :
    (parentAndName cs).1.length < cs.length := by
  have hname := List.length_pos_iff.2 h
  unfold parentAndName at hname ⊢
  have hsplit := length_split cs
  split
  · rename_i hempty
    rw [if_pos hempty] at hname
    have hagain := length_split (split cs).1
    omega
  · rename_i hempty
    rw [if_neg hempty] at hname
    omega

/-! ## Resolving -/

/-- The place that a name leads to from a place, by the text alone. -/
def resolveName (base : Location) (name : String) : Location :=
  if name == "" || name == "." then base
  else if name == ".." then base.dropLast
  else base ++ [name]

/-- The place that components lead to from a place. -/
def resolveFrom (base : Location) (names : List String) : Location :=
  names.foldl resolveName base

/-- Components are resolved one after the other. -/
theorem resolveFrom_append (base : Location) (first second : List String) :
    resolveFrom base (first ++ second) = resolveFrom (resolveFrom base first) second := by
  simp [resolveFrom]

/-- Whether a path starts at the root of the file system. -/
def isAbsolute (path : String) : Bool :=
  path.toList.head? == some '/'

/-- The place where the components of a path start. -/
def origin (path : String) : Location :=
  if isAbsolute path then [] else workingDirectory

/-- The place of a path, by the text alone. -/
def resolve (path : String) : Location :=
  resolveFrom (origin path) (components path)

/-- The names on the way from one place to another. -/
def namesBetween : Location → Location → List String
  | a :: start, b :: path =>
    if a == b then namesBetween start path
    else (a :: start).map (fun _ => "..") ++ b :: path
  | start, path => start.map (fun _ => "..") ++ path

/-- A path seen from a directory. -/
def relativeTo (start path : String) : String :=
  match namesBetween (resolve start) (resolve path) with
  | [] => "."
  | name :: rest => rest.foldl join name

end Path
end FeatureCensus
