import FeatureCensus.Association
import FeatureCensus.Files.Path
import FeatureCensus.Text.Stray

/-!
# File trees

The directories and files of a file system without links, and the operations of an
operating system on them.  A path is followed name by name; a failed operation tells
why and keeps what it had already done.  Directories and files may be there that whoever
runs the operations may not read.

Main results:

- Theorem {lit}`FileTree.node?_put_self`: what is put at a place is found there.
- Theorem {lit}`FileTree.node?_put_of_ne`: nothing changes elsewhere.
- Theorem {lit}`FileTree.exists_eq_true_iff`: a path exists where it can be located.
-/

namespace FeatureCensus

open Text

/-! ## Faults -/

/-- Why an operation on a path fails. -/
inductive FileFault where
  | notFound
  | alreadyExists
  | notADirectory
  | isADirectory
  | nameTooLong
  | accessDenied
  deriving DecidableEq, Repr, Inhabited

namespace FileFault

/-- The number of a fault. -/
def number : FileFault → Nat
  | notFound => 2
  | alreadyExists => 17
  | notADirectory => 20
  | isADirectory => 21
  | nameTooLong => 36
  | accessDenied => 13

/-- The text of a fault. -/
def text : FileFault → String
  | notFound => "No such file or directory"
  | alreadyExists => "File exists"
  | notADirectory => "Not a directory"
  | isADirectory => "Is a directory"
  | nameTooLong => "File name too long"
  | accessDenied => "Permission denied"

end FileFault

/-- Why an operation on files fails. -/
inductive FileError where
  /-- The path holds a character that no path can hold. -/
  | embeddedNull
  /-- The operating system refuses the path. -/
  | refused (fault : FileFault) (path : String)
  deriving DecidableEq, Repr, Inhabited

/-- Whether an error says that something is already there. -/
def FileError.isAlreadyExists : FileError → Bool
  | .refused .alreadyExists _ => true
  | _ => false

/-- The text of the error, where some characters stand for stray bytes. -/
def FileError.message (strays : Strays) : FileError → String
  | embeddedNull => "embedded null byte"
  | refused fault path =>
    "[Errno " ++ toString fault.number ++ "] " ++ fault.text ++ ": " ++ strays.quoted path

/-! ## Trees -/

/-- What stands at a place. -/
inductive FileNode (γ : Type) where
  | directory
  | file (content : γ)
  /-- A directory that may be entered, but whose entries may not be listed. -/
  | unlisted
  /-- A directory that may not be entered, so that it cannot be told what is in it. -/
  | locked
  /-- A file that may not be read. -/
  | unreadable
  deriving Repr, Inhabited

/-- The order in which a search gives what it finds. -/
inductive SearchOrder where
  /-- As directories list their entries, and each of them before those below it. -/
  | asListed
  /-- By the characters of the found paths. -/
  | byPath
  deriving DecidableEq, Repr, Inhabited

/-- Directories and files by their places, in the order in which directories list them.  The root
is always a directory. -/
structure FileTree (γ : Type) where
  nodes : List (Location × FileNode γ)
  /-- The characters of names that stand for bytes which are no text. -/
  strays : Strays := []
  order : SearchOrder := .asListed
  deriving Repr, Inhabited

namespace FileTree

variable {γ : Type}

/-- A file system with an empty working directory. -/
def empty (strays : Strays := []) (order : SearchOrder := .asListed) : FileTree γ :=
  { nodes := [(workingDirectory, .directory)], strays, order }

/-- What stands at a place. -/
def node? (t : FileTree γ) (place : Location) : Option (FileNode γ) :=
  if place.isEmpty then some .directory else t.nodes.lookup place

/-- Puts a directory or file at a place. -/
def put (t : FileTree γ) (place : Location) (node : FileNode γ) : FileTree γ :=
  { t with nodes := Association.put place node t.nodes }

/-- Takes away what stands at a place. -/
def remove (t : FileTree γ) (place : Location) : FileTree γ :=
  { t with nodes := t.nodes.filter fun entry => entry.1 != place }

/-- What is put at a place is found there. -/
theorem node?_put_self (t : FileTree γ) {place : Location} (h : place ≠ [])
    (node : FileNode γ) : (t.put place node).node? place = some node := by
  cases place with
  | nil => exact absurd rfl h
  | cons name rest => simp [node?, put, Association.lookup_put]

/-- Nothing changes elsewhere. -/
theorem node?_put_of_ne (t : FileTree γ) {place other : Location} (h : other ≠ place)
    (node : FileNode γ) : (t.put place node).node? other = t.node? other := by
  cases other with
  | nil => rfl
  | cons name rest => simp [node?, put, Association.lookup_put, h]

/-- What is taken away is not found any more. -/
theorem node?_remove_self (t : FileTree γ) {place : Location} (h : place ≠ []) :
    (t.remove place).node? place = none := by
  have hempty : place.isEmpty = false := by simpa using h
  simp only [node?, hempty, Bool.false_eq_true, if_false, remove, List.lookup_eq_none_iff,
    List.mem_filter, bne_iff_ne, ne_eq, and_imp]
  exact fun entry _ hne heq => hne heq.symm

/-! ## Following a path -/

/-- The number of bytes that a name may have. -/
def nameLimit : Nat := 255

/-- The number of bytes that a path may have. -/
def pathLimit : Nat := 4095

/-- Whether there is a directory at a place that may be entered. -/
def isDirectoryAt (t : FileTree γ) (place : Location) : Bool :=
  match t.node? place with
  | some .directory | some .unlisted => true
  | _ => false

/-- Whether there is a directory at a place, be it one that may not be entered. -/
def holdsDirectory (t : FileTree γ) (place : Location) : Bool :=
  match t.node? place with
  | some .directory | some .unlisted | some .locked => true
  | _ => false

/-- Whether there is a directory at a place whose entries may be listed. -/
def listsAt (t : FileTree γ) (place : Location) : Bool :=
  match t.node? place with
  | some .directory => true
  | _ => false

/-- The place that a name leads to from a place, whether or not anything is there. -/
def enter (t : FileTree γ) (place : Location) (name : String) : Except FileFault Location :=
  if !t.isDirectoryAt place then
    .error (if t.holdsDirectory place then .accessDenied else .notADirectory)
  else if nameLimit < t.strays.byteSize name then .error .nameTooLong
  else .ok (Path.resolveName place name)

/-- The existing place that a name leads to from a place. -/
def step (t : FileTree γ) (place : Location) (name : String) : Except FileFault Location :=
  match t.enter place name with
  | .error fault => .error fault
  | .ok next => if (t.node? next).isSome then .ok next else .error .notFound

/-- The existing place that names lead to. -/
def follow (t : FileTree γ) (names : List String) (place : Location) :
    Except FileFault Location :=
  names.foldlM t.step place

/-- Refuses paths that cannot be followed at all. -/
def checkPath (t : FileTree γ) (path : String) : Except FileError Unit :=
  if path.toList.contains '\x00' then .error .embeddedNull
  else if path.isEmpty then .error (.refused .notFound path)
  else if pathLimit < t.strays.byteSize path then .error (.refused .nameTooLong path)
  else .ok ()

/-- The existing place of a path. -/
def locate (t : FileTree γ) (path : String) : Except FileError Location :=
  match t.checkPath path with
  | .error error => .error error
  | .ok () =>
    match t.follow (Path.components path) (Path.origin path) with
    | .error fault => .error (.refused fault path)
    | .ok place => .ok place

/-- The directory that a new entry would be made in, and the last component of its path.
Slashes at the end do not count. -/
def locateParent (t : FileTree γ) (path : String) : Except FileError (Location × String) :=
  match t.checkPath path with
  | .error error => .error error
  | .ok () =>
    let names := (Path.components (String.ofList (Path.dropTrailingSlashes path.toList)))
    match t.follow names.dropLast (Path.origin path) with
    | .error fault => .error (.refused fault path)
    | .ok place => .ok (place, names.getLastD "")

/-! ## Queries -/

/-- Whether there is anything at a path. -/
def exists? (t : FileTree γ) (path : String) : Bool :=
  match t.locate path with
  | .ok _ => true
  | .error _ => false

/-- A path exists where it can be located. -/
theorem exists_eq_true_iff (t : FileTree γ) (path : String) :
    t.exists? path = true ↔ ∃ place, t.locate path = .ok place := by
  unfold exists?
  split <;> simp_all

/-- Whether there is a directory at a path. -/
def isDirectory (t : FileTree γ) (path : String) : Bool :=
  match t.locate path with
  | .ok place => t.holdsDirectory place
  | .error _ => false

/-- Whether there is a file at a path. -/
def isFile (t : FileTree γ) (path : String) : Bool :=
  match t.locate path with
  | .ok place => !t.holdsDirectory place
  | .error _ => false

/-- The names of the entries of the directory at a place. -/
def namesAt (t : FileTree γ) (place : Location) : List String :=
  t.nodes.filterMap fun entry =>
    if entry.1.dropLast == place then entry.1.getLast? else none

/-- The number of levels of places. -/
def height (t : FileTree γ) : Nat :=
  t.nodes.foldr (fun entry levels => max entry.1.length levels) 0

/-- The names of the entries of a directory at a place as it lists them; there are none in anything
else, or if they may not be listed. -/
def listedAt (t : FileTree γ) (place : Location) : List String :=
  if t.listsAt place then t.namesAt place else []

/-- The content of a file. -/
def read (t : FileTree γ) (path : String) : Except FileError γ :=
  match t.locate path with
  | .error error => .error error
  | .ok place =>
    match t.node? place with
    | some (.file content) => .ok content
    | some .directory => .error (.refused .isADirectory path)
    | some .unlisted | some .locked | some .unreadable => .error (.refused .accessDenied path)
    | none => .error (.refused .notFound path)

/-- Items in the order of the characters of their texts. -/
def sortBy {α : Type} (key : α → String) (items : List α) : List α :=
  items.mergeSort fun a b => !decide (key b < key a)

/-- Texts in the order of their characters. -/
def sortTexts (texts : List String) : List String :=
  sortBy id texts

/-- The paths of everything in the working directory, in order; those of directories end
with a slash. -/
def listing (t : FileTree γ) : List String :=
  sortTexts (t.nodes.filterMap fun entry =>
    if workingDirectory.isPrefixOf entry.1 && entry.1 != workingDirectory then
      let path := "/".intercalate (entry.1.drop workingDirectory.length)
      match entry.2 with
      | .directory | .unlisted | .locked => some (path ++ "/")
      | .file _ | .unreadable => some path
    else none)

/-! ## Changes -/

/-- A change of a file tree.  A failed one keeps what it had already done. -/
abbrev Change (γ α : Type) := EStateM FileError (FileTree γ) α

/-- Makes a directory whose parent exists. -/
def makeDirectory (path : String) : Change γ Unit := do
  let t ← get
  match t.locateParent path with
  | .error error => throw error
  | .ok (place, name) =>
    match t.enter place name with
    | .error fault => throw (.refused fault path)
    | .ok next =>
      if (t.node? next).isSome then throw (.refused .alreadyExists path)
      set (t.put next .directory)

/-- Makes a directory, unless there already is one. -/
def ensureDirectory (path : String) : Change γ Unit :=
  tryCatch (makeDirectory path) fun error => do
    if (← get).isDirectory path then pure () else throw error

/-- Makes a directory after the missing ones above it.  A directory above that turns out
to be there after all is no fault. -/
def ensureDirectories (cs : List Char) : Change γ Unit :=
  if h : (Path.parentAndName cs).2 = [] then ensureDirectory (String.ofList cs)
  else do
    have _shorter := Path.length_parent_lt h
    let parent := String.ofList (Path.parentAndName cs).1
    if parent.isEmpty || (← get).exists? parent then ensureDirectory (String.ofList cs)
    else
      tryCatch (ensureDirectories (Path.parentAndName cs).1) fun error =>
        if error.isAlreadyExists then pure () else throw error
      if (Path.parentAndName cs).2 == ['.'] then pure ()
      else ensureDirectory (String.ofList cs)
termination_by cs.length

/-- Makes a directory and those above it, unless they are there. -/
def makeDirectories (path : String) : Change γ Unit :=
  ensureDirectories path.toList

/-- Writes a file in an existing directory, whether or not it is there. -/
def write (path : String) (content : γ) : Change γ Unit := do
  let t ← get
  match t.locateParent path with
  | .error error => throw error
  | .ok (place, name) =>
    match t.enter place name with
    | .error fault => throw (.refused fault path)
    | .ok next =>
      if t.holdsDirectory next then throw (.refused .isADirectory path)
      else if path.toList.getLast? == some '/' then
        throw (.refused (if (t.node? next).isSome then .notADirectory else .isADirectory) path)
      else set (t.put next (.file content))

/-- Writes a file after making the directories above it. -/
def writeBelow (path : String) (content : γ) : Change γ Unit := do
  let parent := (Path.split path.toList).1
  unless parent.isEmpty do makeDirectories (String.ofList parent)
  write path content

end FileTree
end FeatureCensus
