import FeatureCensus.Analysis.Analyzer
import FeatureCensus.Proofs.Files.Searching

/-!
# The sources of a project

The analyzer of Kotlin sources lists the files below the directory of a project whose names end as
those of Kotlin sources do, unless a dot hides them or a directory above them, a directory above
them may not be listed, they are test data, or their path through the project is too long to be
followed.  It lists them once and in the order of the search, under paths by which it finds them
again.

Main results:

- Theorem {lit}`Analyzer.keys_eq`: the listed paths are those through the names of the sources.
- Theorem {lit}`Analyzer.mem_sourceNames_iff`: these are the names of all sources.
- Theorem {lit}`Analyzer.read_join`: what such a path and that of the project find.
-/

namespace FeatureCensus

open FeatureCensus.Path (IsName ofNames)

/-- What the file at a place holds, if it may be read. -/
def FileTree.content? {γ : Type} (t : FileTree γ) (place : Location) : Option γ :=
  match t.node? place with
  | some (.file content) => some content
  | _ => none

/-- Whether there is a file at a place, be it one that may not be read. -/
def FileTree.isFileAt {γ : Type} (t : FileTree γ) (place : Location) : Bool :=
  (t.node? place).isSome && !t.holdsDirectory place

namespace FileTree

variable {γ : Type} {t : FileTree γ} {place : Location}

theorem content?_eq_some {content : γ} :
    t.content? place = some content ↔ t.node? place = some (.file content) := by
  unfold content?
  split <;> simp_all

theorem isFileAt_iff :
    t.isFileAt place = true ↔
      (t.node? place).isSome = true ∧ t.holdsDirectory place = false := by
  rw [isFileAt, Bool.and_eq_true, Bool.not_eq_true']

end FileTree

namespace Analyzer

variable {project start : String} {place : Location} {names : List String}

/-! ## Sources -/

/-- Whether names lead from the directory of a project to a file that no dot hides, through
directories that may be listed, whose name ends as those of Kotlin sources do, and that is no test
data. -/
structure IsKotlinFile (files : FileTree Content) (place : Location) (names : List String) :
    Prop where
  stands : files.isFileAt (place ++ names) = true
  visible : Glob.IsVisible names
  listed : Glob.IsListed files place names
  kotlin : ∃ name, names.getLast? = some name ∧ SourceFiles.endsWith name ".kt" = true
  kept : SourceFiles.isTestData (ofNames names).toList = false

/-- Whether names lead from the directory of a project to one of its sources: such a file whose
path, from the given path of the directory, is not too long to be followed. -/
structure IsSource (files : FileTree Content) (start : String) (place : Location)
    (names : List String) : Prop extends IsKotlinFile files place names where
  reachable : files.strays.byteSize (Path.join start (ofNames names)) ≤ FileTree.pathLimit

theorem endsWith_iff (name : String) :
    SourceFiles.endsWith name ".kt" = true ↔ NamePattern.nameMatches "*.kt" name = true := by
  have hmatches := NamePattern.nameMatches_star (by decide : NamePattern.hasWildcard ".kt" = false)
    name
  rw [SourceFiles.endsWith, List.isSuffixOf_iff_suffix, ← hmatches]
  rfl

/-- There are directories above a file. -/
theorem IsKotlinFile.isDirectoryAt {files : FileTree Content}
    (h : IsKotlinFile files place names) : files.isDirectoryAt place = true := by
  refine h.listed.isDirectoryAt ?_
  rintro rfl
  obtain ⟨name, hname, -⟩ := h.kotlin
  cases hname

/-- The path through names to something below a directory is that of a file if it is not too long
and there is one. -/
theorem isFile_join_iff {files : FileTree Content} (h : files.IsSound)
    (hstart : files.locate start = .ok place) (hplace : files.isDirectoryAt place = true)
    (hstands : (files.node? (place ++ names)).isSome = true) :
    files.isFile (Path.join start (ofNames names)) = true ↔
      files.isFileAt (place ++ names) = true ∧
        files.strays.byteSize (Path.join start (ofNames names)) ≤ FileTree.pathLimit := by
  rw [FileTree.isFile, h.locate_join hstart hplace hstands, FileTree.isFileAt_iff]
  by_cases hsize : FileTree.pathLimit < files.strays.byteSize (Path.join start (ofNames names))
  · simp [hsize, Nat.not_le.2 hsize]
  · simp [hsize, hstands, Nat.not_lt.1 hsize]

/-- The directory of a source has a shorter path. -/
theorem size_join_le (strays : Text.Strays) (hstart : start ≠ "") {init : List String}
    {name : String} (h : ∀ other ∈ init ++ [name], IsName other) :
    strays.byteSize (Path.join start (ofNames init)) ≤
      strays.byteSize (Path.join start (ofNames (init ++ [name]))) := by
  obtain ⟨hinit, hname⟩ := List.forall_mem_append.1 h
  rw [Path.join_ofNames hstart hinit, Path.join_ofNames hstart h]
  by_cases hne : init = []
  · simp [hne]
  · rw [Path.ofNames_append hne (by simp)]
    simp only [Text.Strays.byteSize_append]
    omega

/-- Whether the paths through names to something below a directory are listed as those of
sources. -/
def isKept (files : FileTree Content) (start : String) (names : List String) : Bool :=
  files.isFile (Path.join start (ofNames names)) &&
    !SourceFiles.isTestData (ofNames names).toList

/-- The names from the directory of a project to its sources, in the order of the search. -/
def sourceNames (files : FileTree Content) (start : String) (place : Location) :
    List (List String) :=
  (Glob.arrange ofNames files.order (Glob.foundNames files start place "*.kt")).filter
    (isKept files start)

section Listing

variable {files : FileTree Content} (h : files.IsSound)

include h

/-- What is found is below the directory by its names. -/
theorem isName_of_mem_foundNames (hstart : files.locate start = .ok place)
    (hplace : files.holdsDirectory place = true)
    (hnames : names ∈ Glob.foundNames files start place "*.kt") :
    names ≠ [] ∧ (files.node? (place ++ names)).isSome = true ∧ ∀ name ∈ names, IsName name := by
  obtain ⟨init, name, rfl, hstands, -⟩ :=
    (Glob.mem_foundNames_iff h hstart hplace (by decide)).1 hnames
  exact ⟨by simp, hstands, h.isName_below hstands⟩

/-- The names to sources are those of all sources. -/
theorem mem_sourceNames_iff (hstart : files.locate start = .ok place)
    (hplace : files.holdsDirectory place = true) :
    names ∈ sourceNames files start place ↔ IsSource files start place names := by
  have hempty := (FileTree.checkPath_eq_ok_iff.1 (FileTree.locate_eq_ok_iff.1 hstart).1).2.1
  rw [sourceNames, List.mem_filter, Glob.mem_arrange_iff,
    Glob.mem_foundNames_iff h hstart hplace (by decide), isKept, Bool.and_eq_true,
    Bool.not_eq_true']
  constructor
  · rintro ⟨⟨init, name, rfl, hstands, hvisible, hlisted, hmatches, -⟩, hfile, hkept⟩
    have hopen := hlisted.isDirectoryAt (by simp)
    obtain ⟨hfileAt, hsize⟩ := (isFile_join_iff h hstart hopen hstands).1 hfile
    exact ⟨⟨hfileAt, hvisible, hlisted, ⟨name, by simp, (endsWith_iff name).2 hmatches⟩, hkept⟩,
      hsize⟩
  · rintro ⟨hkotlin, hsize⟩
    obtain ⟨name, hname, hends⟩ := hkotlin.kotlin
    obtain ⟨init, rfl⟩ := List.getLast?_eq_some_iff.1 hname
    have hthere := (FileTree.isFileAt_iff.1 hkotlin.stands).1
    have hshort := Nat.le_trans
      (size_join_le files.strays hempty (h.isName_below hthere)) hsize
    exact ⟨⟨init, name, rfl, hthere, hkotlin.visible, hkotlin.listed, (endsWith_iff name).1 hends,
      hshort⟩, (isFile_join_iff h hstart hkotlin.isDirectoryAt hthere).2 ⟨hkotlin.stands, hsize⟩,
      hkotlin.kept⟩

/-- No source is listed twice. -/
theorem nodup_sourceNames (hstart : files.locate start = .ok place)
    (hplace : files.holdsDirectory place = true) : (sourceNames files start place).Nodup :=
  ((Glob.arrange_perm _ _ _).nodup_iff.2 (Glob.nodup_foundNames h hstart hplace _)).filter _

section Project

variable (hproject : files.locate project = .ok place)
  (hplace : files.holdsDirectory place = true) (hplain : NamePattern.hasWildcard project = false)

include hproject hplace

/-- Seen from the project the found paths lead through their names. -/
theorem relativeTo_join
    (hnames : names ∈ Glob.foundNames files (Path.trimmed project) place "*.kt") :
    Path.relativeTo project (Path.join (Path.trimmed project) (ofNames names)) =
      ofNames names := by
  have hstart := FileTree.locate_trimmed hproject
  obtain ⟨hne, hstands, hvalid⟩ := isName_of_mem_foundNames h hstart hplace hnames
  refine Path.relativeTo_of_resolve hne hvalid ?_
  have hopen := h.isDirectoryAt_above hne hstands
  rw [FileTree.resolve_of_locate hproject, h.resolve_join hstart hopen hstands]

include hplain

/-- The listed paths are those through the names of the sources. -/
theorem keys_eq :
    ({} : Analyzer).keys project files =
      .ok ((sourceNames files (Path.trimmed project) place).map ofNames) := by
  have hsearch := Glob.search_join h hproject hplace hplain
    (by decide : NamePattern.hasWildcard "*.kt" = true) (by decide) (by decide) (by decide)
  have hkept : ∀ names ∈ Glob.arrange ofNames files.order
        (Glob.foundNames files (Path.trimmed project) place "*.kt"),
      isKept files (Path.trimmed project) names = (!({} : Analyzer).filters.any
          (SourceFiles.excludes (Path.relativeTo project
            (Path.join (Path.trimmed project) (ofNames names)))) &&
        files.isFile (Path.join (Path.trimmed project) (ofNames names))) := by
    intro names hnames
    rw [relativeTo_join h hproject hplace ((Glob.mem_arrange_iff _ _).1 hnames), isKept,
      Bool.and_comm, List.any_cons, List.any_nil, Bool.or_false]
    rfl
  have hrelative : ∀ names ∈ sourceNames files (Path.trimmed project) place,
      Path.relativeTo project (Path.join (Path.trimmed project) (ofNames names)) =
        ofNames names := fun names hnames =>
    relativeTo_join h hproject hplace
      ((Glob.mem_arrange_iff _ _).1 (List.mem_filter.1 hnames).1)
  change (Glob.search files (Path.join project ("**/" ++ "*.kt"))).map _ = _
  rw [hsearch, Except.map, ← List.map_congr_left hrelative, sourceNames, List.filter_congr hkept]
  simp only [List.filter_map, List.filter_filter, List.map_map, Function.comp_def]

/-- They are listed in the order in which they are found. -/
theorem sublist_sourceNames :
    ∃ paths, Glob.search files (Path.join project ("**/" ++ "*.kt")) = .ok paths ∧
      ((sourceNames files (Path.trimmed project) place).map ofNames).Sublist
        (paths.map (Path.relativeTo project)) := by
  have hsearch := Glob.search_join h hproject hplace hplain
    (by decide : NamePattern.hasWildcard "*.kt" = true) (by decide) (by decide) (by decide)
  refine ⟨_, hsearch, ?_⟩
  have hmap : (Glob.arrange ofNames files.order
        (Glob.foundNames files (Path.trimmed project) place "*.kt")).map
      (Path.relativeTo project ∘ fun names => Path.join (Path.trimmed project) (ofNames names)) =
      (Glob.arrange ofNames files.order
        (Glob.foundNames files (Path.trimmed project) place "*.kt")).map ofNames :=
    List.map_congr_left fun names hnames =>
      relativeTo_join h hproject hplace ((Glob.mem_arrange_iff _ _).1 hnames)
  rw [List.map_map, hmap]
  exact List.filter_sublist.map _

end Project
end Listing

/-! ## Reading -/

/-- Whether the path through names from the directory of a project can be followed. -/
def isReachable (files : FileTree Content) (project : String) (names : List String) : Bool :=
  decide (files.strays.byteSize (Path.join project (ofNames names)) ≤ FileTree.pathLimit)

/-- What a project path and names find is read if it may be, unless their path is too long. -/
theorem read_join {files : FileTree Content} (h : files.IsSound)
    (hproject : files.locate project = .ok place) (hplace : files.isDirectoryAt place = true)
    (hfile : files.isFileAt (place ++ names) = true) :
    files.read (Path.join project (ofNames names)) =
      if isReachable files project names then
        match files.content? (place ++ names) with
        | some content => .ok content
        | none => .error (.refused .accessDenied (Path.join project (ofNames names)))
      else .error (.refused .nameTooLong (Path.join project (ofNames names))) := by
  obtain ⟨hstands, hheld⟩ := FileTree.isFileAt_iff.1 hfile
  rw [FileTree.read, h.locate_join hproject hplace hstands]
  by_cases hsize : FileTree.pathLimit < files.strays.byteSize (Path.join project (ofNames names))
  · rw [if_pos hsize, if_neg (by simpa [isReachable] using hsize)]
  · rw [if_neg hsize, if_pos (by simpa [isReachable] using hsize)]
    obtain ⟨node, hnode⟩ := Option.isSome_iff_exists.1 hstands
    rw [FileTree.holdsDirectory, hnode] at hheld
    simp only [FileTree.content?, hnode]
    cases node with
    | file content => rfl
    | unreadable => rfl
    | directory | unlisted | locked => cases hheld

/-- Whether names lead from the directory of a project to a file that is no test data, and the path
of the project can be followed there. -/
def isReached (files : FileTree Content) (project : String) (place : Location)
    (names : List String) : Bool :=
  files.isFileAt (place ++ names) && !SourceFiles.isTestData (ofNames names).toList &&
    isReachable files project names

/-- The file that can be reached by names to what may be a source is one. -/
theorem isKotlinFile_of_mem_namesMatching {files : FileTree Content} (h : files.IsSound)
    (hplace : files.holdsDirectory place = true)
    (hnames : names ∈ Glob.namesMatching files place "*.kt")
    (hfile : files.isFileAt (place ++ names) = true)
    (hkept : SourceFiles.isTestData (ofNames names).toList = false) :
    IsKotlinFile files place names := by
  obtain ⟨init, last, rfl, -, hvisible, hlisted, hmatches⟩ :=
    Glob.exists_of_mem_namesMatching h hplace (by decide) hnames
  exact ⟨hfile, hvisible, hlisted, ⟨last, by simp, (endsWith_iff last).2 hmatches⟩, hkept⟩

/-- Those sources that can be reached are arranged as they are found, whatever else can be
reached. -/
theorem filter_sourceNames {files : FileTree Content} (h : files.IsSound)
    (hproject : files.locate project = .ok place) (hplace : files.holdsDirectory place = true) :
    (sourceNames files (Path.trimmed project) place).filter (isReachable files project) =
      Glob.arrange ofNames files.order
        ((Glob.namesMatching files place "*.kt").filter (isReached files project place)) := by
  have hstart := FileTree.locate_trimmed hproject
  have hempty := (FileTree.checkPath_eq_ok_iff.1 (FileTree.locate_eq_ok_iff.1 hstart).1).2.1
  have hprojectEmpty :=
    (FileTree.checkPath_eq_ok_iff.1 (FileTree.locate_eq_ok_iff.1 hproject).1).2.1
  have hshorter : ∀ names, (files.node? (place ++ names)).isSome = true →
      isReachable files project names = true →
      files.strays.byteSize (Path.join (Path.trimmed project) (ofNames names)) ≤
        FileTree.pathLimit := fun names hstands hreachable =>
    Nat.le_trans (Path.size_join_trimmed_le files.strays hprojectEmpty (h.isName_below hstands))
      (of_decide_eq_true hreachable)
  rw [sourceNames, List.filter_filter, Glob.filter_arrange]
  · refine congrArg _ ((Glob.filter_foundNames h hstart hplace ?_).trans
      (List.filter_congr fun names hnames => ?_))
    · intro init last hmem hkept
      obtain ⟨-, -, -, hstands, -⟩ :=
        Glob.exists_of_mem_namesMatching h hplace (by decide) hmem
      have hnames := h.isName_below hstands
      have hreachable := (Bool.and_eq_true_iff.1 hkept).1
      exact Nat.le_trans (size_join_le files.strays hempty hnames)
        (hshorter (init ++ [last]) hstands hreachable)
    · obtain ⟨init, last, rfl, hstands, -, hlisted, -⟩ :=
        Glob.exists_of_mem_namesMatching h hplace (by decide) hnames
      have hfile := isFile_join_iff h hstart (hlisted.isDirectoryAt (by simp)) hstands
      have hsize := hshorter _ hstands
      rw [Bool.eq_iff_iff, isReached, isKept]
      simp only [Bool.and_eq_true, hfile]
      constructor
      · rintro ⟨hreachable, ⟨hthere, -⟩, hkept⟩
        exact ⟨⟨hthere, hkept⟩, hreachable⟩
      · rintro ⟨⟨hthere, hkept⟩, hreachable⟩
        exact ⟨hreachable, ⟨hthere, hsize hreachable⟩, hkept⟩
  · intro first hfirst second hsecond _ _ hsame
    obtain ⟨hne, -, hnames⟩ := isName_of_mem_foundNames h hstart hplace hfirst
    obtain ⟨hother, -, hothers⟩ := isName_of_mem_foundNames h hstart hplace hsecond
    exact Path.ofNames_injective hne hother hnames hothers hsame

end Analyzer
end FeatureCensus
