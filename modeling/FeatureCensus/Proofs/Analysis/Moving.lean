import FeatureCensus.Proofs.Analysis.Isolation

/-!
# Moving projects

The files that are listed for a project whose path has no characters with a meaning in patterns are
files below its directory, under the paths that lead to them from there.  So it does not matter
where the directory stands and what it is called: what is counted in the same files elsewhere is the
same, in the same files and on the same lines.  Where a path has such characters it is a pattern,
and other directories may be found by it.

Main results:

- Theorem {lit}`Session.Moves.analyzeFile`: a file is counted in another project as in the first
  one.
- Theorem {lit}`Analyzer.map_sources_moved`: the sources of a project elsewhere are the same.
- Theorem {lit}`Analyzer.countProject_moved`: what is listed for a project, and what is counted
  elsewhere.
-/

namespace FeatureCensus

open FeatureCensus.Path (IsName ofNames)
open Syntax Text

/-! ## Places in two projects -/

/-- Whether two places are the same, or the same but for their projects in a file with one of the
given paths. -/
inductive Usage.Moves (project other : PlaceName) (paths : List String) : Usage → Usage → Prop
  | same (usage : Usage) : Usage.Moves project other paths usage usage
  | moved {path : String} (hpath : path ∈ paths) (line : Int) :
      Usage.Moves project other paths ⟨project, .text path, line⟩ ⟨other, .text path, line⟩

/-- Whether two counters have counted as much, in such places, and in the same further projects. -/
structure Counter.Moves (project other : PlaceName) (paths : List String) (c d : Counter) :
    Prop where
  label : d.label = c.label
  tracks : d.tracks = c.tracks
  count : d.count = c.count
  projects : ∀ name, name ≠ project → name ≠ other → (name ∈ d.projects ↔ name ∈ c.projects)
  usages : List.Forall₂ (Usage.Moves project other paths) c.usages.toList d.usages.toList

/-- Whether two sessions have counted as much, in such places. -/
structure Session.Moves (project other : PlaceName) (paths : List String) (s t : Session) :
    Prop where
  repositories : t.repositories = s.repositories
  files : t.files = s.files
  lines : t.lines = s.lines
  counters : List.Forall₂ (fun first second =>
    second.1 = first.1 ∧ first.2.Moves project other paths second.2) s.counters t.counters

variable {project other : PlaceName} {paths : List String}

namespace Counter

theorem Moves.refl (c : Counter) : c.Moves project other paths c :=
  ⟨rfl, rfl, rfl, fun _ _ _ => Iff.rfl, List.forall₂_same.2 fun usage _ => .same usage⟩

theorem Moves.increment {c d : Counter} (h : c.Moves project other paths d) {usage moved : Usage}
    (husage : usage.Moves project other paths moved) :
    (c.increment usage).Moves project other paths (d.increment moved) where
  label := h.label
  tracks := h.tracks
  count := congrArg (· + 1) h.count
  projects := by
    intro name hproject hother
    rw [mem_projects_increment, mem_projects_increment, h.projects name hproject hother]
    cases husage with
    | same usage => exact Iff.rfl
    | moved hpath line => simp [hproject, hother]
  usages := by
    by_cases htracks : c.tracks = true
    · rw [usages_increment_of_tracks htracks, usages_increment_of_tracks (h.tracks.trans htracks),
        Array.toList_push, Array.toList_push]
      exact List.rel_append h.usages (.cons husage .nil)
    · rw [Bool.not_eq_true] at htracks
      rw [usages_increment_of_not_tracks htracks,
        usages_increment_of_not_tracks (h.tracks.trans htracks)]
      exact h.usages

end Counter

namespace Session

theorem Moves.refl (s : Session) : s.Moves project other paths s :=
  ⟨rfl, rfl, rfl, List.forall₂_same.2 fun entry _ => ⟨rfl, .refl entry.2⟩⟩

theorem Moves.addTotals {s t : Session} (h : s.Moves project other paths t)
    (repositories files lines : Int) :
    (s.addTotals repositories files lines).Moves project other paths
      (t.addTotals repositories files lines) :=
  ⟨congrArg (· + repositories) h.repositories, congrArg (· + files) h.files,
    congrArg (· + lines) h.lines, h.counters⟩

/-- The counters of a key take such places, or there are none in either session. -/
theorem rel_updateCounter? {usage moved : Usage} (husage : usage.Moves project other paths moved)
    (key : String) {counters others : List (String × Counter)}
    (h : List.Forall₂ (fun first second =>
      second.1 = first.1 ∧ first.2.Moves project other paths second.2) counters others) :
    Option.Rel (List.Forall₂ fun first second =>
        second.1 = first.1 ∧ first.2.Moves project other paths second.2)
      (updateCounter? (·.increment usage) key counters)
      (updateCounter? (·.increment moved) key others) := by
  induction h with
  | nil => exact .none
  | @cons first second counters others hfirst hrest ih =>
    obtain ⟨k, c⟩ := first
    obtain ⟨l, d⟩ := second
    obtain ⟨rfl, hcounter⟩ : l = k ∧ c.Moves project other paths d := hfirst
    rw [updateCounter?, updateCounter?]
    by_cases hkey : (key == l) = true
    · rw [if_pos hkey, if_pos hkey]
      exact .some (.cons ⟨rfl, hcounter.increment husage⟩ hrest)
    · rw [if_neg hkey, if_neg hkey]
      generalize updateCounter? (·.increment usage) key counters = updated at ih ⊢
      generalize updateCounter? (·.increment moved) key others = updatedOthers at ih ⊢
      cases ih with
      | none => exact .none
      | some hupdated => exact .some (.cons ⟨rfl, hcounter⟩ hupdated)

theorem Moves.increment? {s t : Session} (h : s.Moves project other paths t) (key : String)
    {usage moved : Usage} (husage : usage.Moves project other paths moved) :
    Option.Rel (Session.Moves project other paths) (s.increment? key usage)
      (t.increment? key moved) := by
  have hcounters := rel_updateCounter? husage key h.counters
  rw [Session.increment?, Session.increment?]
  generalize updateCounter? (·.increment usage) key s.counters = updated at hcounters ⊢
  generalize updateCounter? (·.increment moved) key t.counters = updatedOthers at hcounters ⊢
  cases hcounters with
  | none => exact .none
  | some hupdated => exact .some ⟨h.repositories, h.files, h.lines, hupdated⟩

end Session

/-! ## Files in two projects -/

namespace Session

variable {s t : Session} {path : String} {file : ParsedFile}

open Analysis

/-- A finding that cannot be recorded for one project cannot be for the other one. -/
theorem Moves.record (h : s.Moves project other paths t) (hfile : file.path = some path)
    (hpath : path ∈ paths) (finding : Element × Finding) :
    (∃ fault, Analysis.record project file s finding = .error fault ∧
        Analysis.record other file t finding = .error fault) ∨
      ∃ updated moved, Analysis.record project file s finding = .ok updated ∧
        Analysis.record other file t finding = .ok moved ∧
        updated.Moves project other paths moved := by
  obtain ⟨e, finding⟩ := finding
  cases finding with
  | malformed error => exact .inl ⟨_, rfl, rfl⟩
  | count key =>
    rw [Analysis.record, Analysis.record, hfile]
    cases lineOf file.lines e with
    | error error => exact .inl ⟨_, rfl, rfl⟩
    | ok line =>
      have hincremented := h.increment? key (.moved hpath line)
      dsimp only [PlaceName.ofText?]
      generalize s.increment? key ⟨project, .text path, line⟩ = updated at hincremented ⊢
      generalize t.increment? key ⟨other, .text path, line⟩ = moved at hincremented ⊢
      cases hincremented with
      | none => exact .inl ⟨_, rfl, rfl⟩
      | some hupdated => exact .inr ⟨_, _, rfl, rfl, hupdated⟩

theorem Moves.recordAll (h : s.Moves project other paths t) (hfile : file.path = some path)
    (hpath : path ∈ paths) (findings : List (Element × Finding)) :
    (Analysis.recordAll other file t findings).2 =
        (Analysis.recordAll project file s findings).2 ∧
      (Analysis.recordAll project file s findings).1.Moves project other paths
        (Analysis.recordAll other file t findings).1 := by
  induction findings generalizing s t with
  | nil => exact ⟨rfl, h⟩
  | cons finding rest ih =>
    rw [Analysis.recordAll, Analysis.recordAll]
    rcases h.record hfile hpath finding with
      ⟨fault, hrecord, hmoved⟩ | ⟨updated, moved, hrecord, hmoved, hupdated⟩
    · rw [hrecord, hmoved]
      exact ⟨rfl, h⟩
    · rw [hrecord, hmoved]
      exact ih hupdated

/-- A file is counted in another project as in the first one. -/
theorem Moves.analyzeFile (h : s.Moves project other paths t) (hfile : file.path = some path)
    (hpath : path ∈ paths) (rules : List Rule) :
    (Analysis.analyzeFile rules other file t).2 = (Analysis.analyzeFile rules project file s).2 ∧
      (Analysis.analyzeFile rules project file s).1.Moves project other paths
        (Analysis.analyzeFile rules other file t).1 :=
  (h.addTotals 0 1 file.lines.lineCount).recordAll hfile hpath _

end Session

/-! ## Sources in two projects -/

namespace Analyzer

variable {analyzer : Analyzer} {v w : World} {project other : String} {place elsewhere : Location}
  {files : FileTree Content}

/-- The same sources are counted in another project as in the first one. -/
theorem moves_analyzeSources (analyzer : Analyzer) (hparses : w.parses = v.parses)
    {paths : List String} {sources others : List SourceFile}
    (hsame : others.map (fun source => (source.path, source.bytes)) =
      sources.map (fun source => (source.path, source.bytes)))
    (hpaths : ∀ source ∈ sources, source.path ∈ paths) {s t : Session}
    (h : s.Moves (.text project) (.text other) paths t) :
    (analyzer.analyzeSources w other t others).2 =
        (analyzer.analyzeSources v project s sources).2 ∧
      (analyzer.analyzeSources v project s sources).1.Moves (.text project) (.text other) paths
        (analyzer.analyzeSources w other t others).1 := by
  induction sources generalizing others s t with
  | nil =>
    obtain rfl : others = [] := List.map_eq_nil_iff.1 hsame
    exact ⟨rfl, h⟩
  | cons source rest ih =>
    obtain ⟨moved, later, rfl, hfirst, hlater⟩ := List.map_eq_cons_iff.1 hsame
    obtain ⟨hpath, hbytes⟩ := Prod.mk.inj hfirst
    obtain ⟨hmem, hrest⟩ := List.forall_mem_cons.1 hpaths
    rw [analyzeSources, analyzeSources, hpath, hbytes, parseSource_congr hparses]
    cases hparse : parseSource source.bytes (some source.path) v with
    | error error => exact ⟨rfl, h⟩
    | ok file =>
      obtain ⟨hfault, hmoves⟩ := h.analyzeFile (path_of_parseSource hparse) hmem analyzer.rules
      dsimp only
      generalize
        Analysis.analyzeFile analyzer.rules (.text project) file s = left at hfault hmoves ⊢
      generalize Analysis.analyzeFile analyzer.rules (.text other) file t = right
        at hfault hmoves ⊢
      obtain ⟨updated, fault?⟩ := left
      obtain ⟨updatedOther, otherFault?⟩ := right
      obtain rfl : otherFault? = fault? := hfault
      cases otherFault? with
      | some fault => exact ⟨rfl, hmoves⟩
      | none => exact ih hlater hrest hmoves

/-! ## Projects elsewhere -/

/-- Whether a path leads to the directory of a project and has no characters with a meaning in
patterns. -/
structure IsPlainProject (files : FileTree Content) (project : String) (place : Location) :
    Prop where
  sound : files.IsSound
  located : files.locate project = .ok place
  directory : files.holdsDirectory place = true
  plain : NamePattern.hasWildcard project = false

namespace IsPlainProject

/-- What is listed for such a project is below its directory, and so is what is read for it. -/
theorem exists_keys (h : IsPlainProject files project place) :
    ∃ found : List (List String),
      ({} : Analyzer).keys project files = .ok (found.map ofNames) ∧
      (∀ names, names ∈ found ↔ IsSource files (Path.trimmed project) place names) ∧
      ∀ names ∈ found, names ≠ [] ∧ (∀ name ∈ names, IsName name) ∧
        ∀ content, files.read (Path.join project (ofNames names)) = .ok content →
          files.content? (place ++ names) = some content := by
  have hmem : ∀ names, names ∈ sourceNames files (Path.trimmed project) place ↔
      IsSource files (Path.trimmed project) place names := fun names =>
    mem_sourceNames_iff h.sound (FileTree.locate_trimmed h.located) h.directory
  refine ⟨_, keys_eq h.sound h.located h.directory h.plain, hmem, fun names hnames => ?_⟩
  have hsource := ((hmem names).1 hnames).toIsKotlinFile
  have hstands := (FileTree.isFileAt_iff.1 hsource.stands).1
  refine ⟨?_, h.sound.isName_below hstands, fun content hread => ?_⟩
  · rintro rfl
    obtain ⟨name, hname, -⟩ := hsource.kotlin
    cases hname
  · rw [read_join h.sound h.located hsource.isDirectoryAt hsource.stands] at hread
    split at hread
    · split at hread
      · rename_i other hother
        rw [hother, Except.ok.inj hread]
      · cases hread
    · cases hread

theorem not_mem_join (h : IsPlainProject files project place) {names : List String}
    (hnames : ∀ name ∈ names, IsName name) :
    '\x00' ∉ (Path.join project (ofNames names)).toList := by
  have hnull := (FileTree.checkPath_eq_ok_iff.1 (FileTree.locate_eq_ok_iff.1 h.located).1).1
  refine Analyzer.not_mem_join (by decide) hnull fun hmem => ?_
  rcases Path.mem_ofNames hmem with hslash | ⟨name, hname, hmem⟩
  · cases hslash
  · exact (hnames name hname).noNull hmem

/-- What is left by the analysis of such a project is told by its sources. -/
theorem leftBy_countProject (h : IsPlainProject w.files project place) (own : Tally) :
    leftBy ((({} : Analyzer).countProject project).run ⟨w, own⟩) =
      ({} : Analyzer).analyzeSources w project (own.session.addTotals 1 0 0)
        (({} : Analyzer).sources project w.files) := by
  obtain ⟨found, hkeys, -, hbelow⟩ := h.exists_keys
  refine Analyzer.leftBy_countProject {} hkeys (fun path hpath => ?_) own
  obtain ⟨names, hnames, rfl⟩ := List.mem_map.1 hpath
  exact h.not_mem_join (hbelow names hnames).2.1

end IsPlainProject

end Analyzer

/-- Whether what is below one place is below another one in another tree, in the same order. -/
structure FileTree.IsMoved {γ : Type} (t : FileTree γ) (place : Location) (u : FileTree γ)
    (elsewhere : Location) : Prop where
  node : ∀ names, u.node? (elsewhere ++ names) = t.node? (place ++ names)
  listed : ∀ names, u.namesAt (elsewhere ++ names) = t.namesAt (place ++ names)
  order : u.order = t.order

namespace FileTree.IsMoved

open Glob

variable {γ : Type} {t u : FileTree γ} {place elsewhere : Location}

theorem listsAt (h : t.IsMoved place u elsewhere) (names : List String) :
    u.listsAt (elsewhere ++ names) = t.listsAt (place ++ names) := by
  rw [FileTree.listsAt, FileTree.listsAt, h.node]

theorem holdsDirectory (h : t.IsMoved place u elsewhere) (names : List String) :
    u.holdsDirectory (elsewhere ++ names) = t.holdsDirectory (place ++ names) := by
  rw [FileTree.holdsDirectory, FileTree.holdsDirectory, h.node]

theorem listedAt (h : t.IsMoved place u elsewhere) (names : List String) :
    u.listedAt (elsewhere ++ names) = t.listedAt (place ++ names) := by
  rw [FileTree.listedAt, FileTree.listedAt, h.listsAt, h.listed]

theorem entriesAt (h : t.IsMoved place u elsewhere) (directoriesOnly : Bool)
    (names : List String) :
    entriesAt u directoriesOnly (elsewhere ++ names) =
      entriesAt t directoriesOnly (place ++ names) := by
  rw [Glob.entriesAt, Glob.entriesAt, h.listedAt]
  simp only [List.append_assoc, h.holdsDirectory]

theorem namesBelow (h : t.IsMoved place u elsewhere) (directoriesOnly : Bool) (levels : Nat)
    (names : List String) :
    namesBelow u directoriesOnly levels (elsewhere ++ names) =
      namesBelow t directoriesOnly levels (place ++ names) := by
  induction levels generalizing names with
  | zero => rfl
  | succ levels ih =>
    rw [Glob.namesBelow, Glob.namesBelow, h.entriesAt]
    simp only [List.append_assoc, ih]

/-- All that is below a place is found within the levels of a tree, and within more levels too. -/
theorem namesBelow_height_add (ht : t.IsSound) (directoriesOnly : Bool) (more : Nat) :
    Glob.namesBelow t directoriesOnly (t.height + more) place =
      Glob.namesBelow t directoriesOnly t.height place := by
  refine namesBelow_add ht directoriesOnly (fun names hstands => ?_) more
  have hlow := length_le_height hstands
  rw [List.length_append] at hlow
  omega

theorem directoryNames (h : t.IsMoved place u elsewhere) (ht : t.IsSound) (hu : u.IsSound) :
    directoryNames u elsewhere = directoryNames t place := by
  have hbelow := h.namesBelow true (t.height + u.height) []
  rw [List.append_nil, List.append_nil, namesBelow_height_add ht, Nat.add_comm,
    namesBelow_height_add hu] at hbelow
  rw [Glob.directoryNames, Glob.directoryNames, hbelow]

/-- What matches a pattern below the one place matches it below the other one. -/
theorem namesMatching (h : t.IsMoved place u elsewhere) (ht : t.IsSound) (hu : u.IsSound)
    (pattern : String) : namesMatching u elsewhere pattern = namesMatching t place pattern := by
  rw [Glob.namesMatching, Glob.namesMatching, h.directoryNames ht hu]
  simp only [matchingAt, h.listedAt]

end FileTree.IsMoved

namespace Analyzer

variable {analyzer : Analyzer} {v w : World} {project other : String} {place elsewhere : Location}
  {files : FileTree Content}

/-- The sources of a project and of the same directory elsewhere have the same paths within them
and the same contents. -/
theorem map_sources_moved (h : IsPlainProject v.files project place)
    (hother : IsPlainProject w.files other elsewhere)
    (hmoved : v.files.IsMoved place w.files elsewhere)
    (hreachable : ∀ names, IsKotlinFile v.files place names →
      isReachable w.files other names = isReachable v.files project names) :
    (({} : Analyzer).sources other w.files).map (fun source => (source.path, source.bytes)) =
      (({} : Analyzer).sources project v.files).map
        (fun source => (source.path, source.bytes)) := by
  have hreached : (sourceNames w.files (Path.trimmed other) elsewhere).filter
        (isReachable w.files other) =
      (sourceNames v.files (Path.trimmed project) place).filter (isReachable v.files project) := by
    rw [filter_sourceNames hother.sound hother.located hother.directory,
      filter_sourceNames h.sound h.located h.directory, hmoved.order,
      hmoved.namesMatching h.sound hother.sound]
    refine congrArg _ (List.filter_congr fun names hnames => ?_)
    have hfile : w.files.isFileAt (elsewhere ++ names) = v.files.isFileAt (place ++ names) := by
      rw [FileTree.isFileAt, FileTree.isFileAt, hmoved.node, hmoved.holdsDirectory]
    rw [isReached, isReached, hfile, Bool.eq_iff_iff]
    simp only [Bool.and_eq_true, Bool.not_eq_true']
    refine and_congr_right fun hboth => ?_
    rw [hreachable names
      (isKotlinFile_of_mem_namesMatching h.sound h.directory hnames hboth.1 hboth.2)]
  rw [sources_eq h.sound h.located h.directory h.plain,
    sources_eq hother.sound hother.located hother.directory hother.plain, hreached,
    List.map_filterMap, List.map_filterMap]
  refine List.filterMap_congr fun names _ => ?_
  rw [FileTree.content?, FileTree.content?, hmoved.node, Option.map_map, Option.map_map]
  rfl

/-- The files that are listed for a project whose path has no characters with a meaning in patterns
are the Kotlin sources below its directory, under paths that never leave it, and what is read is
what stands there.  If the same directory stands elsewhere, with its entries in the same order, its
analysis there ends as it does here, and the same totals and the same occurrences are counted, in
files with the same paths and on the same lines, as long as no path gets too long by that. -/
theorem countProject_moved (h : IsPlainProject v.files project place)
    (hother : IsPlainProject w.files other elsewhere)
    (hmoved : v.files.IsMoved place w.files elsewhere) (hparses : w.parses = v.parses)
    (hreachable : ∀ names, IsKotlinFile v.files place names →
      isReachable w.files other names = isReachable v.files project names) (own : Tally) :
    ∃ found : List (List String),
      ({} : Analyzer).keys project v.files = .ok (found.map ofNames) ∧
      (∀ names, names ∈ found ↔ IsSource v.files (Path.trimmed project) place names) ∧
      (∀ names ∈ found, names ≠ [] ∧ (∀ name ∈ names, IsName name) ∧
        ∀ content, v.files.read (Path.join project (ofNames names)) = .ok content →
          v.files.content? (place ++ names) = some content) ∧
      let here := leftBy ((({} : Analyzer).countProject project).run ⟨v, own⟩)
      let there := leftBy ((({} : Analyzer).countProject other).run ⟨w, own⟩)
      there.2 = here.2 ∧
        here.1.Moves (.text project) (.text other) (found.map ofNames) there.1 := by
  obtain ⟨found, hkeys, hmem, hbelow⟩ := h.exists_keys
  refine ⟨found, hkeys, hmem, hbelow, ?_⟩
  have hpaths : ∀ source ∈ ({} : Analyzer).sources project v.files,
      source.path ∈ found.map ofNames := by
    intro source hsource
    rw [sources_of_keys hkeys] at hsource
    obtain ⟨path, hpath, hread⟩ := List.mem_filterMap.1 hsource
    rwa [(read_of_source?_eq_some hread).1]
  dsimp only
  rw [h.leftBy_countProject, hother.leftBy_countProject]
  exact moves_analyzeSources {} hparses (map_sources_moved h hother hmoved hreachable) hpaths
    (.refl _)

/-- The world with the same project of one file in a directory whose name has a blank and an
exclamation mark. -/
def spacedWorld : World where
  files := { nodes := [(workingDirectory, .directory), (workingDirectory ++ ["a b!"], .directory),
    (workingDirectory ++ ["a b!", "A.kt"], .file (.bytes [10]))] }

theorem isMoved_spacedWorld :
    farWorld.files.IsMoved (workingDirectory ++ ["p"]) spacedWorld.files
      (workingDirectory ++ ["a b!"]) where
  node names := by
    simp [spacedWorld, farWorld, FileTree.node?, workingDirectory, List.lookup_cons]
  listed names := by
    cases names <;> simp [spacedWorld, farWorld, FileTree.namesAt, workingDirectory]
  order := rfl

/-- The file is counted in the one directory as in the other one. -/
theorem countProject_moved_spacedWorld :
    let own : Tally := ⟨.ofSpecs Kotlin.catalog false, 0⟩
    let here := leftBy ((({} : Analyzer).countProject "p").run ⟨farWorld, own⟩)
    let there := leftBy ((({} : Analyzer).countProject "a b!").run ⟨spacedWorld, own⟩)
    there.2 = here.2 ∧ here.1.Moves (.text "p") (.text "a b!") ["A.kt"] there.1 := by
  intro own
  have hplain : IsPlainProject farWorld.files "p" (workingDirectory ++ ["p"]) :=
    ⟨isSound_farWorld, by decide +kernel, by decide, by decide⟩
  have hspaced : IsPlainProject spacedWorld.files "a b!" (workingDirectory ++ ["a b!"]) :=
    ⟨⟨by decide, by decide +kernel, by decide⟩, by decide +kernel, by decide, by decide⟩
  have hreachable : ∀ names, IsKotlinFile farWorld.files (workingDirectory ++ ["p"]) names →
      isReachable spacedWorld.files "a b!" names = isReachable farWorld.files "p" names := by
    intro names hfile
    obtain rfl := names_of_isFileAt_farWorld hfile.stands
    decide +kernel
  obtain ⟨found, hkeys, -, -, hmoved⟩ :=
    countProject_moved hplain hspaced isMoved_spacedWorld rfl hreachable own
  have hlisted : ({} : Analyzer).keys "p" farWorld.files = .ok ["A.kt"] := by decide +kernel
  rw [Except.ok.inj (hkeys.symm.trans hlisted)] at hmoved
  exact hmoved

/-- The world with a project whose path matches that of another directory, and not itself. -/
def bracketWorld : World where
  files := { nodes := [(workingDirectory, .directory), (workingDirectory ++ ["p[1]"], .directory),
    (workingDirectory ++ ["p[1]", "A.kt"], .file (.bytes [10])),
    (workingDirectory ++ ["p1"], .directory),
    (workingDirectory ++ ["p1", "B.kt"], .file (.bytes [10, 10]))] }

/-- The file of the project is not counted, and a file is counted that is not below it. -/
theorem not_below_bracketWorld :
    bracketWorld.files.isDirectory "p[1]" = true ∧
      bracketWorld.files.isFile "p[1]/A.kt" = true ∧
      ({} : Analyzer).keys "p[1]" bracketWorld.files = .ok ["../p1/B.kt"] ∧
      leftBy ((({} : Analyzer).countProject "p[1]").run ⟨bracketWorld, ⟨⟨[], 0, 0, 0⟩, 0⟩⟩) =
        (⟨[], 1, 1, 3⟩, none) := by
  decide +kernel

end Analyzer
end FeatureCensus
