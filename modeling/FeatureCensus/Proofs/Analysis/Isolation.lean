import FeatureCensus.Proofs.Analysis.Inspection
import FeatureCensus.Proofs.Analysis.Projects
import FeatureCensus.Proofs.Counting.Attributes
import FeatureCensus.Proofs.Files.Removal
import FeatureCensus.Proofs.Syntax.Legality

/-!
# Sources one by one

The analysis of a project reads its sources one after the other.  What is counted in a source does
not depend on the others, so without one of them the others are counted as before.  Only where
the tree of a source would hold a text that markup cannot hold, the analysis ends there, and the
sources behind it are not counted.

Main results:

- Theorem {lit}`Analyzer.sources_remove`: without a file the other sources are read as before.
- Theorem {lit}`Analyzer.leftBy_countProject`: what is left by an analysis is told by its sources.
- Theorem {lit}`Analyzer.analyzeSources_eq`: what is counted by then, and how it ends.
- Theorem {lit}`Analyzer.countProject_remove`: so without a source the others are counted as before.
-/

namespace FeatureCensus

open FeatureCensus.Path (IsName ofNames)
open Syntax Text

/-! ## Sources -/

/-- A source that the analysis of a project reads: where it stands, its path within the project,
and its bytes. -/
structure SourceFile where
  place : Location
  path : String
  bytes : Bytes
  deriving DecidableEq, Repr

namespace SourceFile

/-- The normalized tree of a source, were there no bounds to markup. -/
def tree (w : World) (source : SourceFile) : ElementTree :=
  conversion [] (w.parse source.bytes)

/-- The first text in the tree of a source that markup cannot hold. -/
def illegalText? (w : World) (source : SourceFile) : Option String :=
  Syntax.illegalText? (source.tree w).values

/-- Whether markup can hold the tree of a source. -/
def isLegal (w : World) (source : SourceFile) : Bool :=
  (source.illegalText? w).isNone

/-- The parsed source. -/
def file (w : World) (source : SourceFile) : ParsedFile :=
  ⟨source.tree w, some source.path, LineIndex.ofBytes source.bytes⟩

/-- The analysis of a source of a project. -/
def task (w : World) (project : String) (source : SourceFile) : Analysis.Task :=
  ⟨.text project, source.file w⟩

variable {w : World} {source : SourceFile}

/-- A source is parsed unless markup cannot hold its tree. -/
theorem parseSource_eq (w : World) (source : SourceFile) :
    Analyzer.parseSource source.bytes (some source.path) w = match source.illegalText? w with
      | some text => .error (.illegalText text)
      | none => .ok (source.file w) := by
  rw [Analyzer.parseSource, Syntax.normalize_eq, illegalText?, tree]
  cases Syntax.illegalText? (conversion [] (w.parse source.bytes)).values <;> rfl

/-- The analysis of a source does not fail, if the numbers of its tree can be read. -/
theorem fault?_task (h : IsMeasurable (w.parse source.bytes)) (project : String) :
    (source.task w project).fault? Kotlin.rules Kotlin.catalog.keys = none := by
  have hkeys : (Session.ofSpecs Kotlin.catalog false).keys = Kotlin.catalog.keys := by decide
  have hintegers : ∀ e ∈ (source.file w).tree.values, e.HasIntegers :=
    Kotlin.hasIntegers_conversion h
  obtain ⟨counters, hanalyzed, -⟩ := Kotlin.analyzeFile_eq (.text project) hkeys hintegers
  have hfault := Analysis.analyzeFile_eq Kotlin.rules (source.task w project)
    (hkeys ▸ Kotlin.nodup_keys_catalog)
  rw [hkeys] at hfault
  exact (congrArg Prod.snd (hfault.symm.trans hanalyzed))

end SourceFile

namespace Analyzer

variable {project : String} {place gone : Location} {files : FileTree Content}

/-- The source that the analysis of a project reads under a path, if it can be read. -/
def source? (files : FileTree Content) (project path : String) : Option SourceFile :=
  match files.locate (Path.join project path) with
  | .error _ => none
  | .ok place => (files.content? place).map fun content => ⟨place, path, content.toBytes⟩

/-- The sources that the analysis of a project reads, in order. -/
def sources (analyzer : Analyzer) (project : String) (files : FileTree Content) : List SourceFile :=
  ((analyzer.keys project files).toOption.getD []).filterMap (source? files project)

theorem sources_of_keys {analyzer : Analyzer} {paths : List String}
    (h : analyzer.keys project files = .ok paths) :
    analyzer.sources project files = paths.filterMap (source? files project) := by
  rw [sources, h]
  rfl

/-- Of a project whose path has no wildcards those sources are read that can be reached and read, in
the order in which they are found. -/
theorem sources_eq (h : files.IsSound) (hproject : files.locate project = .ok place)
    (hplace : files.holdsDirectory place = true)
    (hplain : NamePattern.hasWildcard project = false) :
    ({} : Analyzer).sources project files =
      ((sourceNames files (Path.trimmed project) place).filter
        (isReachable files project)).filterMap fun names =>
          (files.content? (place ++ names)).map fun content =>
            ⟨place ++ names, ofNames names, content.toBytes⟩ := by
  have hstart := FileTree.locate_trimmed hproject
  rw [sources_of_keys (keys_eq h hproject hplace hplain), List.filterMap_map,
    List.filterMap_filter]
  refine List.filterMap_congr fun names hnames => ?_
  have hsource := ((mem_sourceNames_iff h hstart hplace).1 hnames).toIsKotlinFile
  have hstands := (FileTree.isFileAt_iff.1 hsource.stands).1
  rw [Function.comp_apply, source?, h.locate_join hproject hsource.isDirectoryAt hstands]
  by_cases hreachable : isReachable files project names = true
  · rw [if_pos hreachable, if_neg (Nat.not_lt.2 (of_decide_eq_true hreachable))]
  · rw [if_neg hreachable, if_pos (by simpa [isReachable] using hreachable)]

/-! ## Without a file -/

theorem content?_remove_of_ne (h : place ≠ gone) :
    (files.remove gone).content? place = files.content? place := by
  rw [FileTree.content?, FileTree.content?, FileTree.node?_remove_of_ne files h]

/-- A path that a search has found is, seen from the project, that of the file found. -/
theorem place_of_source? (h : files.IsSound) {found : String} {source : SourceFile}
    (hfound : files.locate found = .ok place)
    (hsource : source? files project (Path.relativeTo project found) = some source) :
    source.place = place := by
  rw [source?] at hsource
  split at hsource
  · cases hsource
  · rename_i reached hreached
    obtain ⟨content, -, rfl⟩ := Option.map_eq_some_iff.1 hsource
    change reached = place
    rw [← FileTree.resolve_of_locate hreached,
      Path.resolve_join_relativeTo (h.isName_of_mem_resolve hfound),
      FileTree.resolve_of_locate hfound]

/-- Without a file the sources are read that were read before, but for that file. -/
theorem source?_remove (h : files.holdsDirectory gone = false) (path : String) :
    source? (files.remove gone) project path =
      (source? files project path).filter (·.place != gone) := by
  rw [source?, source?]
  cases hlocate : (files.remove gone).locate (Path.join project path) with
  | ok place =>
    obtain ⟨hbefore, hne⟩ := (FileTree.locate_remove_eq_ok_iff h).1 hlocate
    simp only [hbefore, content?_remove_of_ne hne]
    cases files.content? place with
    | none => rfl
    | some content => simp [Option.filter, hne]
  | error error =>
    cases hbefore : files.locate (Path.join project path) with
    | error fault => rfl
    | ok place =>
      obtain rfl := FileTree.eq_of_locate_remove h hbefore hlocate
      cases hcontent : files.content? place with
      | none => simp [hcontent]
      | some content => simp [hcontent, Option.filter]

theorem not_mem_join {c : Char} (hc : c ≠ '/') {path rest : String} (hpath : c ∉ path.toList)
    (hrest : c ∉ rest.toList) : c ∉ (Path.join path rest).toList := by
  rw [Path.join, String.toList_ofList, Path.joinChars]
  split
  · exact hrest
  · split <;> simp [hpath, hrest, hc]

/-- The listing of a project comes to an end, and without a file it lists the same, but for the
paths under which that file was found. -/
theorem keys_remove (analyzer : Analyzer) (h : files.IsSound)
    (hgone : files.holdsDirectory gone = false)
    (hnull : '\x00' ∉ (Path.join project analyzer.pattern).toList) :
    ∃ found : List String,
      (∀ path ∈ found, files.isFile path = true) ∧
      analyzer.keys project files = .ok (found.map (Path.relativeTo project)) ∧
      analyzer.keys project (files.remove gone) =
        .ok ((found.filter (files.remove gone).isFile).map (Path.relativeTo project)) := by
  obtain ⟨paths, others, hsearch, hremoved, hsame⟩ := Glob.search_remove h hgone hnull
  let isKept (path : String) : Bool :=
    !analyzer.filters.any (SourceFiles.excludes (Path.relativeTo project path))
  refine ⟨(paths.filter files.isFile).filter isKept,
    fun path hpath => (List.mem_filter.1 (List.mem_filter.1 hpath).1).2, ?_, ?_⟩
  · rw [keys, SourceFiles.keys, hsearch, Except.map, List.filter_map]
    rfl
  · have hfiles : (paths.filter files.isFile).filter (files.remove gone).isFile =
        paths.filter (files.remove gone).isFile := by
      rw [List.filter_filter]
      refine List.filter_congr fun path _ => ?_
      rw [Bool.and_eq_left_iff_imp]
      exact fun hfile => ((FileTree.isFile_remove_iff hgone).1 hfile).1
    rw [keys, SourceFiles.keys, hremoved, Except.map, List.filter_map, hsame, ← hfiles]
    exact congrArg (fun kept : List String => Except.ok (kept.map (Path.relativeTo project)))
      (List.filter_comm _ _ _)

/-- Without a file the other sources are read as before, whatever the path of the project and the
pattern are. -/
theorem sources_remove (analyzer : Analyzer) (h : files.IsSound)
    (hgone : files.holdsDirectory gone = false)
    (hnull : '\x00' ∉ (Path.join project analyzer.pattern).toList) :
    analyzer.sources project (files.remove gone) =
      (analyzer.sources project files).filter (·.place != gone) := by
  obtain ⟨found, hfound, hkeys, hremoved⟩ := analyzer.keys_remove h hgone hnull
  rw [sources_of_keys hkeys, sources_of_keys hremoved]
  simp only [List.filterMap_map, List.filterMap_filter, List.filter_filterMap]
  refine List.filterMap_congr fun path hpath => ?_
  simp only [Function.comp_apply, source?_remove hgone]
  split
  · rfl
  · rename_i hfile
    cases hsource : source? files project (Path.relativeTo project path) with
    | none => rfl
    | some source =>
      -- Only the file that is taken away is not found any more.
      have hplace : files.locate path = .ok gone := by
        by_contra hne
        exact hfile ((FileTree.isFile_remove_iff hgone).2 ⟨hfound path hpath, hne⟩)
      rw [Option.filter_some, place_of_source? h hplace hsource, bne_self_eq_false]
      rfl

/-! ## Runs -/

theorem findSome?_of_legal {w : World} {sources : List SourceFile}
    (h : ∀ source ∈ sources, source.isLegal w = true) :
    sources.findSome? (·.illegalText? w) = none := by
  rw [List.findSome?_eq_none_iff]
  exact fun source hsource => Option.isNone_iff_eq_none.1 (h source hsource)

/-- How an analysis ends whose first text that markup cannot hold is the given one. -/
def endedBy (illegal? : Option String) (t : Situation Tally) :
    EStateM.Result Failure (Situation Tally) Unit :=
  match illegal? with
  | none => .ok () t
  | some text => .error (.markup (.illegalText text)) t

/-- A source that markup cannot hold is not parsed. -/
theorem run_prepareFile_of_illegal {σ : Type} {s : Situation σ} {path : String} {content : Content}
    {error : MarkupError} (hread : s.world.files.read (Path.join project path) = .ok content)
    (hparse : parseSource content.toBytes (some path) s.world = .error error) :
    (prepareFile project path : Action σ _).run s = .error (.markup error) s := by
  rw [prepareFile]
  simp only [bind, EStateM.bind, EStateM.run, Action.world_apply, hread, hparse]
  rfl

/-- A path under which there is no source cannot be read. -/
theorem read_of_source?_eq_none {path : String} (hnull : '\x00' ∉ (Path.join project path).toList)
    (h : source? files project path = none) :
    ∃ fault other, files.read (Path.join project path) = .error (.refused fault other) := by
  rw [source?] at h
  rw [FileTree.read]
  cases hlocate : files.locate (Path.join project path) with
  | ok place =>
    rw [hlocate] at h
    simp only [Option.map_eq_none_iff, FileTree.content?] at h
    dsimp only
    cases hnode : files.node? place with
    | none => exact ⟨_, _, rfl⟩
    | some node =>
      cases node with
      | directory | unlisted | locked | unreadable => exact ⟨_, _, rfl⟩
      | file content => rw [hnode] at h; cases h
  | error error =>
    cases error with
    | refused fault other => exact ⟨fault, other, rfl⟩
    | embeddedNull => exact absurd hlocate (FileTree.locate_ne_embeddedNull hnull)

theorem read_of_source?_eq_some {path : String} {source : SourceFile}
    (h : source? files project path = some source) :
    source.path = path ∧ ∃ content, content.toBytes = source.bytes ∧
      files.read (Path.join project path) = .ok content := by
  rw [source?] at h
  cases hlocate : files.locate (Path.join project path) with
  | error error =>
    rw [hlocate] at h
    cases h
  | ok place =>
    rw [hlocate] at h
    obtain ⟨content, hcontent, rfl⟩ := Option.map_eq_some_iff.1 h
    refine ⟨rfl, content, rfl, ?_⟩
    rw [FileTree.read, hlocate]
    dsimp only
    rw [FileTree.content?_eq_some.1 hcontent]

/-- What is left when the sources of a project are analyzed one after the other, up to the first
analysis that fails. -/
def analyzeSources (analyzer : Analyzer) (w : World) (project : String) :
    Session → List SourceFile → Session × Option Failure
  | s, [] => (s, none)
  | s, source :: rest =>
    match parseSource source.bytes (some source.path) w with
    | .error error => (s, some (.markup error))
    | .ok file =>
      match Analysis.analyzeFile analyzer.rules project file s with
      | (t, some fault) => (t, some (.ofFault fault))
      | (t, none) => analyzer.analyzeSources w project t rest

theorem run_countFile_of_fault {analyzer : Analyzer} {file : ParsedFile} {s : Situation Tally}
    {session : Session}
    {fault : Analysis.Fault}
    (h : Analysis.analyzeFile analyzer.rules project file s.own.session = (session, some fault)) :
    (analyzer.countFile project file).run s =
      .error (.ofFault fault) { s with own := { s.own with session } } := by
  simp only [EStateM.run, countFile, h]

/-- What is left by the analysis of listed files is told by those of them that can be read. -/
theorem leftBy_countFiles (analyzer : Analyzer) {w : World} {paths : List String}
    (hnull : ∀ path ∈ paths, '\x00' ∉ (Path.join project path).toList) {s : Situation Tally}
    (hfiles : s.world.files = w.files) (hparses : s.world.parses = w.parses) :
    leftBy ((analyzer.countFiles project paths).run s) =
      analyzer.analyzeSources w project s.own.session
        (paths.filterMap (source? w.files project)) := by
  induction paths generalizing s with
  | nil => rfl
  | cons path rest ih =>
    obtain ⟨hpath, hrest⟩ := List.forall_mem_cons.1 hnull
    rw [countFiles]
    cases hsource : source? w.files project path with
    | none =>
      obtain ⟨fault, refused, hread⟩ := read_of_source?_eq_none hpath hsource
      rw [← hfiles] at hread
      obtain ⟨event, hprepared⟩ := run_prepareFile_of_refused hread
      rw [List.filterMap_cons_none hsource, Action.run_bind_of_ok hprepared]
      exact ih hrest hfiles hparses
    | some source =>
      obtain ⟨rfl, content, hbytes, hread⟩ := read_of_source?_eq_some hsource
      rw [← hfiles] at hread
      have hsame := parseSource_congr hparses source.bytes (some source.path)
      rw [← hbytes] at hsame
      rw [List.filterMap_cons_some hsource, analyzeSources, ← hbytes]
      cases hparse : parseSource content.toBytes (some source.path) w with
      | error error =>
        have hprepared : (prepareFile project source.path : Action Tally _).run s = _ :=
          run_prepareFile_of_illegal hread (hsame.trans hparse)
        rw [Action.run_bind_error hprepared]
        rfl
      | ok file =>
        have hprepared : (prepareFile project source.path : Action Tally _).run s = _ :=
          run_prepareFile_of_read hread (hsame.trans hparse)
        rw [Action.run_bind_of_ok hprepared]
        dsimp only
        cases hcount : Analysis.analyzeFile analyzer.rules project file s.own.session with
        | mk session fault? =>
          cases fault? with
          | some fault =>
            rw [Action.run_bind_error (run_countFile_of_fault hcount)]
            rfl
          | none =>
            rw [Action.run_bind_of_ok (run_countFile hcount)]
            exact ih hrest hfiles hparses

/-- What is left by the analysis of a project is told by its sources. -/
theorem leftBy_countProject (analyzer : Analyzer) {w : World} {paths : List String}
    (hkeys : analyzer.keys project w.files = .ok paths)
    (hnull : ∀ path ∈ paths, '\x00' ∉ (Path.join project path).toList) (own : Tally) :
    leftBy ((analyzer.countProject project).run ⟨w, own⟩) =
      analyzer.analyzeSources w project (own.session.addTotals 1 0 0)
        (analyzer.sources project w.files) := by
  rw [run_countProject_files, Action.run_world_bind, sources_of_keys hkeys]
  have hlisted : analyzer.keys project (begun project ⟨w, own⟩).world.files = .ok paths := hkeys
  rw [hlisted]
  exact analyzer.leftBy_countFiles hnull rfl rfl

/-- Sources are analyzed up to the first one whose tree markup cannot hold, if the numbers of their
trees can be read. -/
theorem analyzeSources_eq {w : World} {sources : List SourceFile}
    (hmeasurable : ∀ source ∈ sources, IsMeasurable (w.parse source.bytes)) {s : Session}
    (hkeys : s.keys = Kotlin.catalog.keys) :
    ({} : Analyzer).analyzeSources w project s sources =
      (Analysis.analyzeAll Kotlin.rules s
          ((sources.takeWhile (·.isLegal w)).map (·.task w project)),
        (sources.findSome? (·.illegalText? w)).map fun text => .markup (.illegalText text)) := by
  induction sources generalizing s with
  | nil => rfl
  | cons source rest ih =>
    obtain ⟨hmeasurableSource, hmeasurableRest⟩ := List.forall_mem_cons.1 hmeasurable
    rw [analyzeSources, source.parseSource_eq w, List.findSome?_cons]
    cases hillegal : source.illegalText? w with
    | some text =>
      have hlegal : source.isLegal w = false := by rw [SourceFile.isLegal, hillegal]; rfl
      rw [List.takeWhile_cons_of_neg (by simp [hlegal])]
      rfl
    | none =>
      have hlegal : source.isLegal w = true := by rw [SourceFile.isLegal, hillegal]; rfl
      have hnodup : s.keys.Nodup := hkeys ▸ Kotlin.nodup_keys_catalog
      have hfault := congrArg Prod.snd
        (Analysis.analyzeFile_eq Kotlin.rules (source.task w project) hnodup)
      rw [hkeys, SourceFile.fault?_task hmeasurableSource project] at hfault
      have hanalyzed : Analysis.analyzeFile ({} : Analyzer).rules project (source.file w) s =
          (_, none) := Prod.ext rfl hfault
      have hkept := keys_analyzeFile Kotlin.rules (.text project) (source.file w) s
      rw [List.takeWhile_cons_of_pos hlegal]
      dsimp only
      rw [hanalyzed]
      exact ih hmeasurableRest (hkept.trans hkeys)

/-- What is left tells how an analysis ends. -/
theorem exists_of_leftBy {result : EStateM.Result Failure (Situation Tally) Unit}
    {session : Session} {illegal? : Option String}
    (h : leftBy result = (session, illegal?.map fun text => .markup (.illegalText text))) :
    ∃ t : Situation Tally, result = endedBy illegal? t ∧ t.own.session = session := by
  obtain ⟨hsession, hfailure⟩ := Prod.mk.inj h
  cases result with
  | ok _ t =>
    obtain rfl : illegal? = none := Option.map_eq_none_iff.1 hfailure.symm
    exact ⟨t, rfl, hsession⟩
  | error failure t =>
    obtain ⟨text, rfl, rfl⟩ := Option.map_eq_some_iff.1 hfailure.symm
    exact ⟨t, rfl, hsession⟩

theorem not_mem_join_relativeTo (h : files.IsSound) (hnull : '\x00' ∉ project.toList)
    {path : String} (hpath : files.isFile path = true) :
    '\x00' ∉ (Path.join project (Path.relativeTo project path)).toList := by
  rw [FileTree.isFile] at hpath
  split at hpath
  · rename_i place hplace
    have hnames := h.isName_of_mem_resolve hplace
    exact not_mem_join (by decide) hnull (Path.components_relativeTo hnames _).2.2
  · cases hpath

/-- The analysis of a project analyzes the sources that it lists, up to the first one whose tree
markup cannot hold. -/
theorem run_countProject_sources {s : Situation Tally} {paths : List String}
    (hlisted : ({} : Analyzer).keys project s.world.files = .ok paths)
    (hnull : ∀ path ∈ paths, '\x00' ∉ (Path.join project path).toList)
    (hkeys : s.own.session.keys = Kotlin.catalog.keys) {sources : List SourceFile}
    (hsources : ({} : Analyzer).sources project s.world.files = sources)
    (hmeasurable : ∀ source ∈ sources, IsMeasurable (s.world.parse source.bytes)) :
    ∃ t : Situation Tally,
      (({} : Analyzer).countProject project).run s =
        endedBy (sources.findSome? (·.illegalText? s.world)) t ∧
      t.own.session = Analysis.analyzeAll Kotlin.rules (s.own.session.addTotals 1 0 0)
        ((sources.takeWhile (·.isLegal s.world)).map (·.task s.world project)) := by
  have hleft := leftBy_countProject {} hlisted hnull s.own
  have hbegun : (s.own.session.addTotals 1 0 0).keys = Kotlin.catalog.keys := hkeys
  rw [hsources, analyzeSources_eq hmeasurable hbegun] at hleft
  exact exists_of_leftBy hleft

/-! ## A project without one of its sources -/

end Analyzer

/-- The world without the file at a place. -/
def World.without (w : World) (place : Location) : World :=
  { w with files := w.files.remove place }

namespace Analyzer

variable {project : String} {place gone : Location}

/-- How the analyses of a project with and without the file at a place end, and what they count. -/
theorem exists_run_without {s : Situation Tally} (h : s.world.files.IsSound)
    (hproject : s.world.files.locate project = .ok place)
    (hgone : s.world.files.holdsDirectory gone = false)
    (hkeys : s.own.session.keys = Kotlin.catalog.keys) {sources : List SourceFile}
    (hsources : ({} : Analyzer).sources project s.world.files = sources)
    (hmeasurable : ∀ source ∈ sources, IsMeasurable (s.world.parse source.bytes)) :
    ∃ t u : Situation Tally,
      (({} : Analyzer).countProject project).run s =
        endedBy (sources.findSome? (·.illegalText? s.world)) t ∧
      (({} : Analyzer).countProject project).run { s with world := s.world.without gone } =
        endedBy ((sources.filter (·.place != gone)).findSome? (·.illegalText? s.world)) u ∧
      t.own.session = Analysis.analyzeAll Kotlin.rules (s.own.session.addTotals 1 0 0)
        ((sources.takeWhile (·.isLegal s.world)).map (·.task s.world project)) ∧
      u.own.session = Analysis.analyzeAll Kotlin.rules (s.own.session.addTotals 1 0 0)
        (((sources.filter (·.place != gone)).takeWhile (·.isLegal s.world)).map
          (·.task s.world project)) := by
  have hnull := (FileTree.checkPath_eq_ok_iff.1 (FileTree.locate_eq_ok_iff.1 hproject).1).1
  have hpattern : '\x00' ∉ (Path.join project ({} : Analyzer).pattern).toList :=
    not_mem_join (by decide) hnull (by decide)
  obtain ⟨found, hfound, hlisted, hremoved⟩ := ({} : Analyzer).keys_remove h hgone hpattern
  have hothers := ({} : Analyzer).sources_remove h hgone hpattern
  rw [hsources] at hothers
  have hpaths : ∀ file ∈ found,
      '\x00' ∉ (Path.join project (Path.relativeTo project file)).toList := fun file hfile =>
    not_mem_join_relativeTo h hnull (hfound file hfile)
  obtain ⟨t, hrun, hsession⟩ :=
    run_countProject_sources hlisted (List.forall_mem_map.2 hpaths) hkeys hsources hmeasurable
  obtain ⟨u, hrunWithout, hsessionWithout⟩ := run_countProject_sources
    (s := { s with world := s.world.without gone }) hremoved
    (List.forall_mem_map.2 fun file hfile => hpaths file (List.mem_filter.1 hfile).1) hkeys hothers
    fun source hsource => hmeasurable source (List.mem_filter.1 hsource).1
  exact ⟨t, u, hrun, hrunWithout, hsession, hsessionWithout⟩

/-- The analysis of a project, with and without the file at a place.  Where markup can hold the
trees of all sources both analyses end well, and the other sources are counted in the same way and
order.  Otherwise the analysis ends at the first source for which that is not so, and counts those
before it only.  What markup cannot hold is then a text of that source, if markup can hold the
types of its nodes. -/
theorem countProject_remove {s : Situation Tally} (h : s.world.files.IsSound)
    (hproject : s.world.files.locate project = .ok place)
    (hgone : s.world.files.holdsDirectory gone = false)
    (hkeys : s.own.session.keys = Kotlin.catalog.keys) {sources : List SourceFile}
    (hsources : ({} : Analyzer).sources project s.world.files = sources)
    (hmeasurable : ∀ source ∈ sources, IsMeasurable (s.world.parse source.bytes)) :
    ((∀ source ∈ sources, source.isLegal s.world = true) →
      ∃ t u : Situation Tally,
        (({} : Analyzer).countProject project).run s = .ok () t ∧
        (({} : Analyzer).countProject project).run { s with world := s.world.without gone } =
          .ok () u ∧
        t.own.session = Analysis.analyzeAll Kotlin.rules (s.own.session.addTotals 1 0 0)
          (sources.map (·.task s.world project)) ∧
        u.own.session = Analysis.analyzeAll Kotlin.rules (s.own.session.addTotals 1 0 0)
          ((sources.filter (·.place != gone)).map (·.task s.world project))) ∧
    (∀ before source after text, sources = before ++ source :: after →
      (∀ other ∈ before, other.isLegal s.world = true) →
      source.illegalText? s.world = some text →
      ∃ t : Situation Tally,
        (({} : Analyzer).countProject project).run s = .error (.markup (.illegalText text)) t ∧
        t.own.session = Analysis.analyzeAll Kotlin.rules (s.own.session.addTotals 1 0 0)
          (before.map (·.task s.world project))) ∧
    ∀ source ∈ sources,
      (∀ token ∈ (s.world.parse source.bytes).values, isMarkupText token.type = true) →
      ∀ text, source.illegalText? s.world = some text →
        ∃ e ∈ (source.tree s.world).values, ∃ name ∈ textNames, (name, text) ∈ e.attributes := by
  obtain ⟨t, u, hrun, hrunWithout, hsession, hsessionWithout⟩ :=
    exists_run_without h hproject hgone hkeys hsources hmeasurable
  refine ⟨fun hlegal => ?_, fun before source after text heq hbefore hillegal => ?_, ?_⟩
  · have hlegalOthers : ∀ source ∈ sources.filter (·.place != gone),
        source.isLegal s.world = true := fun source hsource =>
      hlegal source (List.mem_filter.1 hsource).1
    refine ⟨t, u, ?_, ?_, ?_, ?_⟩
    · rw [hrun, findSome?_of_legal hlegal]
      rfl
    · rw [hrunWithout, findSome?_of_legal hlegalOthers]
      rfl
    · rw [hsession, List.takeWhile_eq_self_iff.2 hlegal]
    · rw [hsessionWithout, List.takeWhile_eq_self_iff.2 hlegalOthers]
  · have hillegalLegal : source.isLegal s.world = false := by
      rw [SourceFile.isLegal, hillegal]
      rfl
    refine ⟨t, ?_, ?_⟩
    · rw [hrun, heq, List.findSome?_append, findSome?_of_legal hbefore, Option.none_or,
        List.findSome?_cons, hillegal]
      rfl
    · rw [hsession, heq, List.takeWhile_append_of_pos hbefore,
        List.takeWhile_cons_of_neg (by simp [hillegalLegal]), List.append_nil]
  · intro source _ htypes text htext
    obtain ⟨e, he, hfirst⟩ := List.exists_of_findSome?_eq_some htext
    obtain ⟨entry, hentry, rfl⟩ := Option.map_eq_some_iff.1 hfirst
    have hillegal : isMarkupText entry.2 = false := by
      simpa using List.find?_some hentry
    exact ⟨e, he, entry.1, mem_textNames_of_conversion htypes he
      (List.mem_of_find?_eq_some hentry) hillegal, List.mem_of_find?_eq_some hentry⟩

/-! ## A project with two sources of which one is malformed -/

/-- A project with a source of the given bytes, of which the parser makes the given tree, and with
an empty one. -/
def pairProject (source : Bytes) (tree : ParseTree) : World where
  files := { nodes := [(workingDirectory, .directory), (workingDirectory ++ ["p"], .directory),
    (workingDirectory ++ ["p", "A.kt"], .file (.bytes source)),
    (workingDirectory ++ ["p", "B.kt"], .file (.bytes [10]))] }
  parses := [(source, tree)]

/-- The sources of that project. -/
def pairSources (source : Bytes) : List SourceFile :=
  [⟨workingDirectory ++ ["p", "A.kt"], "A.kt", source⟩,
    ⟨workingDirectory ++ ["p", "B.kt"], "B.kt", [10]⟩]

section PairProject

variable (source : Bytes) (tree : ParseTree)

theorem isSound_pairProject : (pairProject source tree).files.IsSound where
  distinct := by simp [pairProject, workingDirectory]
  named := by
    have hnames : ∀ name ∈ ["work", "p", "A.kt", "B.kt"],
        IsName name ∧ Text.Strays.byteSize [] name ≤ FileTree.nameLimit := by decide +kernel
    intro entry hentry name hname
    refine hnames name ?_
    simp only [pairProject, workingDirectory, List.mem_cons, List.not_mem_nil, or_false] at hentry
    rcases hentry with rfl | rfl | rfl | rfl <;> simp at hname ⊢ <;> tauto
  housed := by
    intro entry hentry
    simp only [pairProject, workingDirectory, List.mem_cons, List.not_mem_nil, or_false] at hentry
    rcases hentry with rfl | rfl | rfl | rfl <;> rfl

theorem locate_pairProject :
    (pairProject source tree).files.locate "p" = .ok (workingDirectory ++ ["p"]) := by
  refine FileTree.locate_eq_ok_iff.2 ⟨rfl, ?_⟩
  rw [Path.components_of_noSlash (by decide), show Path.origin "p" = workingDirectory by decide]
  exact (isSound_pairProject source tree).follow_eq_ok rfl rfl

end PairProject

theorem isMeasurable_of_small {w : World} {sources : List SourceFile}
    (h : ∀ source ∈ sources, (∀ token ∈ (w.parse source.bytes).values, token.start < 10) ∧
      (w.parse source.bytes).values.length < 10) :
    ∀ source ∈ sources, IsMeasurable (w.parse source.bytes) := by
  have hlimit : 10 ≤ 10 ^ digitLimit := Nat.le_self_pow (by decide) 10
  exact fun source hsource =>
    ⟨fun token htoken => Nat.lt_of_lt_of_le ((h source hsource).1 token htoken) hlimit,
      Nat.lt_of_lt_of_le (h source hsource).2 hlimit⟩

theorem files_analyzeAll (tasks : List Analysis.Task) :
    (Analysis.analyzeAll Kotlin.rules ((Session.ofSpecs Kotlin.catalog false).addTotals 1 0 0)
      tasks).files = tasks.length := by
  have hnodup : ((Session.ofSpecs Kotlin.catalog false).addTotals 1 0 0).keys.Nodup :=
    nodup_keys_ofSpecs false
  rw [Analysis.analyzeAll_eq Kotlin.rules hnodup]
  exact Int.zero_add _

/-- A source that is not even text, which the parser reads as an error. -/
def garbledTree : ParseTree :=
  .node ⟨"source_file", 0, 2, true, false, none, [255, 1]⟩
    [.node ⟨"ERROR", 0, 2, true, false, none, [255, 1]⟩
      [.node ⟨"simple_identifier", 0, 2, true, false, none, [255, 1]⟩ []]]

theorem sources_garbledProject :
    ({} : Analyzer).sources "p" (pairProject [255, 1] garbledTree).files =
      pairSources [255, 1] := by decide +kernel

/-- A source that is not even text is counted, and without it the other one is counted as before. -/
theorem countProject_remove_garbled :
    ∃ t u : Situation Tally,
      (({} : Analyzer).countProject "p").run
        ⟨pairProject [255, 1] garbledTree, ⟨.ofSpecs Kotlin.catalog false, 0⟩⟩ = .ok () t ∧
      (({} : Analyzer).countProject "p").run
        ⟨(pairProject [255, 1] garbledTree).without (workingDirectory ++ ["p", "A.kt"]),
          ⟨.ofSpecs Kotlin.catalog false, 0⟩⟩ = .ok () u ∧
      t.own.session.files = 2 ∧ u.own.session.files = 1 := by
  have hmeasurable : ∀ source ∈ pairSources [255, 1],
      IsMeasurable ((pairProject [255, 1] garbledTree).parse source.bytes) :=
    isMeasurable_of_small (by decide +kernel)
  have hlegal : ∀ source ∈ pairSources [255, 1],
      source.isLegal (pairProject [255, 1] garbledTree) = true := by decide +kernel
  have hfile : (pairProject [255, 1] garbledTree).files.holdsDirectory
      (workingDirectory ++ ["p", "A.kt"]) = false := rfl
  obtain ⟨hends, -, -⟩ := countProject_remove
    (s := ⟨pairProject [255, 1] garbledTree, ⟨.ofSpecs Kotlin.catalog false, 0⟩⟩)
    (isSound_pairProject _ _) (locate_pairProject _ _) hfile (by decide)
    sources_garbledProject hmeasurable
  obtain ⟨t, u, hrun, hrunWithout, hsession, hsessionWithout⟩ := hends hlegal
  exact ⟨t, u, hrun, hrunWithout, (congrArg Session.files hsession).trans (files_analyzeAll _),
    (congrArg Session.files hsessionWithout).trans (files_analyzeAll _)⟩

/-- A return to a label whose quoted name is a control character. -/
def labelledSource : Bytes := [114, 101, 116, 117, 114, 110, 64, 96, 1, 96]

/-- What the parser makes of it. -/
def labelledTree : ParseTree :=
  .node ⟨"source_file", 0, 10, true, false, none, labelledSource⟩
    [.node ⟨"return_expression", 0, 10, true, false, none, labelledSource⟩
      [.node ⟨"return@", 0, 7, false, false, none, labelledSource.take 7⟩ [],
        .node ⟨"simple_identifier", 7, 10, true, false, none, [96, 1, 96]⟩ []]]

/-- The project with that source. -/
def labelledProject : World := pairProject labelledSource labelledTree

theorem sources_labelledProject :
    ({} : Analyzer).sources "p" labelledProject.files = pairSources labelledSource := by
  decide +kernel

/-- A single label ends the analysis of a project before anything is counted, though without its
source the other one would be counted. -/
theorem countProject_labelledProject :
    labelledProject.files.IsSound ∧
      labelledProject.files.locate "p" = .ok (workingDirectory ++ ["p"]) ∧
      labelledProject.files.isDirectoryAt (workingDirectory ++ ["p"]) = true ∧
      (∀ token ∈ labelledTree.values, isMarkupText token.type = true) ∧
      (∃ t, (({} : Analyzer).countProject "p").run
          ⟨labelledProject, ⟨.ofSpecs Kotlin.catalog false, 0⟩⟩ =
            .error (.markup (.illegalText "`\x01`")) t ∧ t.own.session.files = 0) ∧
      ∃ u, (({} : Analyzer).countProject "p").run
          ⟨labelledProject.without (workingDirectory ++ ["p", "A.kt"]),
            ⟨.ofSpecs Kotlin.catalog false, 0⟩⟩ = .ok () u ∧ u.own.session.files = 1 := by
  have hfile : labelledProject.files.holdsDirectory (workingDirectory ++ ["p", "A.kt"]) = false :=
    rfl
  obtain ⟨t, u, hrun, hrunWithout, hsession, hsessionWithout⟩ := exists_run_without
    (s := ⟨labelledProject, ⟨.ofSpecs Kotlin.catalog false, 0⟩⟩)
    (isSound_pairProject _ _) (locate_pairProject _ _) hfile (by decide) sources_labelledProject
    (isMeasurable_of_small (by decide +kernel))
  have hillegal : (pairSources labelledSource).findSome? (·.illegalText? labelledProject) =
      some "`\x01`" := by decide +kernel
  have hnothing : (pairSources labelledSource).takeWhile (·.isLegal labelledProject) = [] := by
    decide +kernel
  have hothers : (pairSources labelledSource).filter
      (·.place != workingDirectory ++ ["p", "A.kt"]) =
        [⟨workingDirectory ++ ["p", "B.kt"], "B.kt", [10]⟩] := rfl
  have hlegal : ∀ source ∈ [(⟨workingDirectory ++ ["p", "B.kt"], "B.kt", [10]⟩ : SourceFile)],
      source.isLegal labelledProject = true := by decide +kernel
  rw [hothers] at hrunWithout hsessionWithout
  refine ⟨isSound_pairProject _ _, locate_pairProject _ _, rfl, by decide,
    ⟨t, hrun.trans (congrArg (endedBy · t) hillegal), ?_⟩,
    ⟨u, hrunWithout.trans (congrArg (endedBy · u) (findSome?_of_legal hlegal)), ?_⟩⟩
  · refine (congrArg Session.files hsession).trans ((files_analyzeAll _).trans ?_)
    exact congrArg (fun counted : List SourceFile => ((counted.map _).length : Int)) hnothing
  · refine (congrArg Session.files hsessionWithout).trans ((files_analyzeAll _).trans ?_)
    exact congrArg (fun counted : List SourceFile => ((counted.map _).length : Int))
      (List.takeWhile_eq_self_iff.2 hlegal)

end Analyzer
end FeatureCensus
