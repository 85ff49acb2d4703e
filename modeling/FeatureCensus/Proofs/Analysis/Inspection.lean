import FeatureCensus.Proofs.Analysis.Calls
import FeatureCensus.Proofs.Analysis.Sources
import FeatureCensus.Proofs.Syntax.Conversion
import Mathlib.Data.List.Sort

/-!
# The analysis of a project

The analyzer of Kotlin sources analyzes each source of a project once, in the order in which the
search finds them, and under their paths within the project.  A source that may not be read, or that
the path of the project does not lead to, because both paths together are too long, is passed over.

Main results:

- Theorem {lit}`Analyzer.run_countFiles_found`: what can be read is analyzed, in order.
- Theorem {lit}`Analyzer.countProject_sources`: what the analysis of a project analyzes.
- Theorem {lit}`Analyzer.countProject_farProject`: a source that it does not reach.
-/

namespace FeatureCensus

open FeatureCensus.Path (IsName ofNames)

namespace Analysis

/-! ## Places of entries -/

theorem path_of_entryOf {keys : List String} {project : PlaceName} {file : ParsedFile}
    {finding : Syntax.Element × Finding} {entry : Entry}
    (h : entryOf keys project file finding = .ok entry) :
    entry.place.path = .ofText? file.path := by
  obtain ⟨e, finding⟩ := finding
  cases finding with
  | malformed error => cases h
  | count key =>
    simp only [entryOf] at h
    split at h
    · cases h
    · split at h
      · obtain rfl := Except.ok.inj h
        rfl
      · cases h

/-- The entries of a file are made at places in it. -/
theorem path_of_mem_entriesOf {keys : List String} {project : PlaceName} {file : ParsedFile}
    {findings : List (Syntax.Element × Finding)} {entry : Entry}
    (h : entry ∈ entriesOf keys project file findings) :
    entry.place.path = .ofText? file.path := by
  induction findings with
  | nil => cases h
  | cons finding rest ih =>
    rw [entriesOf] at h
    cases hfirst : entryOf keys project file finding with
    | error fault =>
      rw [hfirst] at h
      cases h
    | ok first =>
      rw [hfirst] at h
      rcases List.mem_cons.1 h with rfl | hlater
      · exact path_of_entryOf hfirst
      · exact ih hlater

/-- The places that analyses add to a counter are places in their files. -/
theorem exists_task_of_mem_places {rules : List Rule} {keys : List String} {tasks : List Task}
    {key : String} {place : Usage}
    (h : place ∈ Entry.placesFor key (entriesOfAll rules keys tasks)) :
    ∃ task ∈ tasks, place.project = task.project ∧ place.path = .ofText? task.file.path := by
  obtain ⟨entry, hentry, rfl⟩ := List.mem_map.1 h
  obtain ⟨task, htask, hmade⟩ := List.mem_flatMap.1 (List.mem_filter.1 hentry).1
  exact ⟨task, htask, project_of_mem_entriesOf hmade, path_of_mem_entriesOf hmade⟩

end Analysis

namespace Analyzer

variable {project : String} {place : Location} {names : List String}

/-! ## Reading -/

theorem run_prepareFile_of_read {σ : Type} {s : Situation σ} {path : String} {content : Content}
    {file : ParsedFile} (hread : s.world.files.read (Path.join project path) = .ok content)
    (hparse : parseSource content.toBytes (some path) s.world = .ok file) :
    (prepareFile project path : Action σ _).run s = .ok (some file) s := by
  refine Action.run_bind_eq_ok.2 ⟨s.world, s, rfl, ?_⟩
  rw [hread]
  simp only [hparse]
  rfl

/-- A file that is not read is noted and passed over. -/
theorem run_prepareFile_of_refused {σ : Type} {s : Situation σ} {path other : String}
    {fault : FileFault}
    (hread : s.world.files.read (Path.join project path) = .error (.refused fault other)) :
    ∃ event, (prepareFile project path : Action σ _).run s =
      .ok none { s with world := s.world.record event } := by
  have hrun : (prepareFile project path : Action σ _).run s =
      (logUnreadable project path (.refused fault other) >>= fun _ => pure none).run s := by
    rw [prepareFile]
    simp only [bind, EStateM.bind, EStateM.run, Action.world_apply, hread]
  exact ⟨_, hrun.trans rfl⟩

/-! ## Analyses -/

/-- Whether what names lead to from the directory of a project can be reached and read. -/
def isReadable (files : FileTree Content) (project : String) (place : Location)
    (names : List String) : Bool :=
  isReachable files project names && (files.content? (place ++ names)).isSome

/-- Whether a task is to analyze, for a project, the file that names lead to, under the path
through them. -/
structure IsTaskOf (w : World) (project : String) (place : Location) (names : List String)
    (task : Analysis.Task) : Prop where
  project : task.project = .text project
  parsed : ∃ content, w.files.content? (place ++ names) = some content ∧
    parseSource content.toBytes (some (ofNames names)) w = .ok task.file

/-- What a project path and names find is read if it is readable. -/
theorem read_of_isReadable {files : FileTree Content} (h : files.IsSound)
    (hproject : files.locate project = .ok place) (hfile : IsKotlinFile files place names)
    (hreadable : isReadable files project place names = true) {content : Content}
    (hcontent : files.content? (place ++ names) = some content) :
    files.read (Path.join project (ofNames names)) = .ok content := by
  rw [read_join h hproject hfile.isDirectoryAt hfile.stands,
    if_pos (Bool.and_eq_true_iff.1 hreadable).1, hcontent]

/-- What a project path and names find is refused if it is not readable. -/
theorem exists_refused_of_not_isReadable {files : FileTree Content} (h : files.IsSound)
    (hproject : files.locate project = .ok place) (hfile : IsKotlinFile files place names)
    (hreadable : ¬ isReadable files project place names = true) :
    ∃ fault, files.read (Path.join project (ofNames names)) =
      .error (.refused fault (Path.join project (ofNames names))) := by
  rw [read_join h hproject hfile.isDirectoryAt hfile.stands]
  by_cases hreachable : isReachable files project names = true
  · cases hcontent : files.content? (place ++ names) with
    | some content => simp [isReadable, hreachable, hcontent] at hreadable
    | none => exact ⟨.accessDenied, by rw [if_pos hreachable]⟩
  · exact ⟨.nameTooLong, by rw [if_neg hreachable]⟩

theorem keys_analyzeFile (rules : List Rule) (project : PlaceName) (file : ParsedFile)
    (s : Session) : (Analysis.analyzeFile rules project file s).1.keys = s.keys :=
  Analysis.keys_recordAll _ _ _ _

theorem parseSource_congr {v w : World} (h : v.parses = w.parses) (source : Text.Bytes)
    (path : Option String) : parseSource source path v = parseSource source path w := by
  rw [parseSource, parseSource, World.parse, World.parse, h]

/-- Of the files that names lead to those that can be reached and read are analyzed, one after the
other. -/
theorem run_countFiles_found (analyzer : Analyzer) {w : World} (h : w.files.IsSound)
    (hproject : w.files.locate project = .ok place) {keys : List String} (hnodup : keys.Nodup)
    {found : List (List String)} (hfound : ∀ names ∈ found, IsKotlinFile w.files place names)
    (htasks : ∀ names ∈ found, isReadable w.files project place names = true →
      ∃ task, IsTaskOf w project place names task ∧ task.fault? analyzer.rules keys = none)
    {s : Situation Tally} (hfiles : s.world.files = w.files) (hparses : s.world.parses = w.parses)
    (hkeys : s.own.session.keys = keys) :
    ∃ (tasks : List Analysis.Task) (t : Situation Tally),
      (analyzer.countFiles project (found.map ofNames)).run s = .ok () t ∧
      List.Forall₂ (IsTaskOf w project place) (found.filter (isReadable w.files project place))
        tasks ∧
      t.own.session = Analysis.analyzeAll analyzer.rules s.own.session tasks := by
  induction found generalizing s with
  | nil => exact ⟨[], s, rfl, .nil, rfl⟩
  | cons names rest ih =>
    have hfoundRest := fun other hother => hfound other (List.mem_cons_of_mem names hother)
    have htasksRest := fun other hother => htasks other (List.mem_cons_of_mem names hother)
    have hfirst := hfound names List.mem_cons_self
    rw [List.map_cons, countFiles]
    by_cases hreadable : isReadable w.files project place names = true
    · obtain ⟨⟨taskProject, file⟩, htask, hsucceeds⟩ :=
        htasks names List.mem_cons_self hreadable
      obtain rfl : taskProject = .text project := htask.project
      obtain ⟨content, hcontent, hparsed⟩ := htask.parsed
      have hread := read_of_isReadable h hproject hfirst hreadable hcontent
      rw [← hfiles] at hread
      have hprepared := run_prepareFile_of_read hread
        ((parseSource_congr hparses _ _).trans hparsed)
      have hnofault : (Analysis.analyzeFile analyzer.rules project file s.own.session).2 =
          none := by
        rw [Analysis.analyzeFile_eq analyzer.rules ⟨project, file⟩ (hkeys ▸ hnodup), hkeys]
        exact hsucceeds
      have hanalyzed : Analysis.analyzeFile analyzer.rules project file s.own.session =
          (_, none) := Prod.ext rfl hnofault
      have hcounted := run_countFile hanalyzed
      have hkept := keys_analyzeFile analyzer.rules (.text project) file s.own.session
      obtain ⟨tasks, t, hrun, hall, hsession⟩ := ih hfoundRest htasksRest
        (s := { s with own := { s.own with session :=
          (Analysis.analyzeFile analyzer.rules (.text project) file s.own.session).1 } })
        hfiles hparses (hkept.trans hkeys)
      refine ⟨⟨.text project, file⟩ :: tasks, t, ?_, ?_, hsession⟩
      · exact Action.run_bind_eq_ok.2 ⟨_, s, hprepared,
          Action.run_bind_eq_ok.2 ⟨(), _, hcounted, hrun⟩⟩
      · rw [List.filter_cons_of_pos hreadable]
        exact .cons htask hall
    · obtain ⟨fault, hrefused⟩ := exists_refused_of_not_isReadable h hproject hfirst hreadable
      rw [← hfiles] at hrefused
      obtain ⟨event, hprepared⟩ := run_prepareFile_of_refused hrefused
      obtain ⟨tasks, t, hrun, hall, hsession⟩ := ih hfoundRest htasksRest
        (s := { s with world := s.world.record event }) hfiles hparses hkeys
      refine ⟨tasks, t, Action.run_bind_eq_ok.2 ⟨none, _, hprepared, hrun⟩, ?_, hsession⟩
      rwa [List.filter_cons_of_neg hreadable]

/-- The sources of a project are those files that are listed with a path that can be followed. -/
theorem isSource_trimmed_iff {files : FileTree Content} (h : files.IsSound)
    (hproject : files.locate project = .ok place) :
    IsSource files (Path.trimmed project) place names ∧ isReachable files project names = true ↔
      IsSource files project place names := by
  have hempty := (FileTree.checkPath_eq_ok_iff.1 (FileTree.locate_eq_ok_iff.1 hproject).1).2.1
  rw [isReachable, decide_eq_true_iff]
  constructor
  · rintro ⟨hsource, hreachable⟩
    exact { hsource with reachable := hreachable }
  · intro hsource
    have hstands := (FileTree.isFileAt_iff.1 hsource.stands).1
    exact ⟨{ hsource with reachable := Nat.le_trans (Path.size_join_trimmed_le files.strays hempty
      (h.isName_below hstands)) hsource.reachable }, hsource.reachable⟩

/-- The analysis of a project analyzes those of its sources that may be read, one after the other
and in the order in which they are found, where no analysis fails. -/
theorem run_countProject {s : Situation Tally} (h : s.world.files.IsSound)
    (hproject : s.world.files.locate project = .ok place)
    (hplace : s.world.files.holdsDirectory place = true)
    (hplain : NamePattern.hasWildcard project = false) (hnodup : s.own.session.keys.Nodup)
    (hsucceeds : ∀ names content, IsSource s.world.files project place names →
      s.world.files.content? (place ++ names) = some content →
      ∃ file, parseSource content.toBytes (some (ofNames names)) s.world = .ok file ∧
        (Analysis.analyzeFile Kotlin.rules (.text project) file s.own.session).2 = none) :
    ∃ (sources : List (List String)) (tasks : List Analysis.Task) (t : Situation Tally),
      (({} : Analyzer).countProject project).run s = .ok () t ∧
      (∀ names, names ∈ sources ↔ IsSource s.world.files project place names ∧
        (s.world.files.content? (place ++ names)).isSome = true) ∧
      sources.Nodup ∧
      (∃ paths, Glob.search s.world.files (Path.join project ("**/" ++ "*.kt")) = .ok paths ∧
        (sources.map ofNames).Sublist (paths.map (Path.relativeTo project))) ∧
      List.Forall₂ (IsTaskOf s.world project place) sources tasks ∧
      t.own.session =
        Analysis.analyzeAll Kotlin.rules (s.own.session.addTotals 1 0 0) tasks := by
  have hstart := FileTree.locate_trimmed hproject
  let found := sourceNames s.world.files (Path.trimmed project) place
  have hfound : ∀ names, names ∈ found ↔
      IsSource s.world.files (Path.trimmed project) place names :=
    fun names => mem_sourceNames_iff h hstart hplace
  have hmem : ∀ names, names ∈ found.filter (isReadable s.world.files project place) ↔
      IsSource s.world.files project place names ∧
        (s.world.files.content? (place ++ names)).isSome = true := by
    intro names
    rw [List.mem_filter, hfound, isReadable, Bool.and_eq_true, ← and_assoc,
      isSource_trimmed_iff h hproject]
  have htasks : ∀ names ∈ found, isReadable s.world.files project place names = true →
      ∃ task, IsTaskOf s.world project place names task ∧
        task.fault? Kotlin.rules s.own.session.keys = none := by
    intro names hnames hreadable
    obtain ⟨hsource, hreadable⟩ := (hmem names).1 (List.mem_filter.2 ⟨hnames, hreadable⟩)
    obtain ⟨content, hcontent⟩ := Option.isSome_iff_exists.1 hreadable
    obtain ⟨file, hparsed, hnofault⟩ := hsucceeds names content hsource hcontent
    rw [Analysis.analyzeFile_eq Kotlin.rules ⟨.text project, file⟩ hnodup] at hnofault
    exact ⟨⟨.text project, file⟩, ⟨rfl, content, hcontent, hparsed⟩, hnofault⟩
  let begun : Situation Tally :=
    { world := s.world.record (.log .info ("Analyzing repository " ++ project))
      own := { s.own with session := s.own.session.addTotals 1 0 0 } }
  obtain ⟨tasks, t, hrun, hall, hsession⟩ := run_countFiles_found (s := begun) {} h hproject
    hnodup (fun names hnames => ((hfound names).1 hnames).toIsKotlinFile) htasks rfl rfl rfl
  obtain ⟨paths, hsearch, hsublist⟩ := sublist_sourceNames h hproject hplace hplain
  refine ⟨found.filter (isReadable s.world.files project place), tasks, t, ?_, hmem,
    (nodup_sourceNames h hstart hplace).filter _,
    ⟨paths, hsearch, (List.filter_sublist.map ofNames).trans hsublist⟩, hall, hsession⟩
  have hlisted : ({} : Analyzer).keys project begun.world.files = .ok (found.map ofNames) :=
    keys_eq h hproject hplace hplain
  refine Action.run_bind_eq_ok.2 ⟨(), _, rfl, Action.run_bind_eq_ok.2 ⟨(), begun, rfl,
    Action.run_bind_eq_ok.2 ⟨begun.world, begun, rfl,
      Action.run_bind_eq_ok.2 ⟨found.map ofNames, begun, ?_, hrun⟩⟩⟩⟩
  rw [hlisted]
  rfl

/-- A parsed source is named by the path that it is parsed under. -/
theorem path_of_parseSource {source : Text.Bytes} {path : Option String} {w : World}
    {file : ParsedFile} (h : parseSource source path w = .ok file) : file.path = path := by
  unfold parseSource at h
  cases hnormal : Syntax.normalize (w.parse source) with
  | error error => rw [hnormal] at h; cases h
  | ok tree =>
    rw [hnormal] at h
    rw [← Except.ok.inj h]

/-- The file of a task is named by the path through the names. -/
theorem IsTaskOf.path {w : World} {task : Analysis.Task}
    (h : IsTaskOf w project place names task) : task.file.path = some (ofNames names) := by
  obtain ⟨content, -, hparsed⟩ := h.parsed
  exact path_of_parseSource hparsed

theorem exists_of_mem_tasks {related : List String → Analysis.Task → Prop}
    {sources : List (List String)} {tasks : List Analysis.Task}
    (h : List.Forall₂ related sources tasks) {task : Analysis.Task} (htask : task ∈ tasks) :
    ∃ names ∈ sources, related names task := by
  induction h with
  | nil => cases htask
  | @cons names first _ _ hfirst _ ih =>
    rcases List.mem_cons.1 htask with rfl | hlater
    · exact ⟨names, List.mem_cons_self, hfirst⟩
    · obtain ⟨other, hother, hrelated⟩ := ih hlater
      exact ⟨other, List.mem_cons_of_mem names hother, hrelated⟩

/-- Where no analysis fails, the analysis of a project analyzes those of its sources that may be
read: each of them once, in the order in which they are found.  The project and these sources with
their lines are added to the totals, and each counter takes places in the sources under their paths
within the project. -/
theorem countProject_sources {s : Situation Tally} (h : s.world.files.IsSound)
    (hproject : s.world.files.locate project = .ok place)
    (hplace : s.world.files.holdsDirectory place = true)
    (hplain : NamePattern.hasWildcard project = false) (hnodup : s.own.session.keys.Nodup)
    (hsucceeds : ∀ names content, IsSource s.world.files project place names →
      s.world.files.content? (place ++ names) = some content →
      ∃ file, parseSource content.toBytes (some (ofNames names)) s.world = .ok file ∧
        (Analysis.analyzeFile Kotlin.rules (.text project) file s.own.session).2 = none) :
    ∃ (sources : List (List String)) (tasks : List Analysis.Task) (t : Situation Tally),
      (({} : Analyzer).countProject project).run s = .ok () t ∧
      (∀ names, names ∈ sources ↔ IsSource s.world.files project place names ∧
        (s.world.files.content? (place ++ names)).isSome = true) ∧
      sources.Nodup ∧
      (∃ paths, Glob.search s.world.files (Path.join project ("**/" ++ "*.kt")) = .ok paths ∧
        (sources.map ofNames).Sublist (paths.map (Path.relativeTo project))) ∧
      List.Forall₂ (IsTaskOf s.world project place) sources tasks ∧
      t.own.session =
        Analysis.analyzeAll Kotlin.rules (s.own.session.addTotals 1 0 0) tasks ∧
      t.own.session.repositories = s.own.session.repositories + 1 ∧
      t.own.session.files = s.own.session.files + sources.length ∧
      t.own.session.lines = s.own.session.lines + Analysis.linesOf tasks ∧
      ∀ key before, s.own.session.counter? key = some before →
        ∃ after places, t.own.session.counter? key = some after ∧
          before.Takes after (.text project) places ∧
          ∀ usage ∈ places, ∃ names ∈ sources, usage.path = .text (ofNames names) := by
  obtain ⟨sources, tasks, t, hrun, hmem, hdistinct, hfound, hall, hsession⟩ :=
    run_countProject h hproject hplace hplain hnodup hsucceeds
  have hbegun : (s.own.session.addTotals 1 0 0).keys.Nodup := hnodup
  have hended := Analysis.analyzeAll_eq Kotlin.rules hbegun tasks
  refine ⟨sources, tasks, t, hrun, hmem, hdistinct, hfound, hall, hsession, ?_, ?_, ?_,
    fun key before hbefore => ?_⟩
  · rw [hsession, hended]
    exact Int.add_zero _
  · rw [hsession, hended, hall.length_eq]
    simp [Session.enter, Session.addTotals]
  · rw [hsession, hended]
    simp [Session.enter, Session.addTotals]
  · have hplaces : ∀ usage ∈ Entry.placesFor key
        (Analysis.entriesOfAll Kotlin.rules s.own.session.keys tasks),
        usage.project = .text project ∧
          ∃ names ∈ sources, usage.path = .text (ofNames names) := by
      intro usage husage
      obtain ⟨task, htask, husageProject, husagePath⟩ := Analysis.exists_task_of_mem_places husage
      obtain ⟨names, hnames, hof⟩ := exists_of_mem_tasks hall htask
      exact ⟨husageProject.trans hof.project, names, hnames, by rw [husagePath, hof.path]; rfl⟩
    refine ⟨_, _, ?_, before.takes_incrementAll fun usage husage => (hplaces usage husage).1,
      fun usage husage => (hplaces usage husage).2⟩
    rw [hsession, hended, Session.counter?_enter, Session.counter?_addTotals,
      Session.counter?_addTotals, hbefore]
    rfl

/-! ## A project with two sources -/

theorem nodup_keys_ofSpecs (statsOnly : Bool) :
    (Session.ofSpecs Kotlin.catalog statsOnly).keys.Nodup := by
  rw [Session.keys_ofCatalog (Session.ofCatalog_eq_ok Kotlin.nodup_keys_catalog statsOnly)]
  exact Kotlin.nodup_keys_catalog

/-- The analysis of a line of which the parser makes a bare tree does not fail. -/
theorem analyzeFile_bareTree (project path : String) (s : Session) {w : World}
    (h : w.parses = []) :
    ∃ file, parseSource [10] (some path) w = .ok file ∧
      (Analysis.analyzeFile Kotlin.rules (.text project) file s).2 = none := by
  have hnormal : Syntax.normalize (Syntax.bareTree [10]) =
      .ok (Syntax.conversion [] (Syntax.bareTree [10])) := by
    have hlegal : Syntax.illegalText? (Syntax.conversion [] (Syntax.bareTree [10])).values = none :=
      by decide +kernel
    rw [Syntax.normalize_eq, hlegal]
  have hnothing : Analysis.findings (Rule.dispatchTable Kotlin.rules)
      (Syntax.conversion [] (Syntax.bareTree [10])) = [] := by decide +kernel
  refine ⟨⟨Syntax.conversion [] (Syntax.bareTree [10]), some path, LineIndex.ofBytes [10]⟩, ?_, ?_⟩
  · have hparse : w.parse [10] = Syntax.bareTree [10] := by
      rw [World.parse, h]
      rfl
    rw [parseSource, hparse, hnormal]
    rfl
  · rw [Analysis.analyzeFile]
    simp only [hnothing]
    rfl

/-- A project with two sources that are analyzed, of which one is in a directory that is called like
a source, and with a source that may not be read and three files that are no sources. -/
def sampleProject : World where
  files := { nodes := [(workingDirectory, .directory), (workingDirectory ++ ["p"], .directory),
    (workingDirectory ++ ["p", "x.kt"], .directory),
    (workingDirectory ++ ["p", "x.kt", "B.kt"], .file (.bytes [10])),
    (workingDirectory ++ ["p", "A.kt"], .file (.bytes [10])),
    (workingDirectory ++ ["p", ".git"], .directory),
    (workingDirectory ++ ["p", ".git", "C.kt"], .file (.bytes [10])),
    (workingDirectory ++ ["p", "testData"], .directory),
    (workingDirectory ++ ["p", "testData", "D.kt"], .file (.bytes [10])),
    (workingDirectory ++ ["p", "shut"], .unlisted),
    (workingDirectory ++ ["p", "shut", "E.kt"], .file (.bytes [10])),
    (workingDirectory ++ ["p", "F.kt"], .unreadable)] }

theorem isSound_sampleProject : sampleProject.files.IsSound where
  distinct := by decide
  named := by decide +kernel
  housed := by decide

theorem content?_sampleProject {names : List String} {content : Content}
    (h : sampleProject.files.content? (workingDirectory ++ ["p"] ++ names) = some content) :
    names ∈ [["x.kt", "B.kt"], ["A.kt"], [".git", "C.kt"], ["testData", "D.kt"],
      ["shut", "E.kt"]] ∧ content = .bytes [10] := by
  have hmem := (isSound_sampleProject.mem_nodes_iff (by simp [workingDirectory])).2
    (FileTree.content?_eq_some.1 h)
  simpa [sampleProject, workingDirectory, or_and_right] using hmem

theorem isSource_sampleProject_iff {names : List String} :
    IsSource sampleProject.files "./p//" (workingDirectory ++ ["p"]) names ∧
        (sampleProject.files.content? (workingDirectory ++ ["p"] ++ names)).isSome = true ↔
      names ∈ [["A.kt"], ["x.kt", "B.kt"]] := by
  constructor
  · rintro ⟨hsource, hreadable⟩
    obtain ⟨content, hcontent⟩ := Option.isSome_iff_exists.1 hreadable
    obtain ⟨hnames, -⟩ := content?_sampleProject hcontent
    have hvisible := hsource.visible
    have hlisted := hsource.listed
    have hkept := hsource.kept
    simp only [List.mem_cons, List.not_mem_nil, or_false] at hnames
    rcases hnames with rfl | rfl | rfl | rfl | rfl
    · decide
    · decide
    · cases hvisible ".git" List.mem_cons_self
    · cases hkept
    · cases hlisted 1 (by decide)
  · intro h
    simp only [List.mem_cons, List.not_mem_nil, or_false] at h
    rcases h with rfl | rfl
    · exact ⟨⟨⟨by decide, by decide, by decide, ⟨"A.kt", rfl, by decide⟩, by decide⟩,
        by decide +kernel⟩, by decide⟩
    · exact ⟨⟨⟨by decide, by decide, by decide, ⟨"B.kt", rfl, by decide⟩, by decide⟩,
        by decide +kernel⟩, by decide⟩

/-- The two sources are analyzed, from a path of the project with a dot and a slash too many. -/
theorem countProject_sources_sampleProject :
    ∃ (sources : List (List String)) (tasks : List Analysis.Task) (t : Situation Tally),
      (({} : Analyzer).countProject "./p//").run
        ⟨sampleProject, ⟨.ofSpecs Kotlin.catalog false, 0⟩⟩ = .ok () t ∧
      sources.Perm [["A.kt"], ["x.kt", "B.kt"]] ∧
      List.Forall₂ (IsTaskOf sampleProject "./p//" (workingDirectory ++ ["p"])) sources tasks ∧
      t.own.session.repositories = 1 ∧ t.own.session.files = 2 := by
  have hproject : sampleProject.files.locate "./p//" = .ok (workingDirectory ++ ["p"]) := by
    decide +kernel
  obtain ⟨sources, tasks, t, hrun, hmem, hdistinct, -, hall, -, hrepositories, hfiles, -⟩ :=
    countProject_sources (s := ⟨sampleProject, ⟨.ofSpecs Kotlin.catalog false, 0⟩⟩)
      isSound_sampleProject hproject (by decide) (by decide) (nodup_keys_ofSpecs false)
      fun names content _ hcontent => by
        obtain ⟨-, rfl⟩ := content?_sampleProject hcontent
        exact analyzeFile_bareTree _ _ _ rfl
  have hsources : sources.Perm [["A.kt"], ["x.kt", "B.kt"]] :=
    (List.perm_ext_iff_of_nodup hdistinct (by decide)).2 fun names =>
      (hmem names).trans isSource_sampleProject_iff
  rw [hsources.length_eq] at hfiles
  exact ⟨sources, tasks, t, hrun, hsources, hall, hrepositories, hfiles⟩

/-! ## A project too far away -/

/-- A path that stays in the working directory for a number of steps before it takes a name. -/
def roundabout (k : Nat) (name : String) : String :=
  ofNames (List.replicate k "." ++ [name])

section Roundabout

variable {k : Nat} {name : String}

theorem roundabout_succ (k : Nat) (name : String) :
    roundabout (k + 1) name = "." ++ "/" ++ roundabout k name := by
  rw [roundabout, List.replicate_succ, List.cons_append, Path.ofNames_cons (by simp)]
  rfl

theorem size_roundabout (strays : Text.Strays) (k : Nat) (name : String) :
    strays.byteSize (roundabout k name) = 2 * k + strays.byteSize name := by
  induction k with
  | zero => simp [roundabout]
  | succ k ih =>
    rw [roundabout_succ, Text.Strays.byteSize_append, Text.Strays.byteSize_append, ih,
      Text.Strays.byteSize_dot, Text.Strays.byteSize_slash]
    omega

theorem exists_roundabout_eq (k : Nat) (name : String) :
    ∃ before, roundabout k name = before ++ ofNames [name] := by
  induction k with
  | zero => exact ⟨"", by simp [roundabout]⟩
  | succ k ih =>
    obtain ⟨before, hbefore⟩ := ih
    refine ⟨"." ++ "/" ++ before, ?_⟩
    rw [roundabout_succ, hbefore]
    simp only [String.append_assoc]

theorem mem_roundabout {c : Char} (h : c ∈ (roundabout k name).toList) :
    c = '/' ∨ c = '.' ∨ c ∈ name.toList := by
  rcases Path.mem_ofNames h with hslash | ⟨other, hother, hc⟩
  · exact .inl hslash
  · rcases List.mem_append.1 hother with hdot | hname
    · rw [List.eq_of_mem_replicate hdot] at hc
      exact .inr (.inl (by simpa using hc))
    · rw [List.mem_singleton.1 hname] at hc
      exact .inr (.inr hc)

theorem roundabout_ne_empty (h : IsName name) : roundabout k name ≠ "" := by
  intro hempty
  have hsize := size_roundabout [] k name
  rw [hempty, Text.Strays.byteSize_empty] at hsize
  have hzero : Text.Strays.byteSize [] name = 0 := by omega
  exact h.ne_empty (Text.Strays.byteSize_eq_zero_iff.1 hzero)

theorem isAbsolute_roundabout (h : IsName name) (k : Nat) :
    Path.isAbsolute (roundabout k name) = false := by
  cases k with
  | zero => simpa [Path.isAbsolute, roundabout] using Path.head?_of_isName h
  | succ k =>
    rw [roundabout_succ, Path.isAbsolute, String.toList_append, String.toList_append]
    rfl

/-- From there a path leads on behind a slash. -/
theorem size_join_roundabout (strays : Text.Strays) (h : IsName name) {other : String}
    (hother : IsName other) :
    strays.byteSize (Path.join (roundabout k name) other) =
      2 * k + strays.byteSize name + 1 + strays.byteSize other := by
  obtain ⟨before, hbefore⟩ := exists_roundabout_eq k name
  have hlast := Path.getLast?_ofNames (by simp) (List.forall_mem_singleton.2 h) before
  rw [Path.join_eq (roundabout_ne_empty h) (Path.head?_of_isName hother),
    Path.slashed_of_ne (hbefore ▸ hlast), Text.Strays.byteSize_append,
    Text.Strays.byteSize_append, size_roundabout, Text.Strays.byteSize_slash]

/-- A path that is not too long finds what has the name in the working directory. -/
theorem locate_roundabout {files : FileTree Content} (h : files.IsSound)
    (hwork : files.isDirectoryAt workingDirectory = true)
    (hstands : (files.node? (workingDirectory ++ [name])).isSome = true)
    (hsize : 2 * k + files.strays.byteSize name ≤ FileTree.pathLimit) :
    files.locate (roundabout k name) = .ok (workingDirectory ++ [name]) := by
  have hname := (h.isName_of_isSome hstands name (by simp)).1
  have hslashes : ∀ other ∈ List.replicate k "." ++ [name], '/' ∉ other.toList := by
    intro other hother
    rcases List.mem_append.1 hother with hdot | hother
    · rw [List.eq_of_mem_replicate hdot]
      decide
    · rw [List.mem_singleton.1 hother]
      exact hname.noSlash
  have hnull : '\x00' ∉ (roundabout k name).toList := by
    intro hmem
    rcases mem_roundabout hmem with hslash | hdot | hmem
    · cases hslash
    · cases hdot
    · exact hname.noNull hmem
  rw [← size_roundabout] at hsize
  refine FileTree.locate_eq_ok_iff.2
    ⟨FileTree.checkPath_eq_ok_iff.2 ⟨hnull, roundabout_ne_empty hname, hsize⟩, ?_⟩
  rw [Path.origin, isAbsolute_roundabout hname, if_neg Bool.false_ne_true, roundabout,
    Path.components_ofNames (by simp) hslashes, FileTree.follow_replicate_dot hwork]
  exact h.follow_eq_ok hwork hstands

theorem hasWildcard_roundabout (h : NamePattern.hasWildcard name = false) :
    NamePattern.hasWildcard (roundabout k name) = false := by
  rw [NamePattern.hasWildcard, List.any_eq_false] at h ⊢
  intro c hc
  rcases mem_roundabout hc with rfl | rfl | hname
  · decide
  · decide
  · exact h c hname

end Roundabout

/-- A project of one file, with a path by which the project can be followed and the file cannot. -/
def farProject : String := roundabout 2045 "p"

/-- The world with that project. -/
def farWorld : World where
  files := { nodes := [(workingDirectory, .directory), (workingDirectory ++ ["p"], .directory),
    (workingDirectory ++ ["p", "A.kt"], .file (.bytes [10]))] }

theorem isSound_farWorld : farWorld.files.IsSound where
  distinct := by decide
  named := by decide +kernel
  housed := by decide

theorem content?_farWorld {names : List String} {content : Content}
    (h : farWorld.files.content? (workingDirectory ++ ["p"] ++ names) = some content) :
    names = ["A.kt"] ∧ content = .bytes [10] := by
  have hmem := (isSound_farWorld.mem_nodes_iff (by simp [workingDirectory])).2
    (FileTree.content?_eq_some.1 h)
  simpa [farWorld, workingDirectory] using hmem

theorem names_of_isFileAt_farWorld {names : List String}
    (h : farWorld.files.isFileAt (workingDirectory ++ ["p"] ++ names) = true) :
    names = ["A.kt"] := by
  obtain ⟨hstands, hfile⟩ := FileTree.isFileAt_iff.1 h
  obtain ⟨node, hnode⟩ := Option.isSome_iff_exists.1 hstands
  have hmem := (isSound_farWorld.mem_nodes_iff (by simp [workingDirectory])).2 hnode
  rw [FileTree.holdsDirectory, hnode] at hfile
  simp only [farWorld, workingDirectory, List.mem_cons, Prod.mk.injEq] at hmem
  rcases hmem with ⟨-, rfl⟩ | ⟨-, rfl⟩ | ⟨hplace, rfl⟩ | hnone
  · cases hfile
  · cases hfile
  · simpa using hplace
  · cases hnone

/-- The file is not analyzed: the path that would find it is one byte too long. -/
theorem countProject_farProject :
    farWorld.files.IsSound ∧
      farWorld.files.locate farProject = .ok (workingDirectory ++ ["p"]) ∧
      farWorld.files.holdsDirectory (workingDirectory ++ ["p"]) = true ∧
      NamePattern.hasWildcard farProject = false ∧
      IsKotlinFile farWorld.files (workingDirectory ++ ["p"]) ["A.kt"] ∧
      (∀ names content,
        farWorld.files.content? (workingDirectory ++ ["p"] ++ names) = some content →
        ∃ file, parseSource content.toBytes (some (ofNames names)) farWorld = .ok file ∧
          (Analysis.analyzeFile Kotlin.rules (.text farProject) file
            (.ofSpecs Kotlin.catalog false)).2 = none) ∧
      ∃ t, (({} : Analyzer).countProject farProject).run
          ⟨farWorld, ⟨.ofSpecs Kotlin.catalog false, 0⟩⟩ = .ok () t ∧
        t.own.session.files = 0 := by
  have hproject : farWorld.files.locate farProject = .ok (workingDirectory ++ ["p"]) :=
    locate_roundabout isSound_farWorld (by decide) (by decide) (by decide)
  have hplace : farWorld.files.holdsDirectory (workingDirectory ++ ["p"]) = true := by decide
  have hplain : NamePattern.hasWildcard farProject = false := hasWildcard_roundabout (by decide)
  have hfile : IsKotlinFile farWorld.files (workingDirectory ++ ["p"]) ["A.kt"] :=
    ⟨by decide, by decide, by decide, ⟨"A.kt", rfl, by decide⟩, by decide⟩
  have hfar : ∀ names content,
      farWorld.files.content? (workingDirectory ++ ["p"] ++ names) = some content →
      ¬ IsSource farWorld.files farProject (workingDirectory ++ ["p"]) names := by
    intro names content hcontent hsource
    obtain ⟨rfl, -⟩ := content?_farWorld hcontent
    have hsize := hsource.reachable
    rw [Path.ofNames_singleton, farProject, size_join_roundabout _ (by decide) (by decide)]
      at hsize
    exact absurd hsize (by decide)
  obtain ⟨sources, tasks, t, hrun, hmem, -, -, hall, hsession⟩ := run_countProject
    (s := ⟨farWorld, ⟨.ofSpecs Kotlin.catalog false, 0⟩⟩) isSound_farWorld hproject hplace hplain
    (nodup_keys_ofSpecs false) fun names content hsource hcontent =>
      absurd hsource (hfar names content hcontent)
  refine ⟨isSound_farWorld, hproject, hplace, hplain, hfile, fun names content hcontent => ?_, t,
    hrun, ?_⟩
  · obtain ⟨-, rfl⟩ := content?_farWorld hcontent
    exact analyzeFile_bareTree _ _ _ rfl
  · obtain rfl : sources = [] := by
      refine List.eq_nil_iff_forall_not_mem.2 fun names hnames => ?_
      obtain ⟨hsource, hreadable⟩ := (hmem names).1 hnames
      obtain ⟨content, hcontent⟩ := Option.isSome_iff_exists.1 hreadable
      exact hfar names content hcontent hsource
    cases hall
    rw [hsession]
    rfl

end Analyzer
end FeatureCensus
