import FeatureCensus.Analysis.Analyzer
import FeatureCensus.Proofs.Counting.Entries
import FeatureCensus.Proofs.World.Sealed

/-!
# Calls of an analyzer

An analyzer is called with parsed files and with projects, and a call that fails leaves in the
session what it has counted by then.  What a call adds to a session, and how it ends, follows from
the keys of the session alone.  So the same calls do the same to sessions that differ in what they
track, but for the tracked places.

Main results:

- Theorem {lit}`Session.gain_gain`: gains add up.
- Theorem {lit}`Action.IsImpartial.bind`: an action with impartial parts is impartial.
- Theorem {lit}`Analyzer.isImpartial_countProject`: the analysis of a project is impartial.
- Theorem {lit}`Analyzer.exists_gain_runAll`: calls add the same to all sessions with some keys.
- Theorem {lit}`Analyzer.runAll_statsOnly`: calls for statistics only differ from detailed ones in
  the tracked places alone.
-/

namespace FeatureCensus

/-! ## Counters with the same places -/

namespace Counter

variable {c d : Counter}

theorem projects_increment_congr (h : c.projects = d.projects) (place : Usage) :
    (c.increment place).projects = (d.increment place).projects := by
  simp only [increment, h]

/-- The projects of a counter do not depend on what it tracks. -/
theorem projects_incrementAll_congr (h : c.projects = d.projects) (places : List Usage) :
    (c.incrementAll places).projects = (d.incrementAll places).projects := by
  induction places generalizing c d with
  | nil => exact h
  | cons place rest ih =>
    rw [incrementAll_cons, incrementAll_cons]
    exact ih (projects_increment_congr h place)

end Counter

/-! ## Gains -/

/-- What analyses add to a session: to the totals, and as entries to the counters. -/
structure Gain where
  repositories : Int := 0
  files : Int := 0
  lines : Int := 0
  entries : List Entry := []

/-- One gain after another one. -/
def Gain.followedBy (g later : Gain) : Gain where
  repositories := g.repositories + later.repositories
  files := g.files + later.files
  lines := g.lines + later.lines
  entries := g.entries ++ later.entries

namespace Session

/-- The session with a gain. -/
def gain (s : Session) (g : Gain) : Session :=
  (s.addTotals g.repositories g.files g.lines).enter g.entries

@[simp]
theorem keys_gain (s : Session) (g : Gain) : (s.gain g).keys = s.keys :=
  keys_enter _ _

@[simp]
theorem gain_none (s : Session) : s.gain {} = s := by
  have htotals : s.addTotals 0 0 0 = s := by simp [addTotals]
  rw [gain, htotals, enter_nil]

/-- Gains add up. -/
theorem gain_gain (s : Session) (g later : Gain) :
    (s.gain g).gain later = s.gain (g.followedBy later) := by
  have hentries := (s.addTotals (g.followedBy later).repositories (g.followedBy later).files
    (g.followedBy later).lines).enter_append g.entries later.entries
  rw [gain, gain, gain, Gain.followedBy] at *
  rw [hentries]
  simp [addTotals, enter, Int.add_assoc]

theorem counter?_gain (s : Session) (g : Gain) (key : String) :
    (s.gain g).counter? key =
      (s.counter? key).map (·.incrementAll (Entry.placesFor key g.entries)) :=
  counter?_enter _ _ _

end Session

/-! ## Impartial actions -/

/-- How an action ends, the world that it leaves behind and what it adds to the session. -/
structure Stint (α : Type) where
  result : Except Failure α
  world : World
  gain : Gain

variable {α β : Type}

/-- The tally with a gain of its session. -/
def Tally.gain (own : Tally) (g : Gain) : Tally :=
  { own with session := own.session.gain g }

@[simp]
theorem Tally.gain_none (own : Tally) : own.gain {} = own := by
  rw [gain, Session.gain_none]

theorem Tally.gain_gain (own : Tally) (g later : Gain) :
    (own.gain g).gain later = own.gain (g.followedBy later) := by
  simp only [gain, Session.gain_gain]

/-- The end of an action that was begun with a tally. -/
def Stint.endFrom (stint : Stint α) (own : Tally) : EStateM.Result Failure (Situation Tally) α :=
  match stint.result with
  | .ok a => .ok a ⟨stint.world, own.gain stint.gain⟩
  | .error e => .error e ⟨stint.world, own.gain stint.gain⟩

namespace Action

/-- Whether an action takes no account of what is in the session but for its keys. -/
def IsImpartial (keys : List String) (x : Action Tally α) : Prop :=
  ∀ w, ∃ stint : Stint α, ∀ own : Tally, own.session.keys = keys →
    x.run ⟨w, own⟩ = stint.endFrom own

namespace IsImpartial

variable {keys : List String}

theorem pure (a : α) : IsImpartial keys (Pure.pure a : Action Tally α) := by
  intro w
  refine ⟨⟨.ok a, w, {}⟩, fun own _ => ?_⟩
  rw [Stint.endFrom, Tally.gain_none]
  rfl

theorem throw (e : Failure) : IsImpartial keys (MonadExcept.throw e : Action Tally α) := by
  intro w
  refine ⟨⟨.error e, w, {}⟩, fun own _ => ?_⟩
  rw [Stint.endFrom, Tally.gain_none]
  rfl

theorem ofExcept {ε : Type} (failure : ε → Failure) (result : Except ε α) :
    IsImpartial keys (Action.ofExcept failure result : Action Tally α) := by
  cases result with
  | ok a => exact pure a
  | error e => exact throw (failure e)

theorem log (level : Level) (message : String) :
    IsImpartial keys (Action.log level message : Action Tally Unit) := by
  intro w
  refine ⟨⟨.ok (), w.record (.log level message), {}⟩, fun own _ => ?_⟩
  rw [Stint.endFrom, Tally.gain_none]
  rfl

theorem addTotals (repositories files lines : Int) :
    IsImpartial keys (Action.changeOwn fun tally =>
      { tally with session := tally.session.addTotals repositories files lines }) := by
  intro w
  refine ⟨⟨.ok (), w, { repositories, files, lines }⟩, fun own _ => ?_⟩
  rw [Stint.endFrom, Tally.gain, Session.gain, Session.enter_nil]
  rfl

/-- An action with impartial parts is impartial: the first part keeps the keys that the second
one takes account of. -/
theorem bind {x : Action Tally α} {f : α → Action Tally β} (hx : IsImpartial keys x)
    (hf : ∀ a, IsImpartial keys (f a)) : IsImpartial keys (x >>= f) := by
  intro w
  obtain ⟨⟨result, between, first⟩, hfirst⟩ := hx w
  cases result with
  | error e =>
    exact ⟨⟨.error e, between, first⟩, fun own hkeys => run_bind_error (hfirst own hkeys) f⟩
  | ok a =>
    obtain ⟨⟨result, last, second⟩, hsecond⟩ := hf a between
    refine ⟨⟨result, last, first.followedBy second⟩, fun own hkeys => ?_⟩
    have hbegun := hfirst own hkeys
    have hkept : (own.gain first).session.keys = keys := by
      rw [Tally.gain, Session.keys_gain, hkeys]
    have hended := hsecond (own.gain first) hkept
    simp only [EStateM.run, Stint.endFrom, Tally.gain_gain] at hbegun hended
    simp only [EStateM.run, Bind.bind, EStateM.bind, hbegun, hended, Stint.endFrom]

/-- A look at the world is impartial. -/
theorem look {next : World → Action Tally α} (h : ∀ w, IsImpartial keys (next w)) :
    IsImpartial keys (world >>= next) :=
  fun w => h w w

end IsImpartial
end Action

/-! ## Projects -/

namespace Analyzer

variable {keys : List String}

theorem isImpartial_prepareFile (project path : String) :
    Action.IsImpartial keys (prepareFile project path) := by
  refine .look fun w => ?_
  split
  · exact .throw _
  · exact .bind (.look fun w => .log _ _) fun _ => .pure _
  · exact .bind (.ofExcept _ _) fun _ => .pure _

/-- What the analysis of a file adds to a session. -/
def gainOf (analyzer : Analyzer) (keys : List String) (task : Analysis.Task) : Gain where
  files := 1
  lines := task.file.lines.lineCount
  entries := task.entries analyzer.rules keys

theorem analyzeFile_eq_gain (analyzer : Analyzer) (h : keys.Nodup) (task : Analysis.Task)
    {s : Session} (hs : s.keys = keys) :
    Analysis.analyzeFile analyzer.rules task.project task.file s =
      (s.gain (analyzer.gainOf keys task), task.fault? analyzer.rules keys) := by
  subst hs
  exact Analysis.analyzeFile_eq analyzer.rules task h

theorem isImpartial_countFile (analyzer : Analyzer) (h : keys.Nodup) (project : String)
    (file : ParsedFile) : Action.IsImpartial keys (analyzer.countFile project file) := by
  intro w
  have hfile : ∀ own : Tally, own.session.keys = keys → _ := fun own hkeys =>
    analyzer.analyzeFile_eq_gain h ⟨project, file⟩ hkeys
  cases hfault : Analysis.Task.fault? analyzer.rules keys ⟨project, file⟩ with
  | none =>
    refine ⟨⟨.ok (), w, analyzer.gainOf keys ⟨project, file⟩⟩, fun own hkeys => ?_⟩
    simp only [EStateM.run, countFile, hfile own hkeys, hfault]
    rfl
  | some fault =>
    refine ⟨⟨.error (.ofFault fault), w, analyzer.gainOf keys ⟨project, file⟩⟩,
      fun own hkeys => ?_⟩
    simp only [EStateM.run, countFile, hfile own hkeys, hfault]
    rfl

theorem isImpartial_countFiles (analyzer : Analyzer) (h : keys.Nodup) (project : String)
    (paths : List String) : Action.IsImpartial keys (analyzer.countFiles project paths) := by
  induction paths with
  | nil => exact .pure ()
  | cons path rest ih =>
    rw [countFiles]
    refine .bind (isImpartial_prepareFile project path) fun file? => ?_
    cases file? with
    | none => exact ih
    | some file => exact .bind (analyzer.isImpartial_countFile h project file) fun _ => ih

/-- The analysis of a project is impartial. -/
theorem isImpartial_countProject (analyzer : Analyzer) (h : keys.Nodup) (project : String) :
    Action.IsImpartial keys (analyzer.countProject project) :=
  .bind (.log _ _) fun _ => .bind (.addTotals 1 0 0) fun _ => .look fun _ =>
    .bind (.ofExcept _ _) fun paths => analyzer.isImpartial_countFiles h project paths

/-! ## Calls -/

/-- A call of an analyzer: with a parsed file, or with a project in some surroundings. -/
inductive Call where
  | file (project : PlaceName) (file : ParsedFile)
  | project (surroundings : World) (path : String)

/-- The session after an action, and the failure of the action if it fails. -/
def leftBy : EStateM.Result Failure (Situation Tally) Unit → Session × Option Failure
  | .ok _ t => (t.own.session, none)
  | .error e t => (t.own.session, some e)

/-- The session that a call leaves behind, and its failure if it fails. -/
def run (analyzer : Analyzer) (s : Session) : Call → Session × Option Failure
  | .file project file =>
    ((Analysis.analyzeFile analyzer.rules project file s).1,
      (Analysis.analyzeFile analyzer.rules project file s).2.map .ofFault)
  | .project surroundings path =>
    leftBy ((analyzer.countProject path).run ⟨surroundings, { session := s }⟩)

/-- The session after calls one after the other, and the failure of each. -/
def runAll (analyzer : Analyzer) : Session → List Call → Session × List (Option Failure)
  | s, [] => (s, [])
  | s, call :: rest =>
    ((analyzer.runAll (analyzer.run s call).1 rest).1,
      (analyzer.run s call).2 :: (analyzer.runAll (analyzer.run s call).1 rest).2)

/-- A call adds the same to all sessions with the same keys, and ends the same. -/
theorem exists_gain_run (analyzer : Analyzer) (h : keys.Nodup) (call : Call) :
    ∃ g failure?, ∀ s : Session, s.keys = keys →
      analyzer.run s call = (s.gain g, failure?) := by
  cases call with
  | file project file =>
    refine ⟨analyzer.gainOf keys ⟨project, file⟩,
      (Analysis.Task.fault? analyzer.rules keys ⟨project, file⟩).map .ofFault, fun s hs => ?_⟩
    rw [run, analyzer.analyzeFile_eq_gain h ⟨project, file⟩ hs]
  | project surroundings path =>
    obtain ⟨⟨result, w, g⟩, hrun⟩ := analyzer.isImpartial_countProject h path surroundings
    cases result with
    | ok _ =>
      refine ⟨g, none, fun s hs => ?_⟩
      rw [run, hrun { session := s } hs]
      rfl
    | error e =>
      refine ⟨g, some e, fun s hs => ?_⟩
      rw [run, hrun { session := s } hs]
      rfl

/-- Calls add the same to all sessions with the same keys, and end the same. -/
theorem exists_gain_runAll (analyzer : Analyzer) (h : keys.Nodup) (calls : List Call) :
    ∃ g failures, ∀ s : Session, s.keys = keys →
      analyzer.runAll s calls = (s.gain g, failures) := by
  induction calls with
  | nil => exact ⟨{}, [], fun s _ => by rw [runAll, Session.gain_none]⟩
  | cons call rest ih =>
    obtain ⟨first, failure?, hcall⟩ := analyzer.exists_gain_run h call
    obtain ⟨second, failures, hrest⟩ := ih
    refine ⟨first.followedBy second, failure? :: failures, fun s hs => ?_⟩
    rw [runAll, hcall s hs, hrest _ ((s.keys_gain first).trans hs), Session.gain_gain]

/-! ## Two runs -/

/-- How the counters of one declaration in two sessions relate, where the same calls were made
for statistics only and in detail: they have the same numbers and projects, and the places of all
occurrences where they track. -/
structure DiffersInUsages (tracking : Tracking) (brief full : Counter) : Prop where
  count : brief.count = full.count
  projects : brief.projects = full.projects
  usages : match tracking with
    | .always => brief.usages = full.usages ∧ full.usages.size = full.count
    | .detailed => brief.usages = #[] ∧ full.usages.size = full.count
    | .never => brief.usages = #[] ∧ full.usages = #[]

theorem differsInUsages_incrementAll (label : String) (tracking : Tracking)
    (places : List Usage) :
    DiffersInUsages tracking ((Counter.empty label (tracking.tracks true)).incrementAll places)
      ((Counter.empty label (tracking.tracks false)).incrementAll places) := by
  have htallies : ∀ tracks : Bool,
      ((Counter.empty label tracks).incrementAll places).Tallies places := fun tracks =>
    Counter.tallies_incrementAll (Counter.Tallies.empty label tracks) places
  have hkept : ∀ tracks : Bool,
      ((Counter.empty label tracks).incrementAll places).usages =
        if tracks then places.toArray else #[] := by
    intro tracks
    have husages := (htallies tracks).usages
    rw [Counter.tracks_incrementAll] at husages
    apply Array.toList_inj.1
    rw [husages]
    cases tracks <;> rfl
  have hprojects : (Counter.empty label (tracking.tracks true)).projects =
      (Counter.empty label (tracking.tracks false)).projects := rfl
  refine ⟨?_, Counter.projects_incrementAll_congr hprojects places, ?_⟩
  · rw [(htallies _).count, (htallies _).count]
  · cases tracking with
    | always => simp [Tracking.tracks, hkept, (htallies _).count]
    | detailed => simp [Tracking.tracks, hkept, (htallies _).count]
    | never => simp [Tracking.tracks, hkept]

/-- The same calls on a session for statistics only and on a detailed one fail the same, one by
one, and leave the same totals.  The counters have the same numbers and projects and differ in the
tracked places at most: those that are tracked in any case are the same, and those that are
tracked in detail are all there or none. -/
theorem runAll_statsOnly {analyzer : Analyzer} (h : analyzer.catalog.keys.Nodup)
    (calls : List Call) :
    ∃ brief full, analyzer.newSession true = .ok brief ∧ analyzer.newSession false = .ok full ∧
      let s := (analyzer.runAll brief calls).1
      let t := (analyzer.runAll full calls).1
      (analyzer.runAll brief calls).2 = (analyzer.runAll full calls).2 ∧
      (s.repositories = t.repositories ∧ s.files = t.files ∧ s.lines = t.lines) ∧
      s.keys = analyzer.catalog.keys ∧ t.keys = analyzer.catalog.keys ∧
      ∀ spec ∈ analyzer.catalog, ∃ c d, s.counter? spec.key = some c ∧
        t.counter? spec.key = some d ∧ DiffersInUsages spec.tracking c d := by
  have hnew := Session.ofCatalog_eq_ok h
  have hkeys := fun statsOnly => Session.keys_ofCatalog (hnew statsOnly)
  obtain ⟨g, failures, hruns⟩ := analyzer.exists_gain_runAll h calls
  refine ⟨_, _, hnew true, hnew false, ?_⟩
  simp only [hruns _ (hkeys true), hruns _ (hkeys false), Session.keys_gain, hkeys]
  refine ⟨trivial, ⟨rfl, rfl, rfl⟩, trivial, trivial, fun spec hspec => ?_⟩
  simp only [Session.counter?_gain, Session.counter?_ofSpecs h _ hspec, Option.map_some]
  exact ⟨_, _, rfl, rfl, differsInUsages_incrementAll spec.label spec.tracking _⟩

/-- An analyzer of one file of each project, with a counter for each tracking mode and rules that
add to an unknown one too. -/
def sampleAnalyzer : Analyzer where
  pattern := "A.kt"
  catalog := [⟨"kept", "Kept", .always⟩, ⟨"shown", "Shown", .detailed⟩, ⟨"bare", "Bare", .never⟩]
  rules :=
    [.counting "files" Syntax.Kind.file.name ["kept", "shown", "bare"],
      .counting "classes" Syntax.Kind.classDeclaration.name ["shown", "unknown", "kept"]]

/-- Surroundings with a project of one file, of which the parser makes a bare tree. -/
def sampleSurroundings : World where
  files := { nodes := [(workingDirectory, .directory), (workingDirectory ++ ["q"], .directory),
    (workingDirectory ++ ["q", "A.kt"], .file (.bytes [10]))] }

/-- Calls of which two fail, one at an unknown counter and one at a malformed number. -/
def sampleCalls : List Call :=
  [.file (.text "p") (Analysis.fileWithClass "4"), .project sampleSurroundings "q",
    .file (.text "p") (Analysis.fileWithClass "four")]

/-- In detail four places are tracked that the other run counts. -/
theorem runAll_statsOnly_sampleCalls :
    ∃ brief full c d, sampleAnalyzer.newSession true = .ok brief ∧
      sampleAnalyzer.newSession false = .ok full ∧
      (sampleAnalyzer.runAll brief sampleCalls).2 =
        [some (.unknownKey "unknown"), none, some (.number (.malformed "four"))] ∧
      (sampleAnalyzer.runAll full sampleCalls).2 =
        [some (.unknownKey "unknown"), none, some (.number (.malformed "four"))] ∧
      (sampleAnalyzer.runAll full sampleCalls).1.repositories = 1 ∧
      (sampleAnalyzer.runAll brief sampleCalls).1.counter? "shown" = some c ∧
      (sampleAnalyzer.runAll full sampleCalls).1.counter? "shown" = some d ∧
      c.count = 4 ∧ c.usages = #[] ∧ d.usages.size = 4 := by
  obtain ⟨brief, full, hbrief, hfull, hfailures, ⟨hrepositories, -, -⟩, -, -, hcounters⟩ :=
    @runAll_statsOnly sampleAnalyzer (by decide) sampleCalls
  obtain rfl := Except.ok.inj hbrief
  obtain rfl := Except.ok.inj hfull
  obtain ⟨c, d, hc, hd, hcount, -, husages, hsize⟩ :=
    hcounters ⟨"shown", "Shown", .detailed⟩ (by decide)
  have hended : (sampleAnalyzer.runAll (.ofSpecs sampleAnalyzer.catalog true) sampleCalls).2 =
      [some (.unknownKey "unknown"), none, some (.number (.malformed "four"))] := by
    decide +kernel
  have hfour : c.count = 4 := by
    have hevaluated := congrArg (Option.map (·.count)) hc
    exact Option.some.inj (hevaluated.symm.trans (by decide +kernel))
  refine ⟨_, _, c, d, rfl, rfl, hended, hfailures ▸ hended, ?_, hc, hd, hfour, husages, ?_⟩
  · decide +kernel
  · rw [hsize, ← hcount, hfour]

end Analyzer
end FeatureCensus
