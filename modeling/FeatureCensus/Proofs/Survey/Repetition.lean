import FeatureCensus.Proofs.Survey.LocalRuns
import FeatureCensus.Proofs.World.Observing

/-!
# Repeated runs

A run on local copies without a destination for its results only looks around: it neither runs
version control nor pauses, and leaves the files as they are, however it ends.  So a second run
that finds the same files, gets the same answers and begins in the same state makes the same
happen and comes to the same session, report or failure, whatever happened before it and whatever
version control would do.

Main results:

- Theorem {lit}`Analyzer.isObserving_countProject`: the analysis of a project only looks around.
- Theorem {lit}`Discovery.isObserving_pursue`: a discovery does if its visitor does.
- Theorem {lit}`Survey.isObserving_run`: a run on local copies that saves nothing does.
- Theorem {lit}`Survey.run_repeats`: such a run leaves no traces, and a second one is the same.
-/

namespace FeatureCensus

variable {σ : Type}

/-! ## Events -/

namespace Event

/-- Whether an event is a pause. -/
def isPause : Event → Bool
  | pause _ => true
  | _ => false

/-- An event that is neither a run of version control nor a pause. -/
def IsQuiet (event : Event) : Prop :=
  event.isGit = false ∧ event.isPause = false

theorem isQuiet_log (level : Level) (message : String) : (log level message).IsQuiet :=
  ⟨rfl, rfl⟩

end Event

open Event

theorem Action.isObserving_log (level : Level) (message : String) :
    Action.IsObserving IsQuiet (Action.log level message : Action σ Unit) :=
  .record (isQuiet_log level message)

/-! ## Ends -/

/-- What an action has come to: its result or its failure. -/
def Situation.outcomeOf {α : Type} :
    EStateM.Result Failure (Situation σ) α → Except Failure α
  | .ok a _ => .ok a
  | .error failure _ => .error failure

namespace Course

variable {α : Type}

theorem endOf_endIn (course : Course σ α) (s : Situation σ) :
    Situation.endOf (course.endIn s) = course.last s := by
  rw [endIn]
  cases course.result <;> rfl

theorem outcomeOf_endIn (course : Course σ α) (s : Situation σ) :
    Situation.outcomeOf (course.endIn s) = course.result := by
  rw [endIn]
  cases course.result <;> rfl

end Course

/-! ## Analyses -/

namespace Analyzer

theorem isObserving_logUnreadable (project path : String) (error : FileError) :
    Action.IsObserving IsQuiet (logUnreadable project path error : Action σ Unit) :=
  .look (fun _ => Action.isObserving_log _ _) fun w v hfiles _ _ => by rw [hfiles]

theorem isObserving_prepareFile (project path : String) :
    Action.IsObserving IsQuiet (prepareFile project path : Action σ (Option ParsedFile)) := by
  refine .look (fun w => ?_) fun w v hfiles _ hparses => ?_
  · split
    · exact .throw _
    · exact (isObserving_logUnreadable project path _).bind fun _ => .pure _
    · exact (Action.IsObserving.ofExcept _ _).bind fun _ => .pure _
  · have hparse : ∀ source path, parseSource source path w = parseSource source path v := by
      intro source path
      rw [parseSource, parseSource, World.parse, World.parse, hparses]
    simp only [hfiles, hparse]

theorem isObserving_countFile (analyzer : Analyzer) (project : String) (file : ParsedFile) :
    Action.IsObserving IsQuiet (analyzer.countFile project file) := by
  let counted (outlook : Outlook Tally) :=
    Analysis.analyzeFile analyzer.rules project file outlook.own.session
  refine .of_quiet (fun outlook => match (counted outlook).2 with
    | none => .ok ()
    | some fault => .error (Failure.ofFault fault)) (·.answers)
    (fun outlook => { outlook.own with session := (counted outlook).1 }) fun s => ?_
  have hcounted : counted s.outlook =
      Analysis.analyzeFile analyzer.rules project file s.own.session := rfl
  simp only [EStateM.run, countFile, hcounted]
  obtain ⟨session, fault?⟩ := Analysis.analyzeFile analyzer.rules project file s.own.session
  cases fault? <;> rfl

theorem isObserving_countFiles (analyzer : Analyzer) (project : String) (paths : List String) :
    Action.IsObserving IsQuiet (analyzer.countFiles project paths) := by
  induction paths with
  | nil => exact .pure ()
  | cons path rest ih =>
    refine (isObserving_prepareFile project path).bind fun prepared => ?_
    cases prepared with
    | none => exact (Action.IsObserving.pure ()).bind fun _ => ih
    | some file => exact (analyzer.isObserving_countFile project file).bind fun _ => ih

/-- The analysis of a project only looks around. -/
theorem isObserving_countProject (analyzer : Analyzer) (project : String) :
    Action.IsObserving IsQuiet (analyzer.countProject project) := by
  refine (Action.isObserving_log _ _).bind fun _ => ?_
  refine (Action.IsObserving.changeOwn _).bind fun _ => .look (fun w => ?_) ?_
  · exact (Action.IsObserving.ofExcept _ _).bind fun paths =>
      analyzer.isObserving_countFiles project paths
  · intro w v hfiles _ _
    rw [hfiles]

end Analyzer

/-! ## Discoveries -/

namespace Discovery

theorem isObserving_requestPage (source : Source) (page : Nat) :
    Action.IsObserving IsQuiet (requestPage source page : Action σ Unit) := by
  refine (Action.isObserving_log _ _).bind fun _ => ?_
  exact (Action.IsObserving.record ⟨rfl, rfl⟩).bind fun _ => .changeAnswers (·.drop 1)

/-- A discovery only looks around if its visitor does. -/
theorem isObserving_pursue {source : Source} {visit : Found → Action σ Bool}
    (hvisit : ∀ found, Action.IsObserving IsQuiet (visit found)) (steps : List Step) :
    Action.IsObserving IsQuiet (pursue source visit steps) := by
  induction steps with
  | nil => exact .pure ()
  | cons step rest ih =>
    cases step with
    | request page => exact (isObserving_requestPage source page).bind fun _ => ih
    | failed page failure => exact .throw _
    | found found =>
      refine (hvisit found).bind fun goOn => ?_
      cases goOn with
      | true => exact ih
      | false => exact .pure ()

end Discovery

namespace Corpus

/-- Handing over a local copy only looks around if the visitor does. -/
theorem isObserving_handle {visit : String → Action σ Bool}
    (hvisit : ∀ path, Action.IsObserving IsQuiet (visit path)) (corpus : Corpus) (found : Found) :
    Action.IsObserving IsQuiet (corpus.handle true visit found) := by
  rw [handle]
  split
  · exact .throw _
  · refine (Action.isObserving_log _ _).bind fun _ =>
      (Action.IsObserving.pure true).bind fun available => ?_
    split
    · exact hvisit _
    · split
      · exact (Action.isObserving_log _ _).bind fun _ => .pure true
      · exact (Action.isObserving_log _ _).bind fun _ => .pure false

theorem isObserving_visitAll {visit : String → Action σ Bool}
    (hvisit : ∀ path, Action.IsObserving IsQuiet (visit path)) (corpus : Corpus)
    (source : Source) : Action.IsObserving IsQuiet (corpus.visitAll source true visit) := by
  refine .look (fun w => ?_) fun w v _ hanswers _ => ?_
  · exact Discovery.isObserving_pursue (corpus.isObserving_handle hvisit) _
  · rw [hanswers]

end Corpus

/-! ## Runs -/

namespace Survey

theorem isObserving_visit (survey : Survey) (n : Int) (path : String) :
    Action.IsObserving IsQuiet (survey.visit n path) := by
  rw [visit]
  split
  · exact (Action.isObserving_log _ _).bind fun _ => .pure true
  · refine (survey.analyzer.isObserving_countProject path).bind fun _ => ?_
    refine (Action.IsObserving.changeOwn _).bind fun _ => ?_
    refine (Action.IsObserving.record ⟨rfl, rfl⟩).bind fun _ => ?_
    exact Action.IsObserving.own.bind fun _ => .pure _

theorem isObserving_visitPrivate (survey : Survey) (paths : List String) :
    Action.IsObserving IsQuiet (survey.visitPrivate paths) := by
  induction paths with
  | nil => exact .pure ()
  | cons path rest ih =>
    refine (Action.isObserving_log _ _).bind fun _ => ?_
    exact (survey.analyzer.isObserving_countProject path).bind fun _ => ih

theorem isObserving_count (survey : Survey) (corpus : Corpus) (n : Int) :
    Action.IsObserving IsQuiet (survey.count corpus true n) :=
  (corpus.isObserving_visitAll (survey.isObserving_visit n) survey.source).bind fun _ =>
    survey.isObserving_visitPrivate survey.privateProjects

theorem isObserving_logInterruption {action : Action Tally Unit}
    (h : Action.IsObserving IsQuiet action) :
    Action.IsObserving IsQuiet (logInterruption action) := by
  refine h.tryCatch fun failure => ?_
  split
  · exact (Action.isObserving_log _ _).bind fun _ => .throw failure
  · exact (Action.IsObserving.pure ()).bind fun _ => .throw failure

/-- A run on local copies that saves nothing only looks around. -/
theorem isObserving_run {survey : Survey} {options : RunOptions}
    (hlocal : options.localOnly = true) (hnowhere : survey.destination = .nowhere) :
    Action.IsObserving IsQuiet (survey.run options) := by
  rw [run]
  split
  · exact .throw .missingCorpus
  · exact .throw .wrongType
  · rename_i corpus n _ _
    rw [runOn, hlocal, save, hnowhere]
    refine (Action.IsObserving.record ⟨rfl, rfl⟩).bind fun _ => ?_
    refine (Action.IsObserving.changeOwn _).bind fun _ => ?_
    refine (Action.IsObserving.finallyDo
      (isObserving_logInterruption (survey.isObserving_count corpus n))
      (.record ⟨rfl, rfl⟩)).bind fun _ => ?_
    exact Action.IsObserving.own.bind fun _ => .pure ()

/-- A run and its report. -/
def runAndReport (survey : Survey) (options : RunOptions) : Action Tally String := do
  survey.run options
  report

theorem isObserving_runAndReport {survey : Survey} {options : RunOptions}
    (hlocal : options.localOnly = true) (hnowhere : survey.destination = .nowhere) :
    Action.IsObserving IsQuiet (survey.runAndReport options) :=
  (isObserving_run hlocal hnowhere).bind fun _ => Action.IsObserving.own.bind fun _ => .pure _

/-! ## Repetition -/

/-- A run on local copies that saves nothing neither runs version control nor pauses, and leaves
the files as they are, whether it fails or not.  A second run that finds the files that the first
one has left behind, gets the same answers and begins in the same state makes the same happen,
the analyses of projects included, and comes to the same session and to the same report or
failure, whatever has happened before and whatever version control would do. -/
theorem run_repeats (survey : Survey) (options : RunOptions) (hlocal : options.localOnly = true)
    (hnowhere : survey.destination = .nowhere) (s : Situation Tally) :
    let t := Situation.endOf ((survey.run options).run s)
    (∀ event ∈ t.eventsSince s, event.isGit = false ∧ event.isPause = false) ∧
      t.world.files = s.world.files ∧
      ∀ v : Situation Tally, v.world.files = t.world.files →
        v.world.answers = s.world.answers → v.world.parses = s.world.parses → v.own = s.own →
        let u := Situation.endOf ((survey.run options).run v)
        u.eventsSince v = t.eventsSince s ∧
          (u.eventsSince v).filterMap Event.analyzed? =
            (t.eventsSince s).filterMap Event.analyzed? ∧
          u.own.session = t.own.session ∧
          Situation.outcomeOf ((survey.runAndReport options).run v) =
            Situation.outcomeOf ((survey.runAndReport options).run s) := by
  intro t
  obtain ⟨course, hquiet, hrun⟩ := isObserving_run hlocal hnowhere s.outlook
  obtain ⟨reported, -, hreported⟩ := isObserving_runAndReport hlocal hnowhere s.outlook
  have ht : t = course.last s := by
    simp only [t, hrun s rfl, Course.endOf_endIn]
  have hevents : t.eventsSince s = course.events := by
    rw [ht]
    exact s.eventsSince_following _ _ _
  have hfiles : t.world.files = s.world.files := by
    rw [ht]
    rfl
  refine ⟨hevents ▸ hquiet, hfiles, fun v hleft hanswers hparses hown => ?_⟩
  have houtlook : v.outlook = s.outlook := by
    rw [Situation.outlook, hleft, hfiles, hanswers, hparses, hown]
    rfl
  intro u
  have hu : u = course.last v := by
    simp only [u, hrun v houtlook, Course.endOf_endIn]
  have hsame : u.eventsSince v = t.eventsSince s := by
    rw [hevents, hu]
    exact v.eventsSince_following _ _ _
  refine ⟨hsame, by rw [hsame], ?_, ?_⟩
  · rw [hu, ht]
    rfl
  · rw [hreported v houtlook, hreported s rfl, Course.outcomeOf_endIn, Course.outcomeOf_endIn]

/-- The situation after other things have happened, where version control would be interrupted. -/
def laterStart : Situation Tally :=
  { partialStart with world := { partialStart.world with
      script := [("clone a", [{ interrupted := true }])]
      events := #[.pause none, .log .info "Interrupted"] } }

theorem analyzedSince?_partialStart :
    analyzedSince? partialStart ((copiesSurvey.run { localOnly := true }).run partialStart) =
      some ["repos/o/a", "repos/o/b"] := by
  decide +kernel

/-- Both of two repositories are analyzed again by a second run, though one of them has no copy and
version control would be interrupted. -/
theorem run_repeats_laterStart :
    let t := Situation.endOf ((copiesSurvey.run { localOnly := true }).run partialStart)
    let u := Situation.endOf ((copiesSurvey.run { localOnly := true }).run laterStart)
    laterStart.world.files = t.world.files ∧
      (u.eventsSince laterStart).filterMap Event.analyzed? = ["repos/o/a", "repos/o/b"] ∧
      u.own.session = t.own.session := by
  have hfirst := run_repeats copiesSurvey { localOnly := true } rfl rfl partialStart
  dsimp only at hfirst ⊢
  obtain ⟨-, hfiles, hagain⟩ := hfirst
  obtain ⟨last, hrun, hpaths⟩ := exists_of_analyzedSince? analyzedSince?_partialStart
  obtain ⟨-, hprojects, hsession, -⟩ := hagain laterStart hfiles.symm rfl rfl rfl
  refine ⟨hfiles.symm, hprojects.trans ?_, hsession⟩
  rw [hrun]
  exact hpaths

end Survey
end FeatureCensus
