import FeatureCensus.Analysis.Analyzer
import FeatureCensus.Proofs.Counting.Recording
import FeatureCensus.Proofs.World.Turns

/-!
# Analyzing projects

The analysis of a project begins with its milestone and counts one repository.  What follows, the
analysis of its files, is quiet and changes nothing but counters and the numbers of files and
lines.

Main results:

- Theorem {lit}`Analysis.repositories_analyzeFile`: a file is no repository.
- Theorem {lit}`Analyzer.isSteady_countFiles`: the analysis of files is steady.
- Theorem {lit}`Analyzer.countProject_eq_ok`: what the analysis of a project comes to.
- Theorem {lit}`Analyzer.begins_countProject`: its turning point, however it ends.
-/

namespace FeatureCensus

open Syntax

/-! ## Files -/

namespace Analysis

theorem repositories_record {project : PlaceName} {file : ParsedFile} {s updated : Session}
    {finding : Element × Finding} (h : record project file s finding = .ok updated) :
    updated.repositories = s.repositories := by
  obtain ⟨e, finding⟩ := finding
  cases finding with
  | malformed error => cases h
  | count key =>
    simp only [record] at h
    split at h
    · cases h
    · split at h
      · cases h
      · rename_i next hnext
        obtain rfl := Except.ok.inj h
        exact (Session.totals_increment hnext).1

theorem repositories_recordAll (project : PlaceName) (file : ParsedFile) (s : Session)
    (findings : List (Element × Finding)) :
    (recordAll project file s findings).1.repositories = s.repositories := by
  induction findings generalizing s with
  | nil => rfl
  | cons finding rest ih =>
    rw [recordAll]
    cases h : record project file s finding with
    | error fault => rfl
    | ok updated => exact (ih updated).trans (repositories_record h)

/-- A file is no repository. -/
theorem repositories_analyzeFile (rules : List Rule) (project : PlaceName) (file : ParsedFile)
    (s : Session) : (analyzeFile rules project file s).1.repositories = s.repositories := by
  rw [analyzeFile, repositories_recordAll]
  exact Int.add_zero _

end Analysis

/-! ## Steady actions -/

/-- What the analysis of files leaves alone from one situation to a later one. -/
structure IsSteady (s t : Situation Tally) : Prop where
  basis : t.basis = s.basis
  analyzed : t.own.analyzed = s.own.analyzed
  repositories : t.own.session.repositories = s.own.session.repositories
  quiet : t.IsQuietSince s

instance : IsPreorder (Situation Tally) IsSteady where
  refl s := ⟨rfl, rfl, rfl, s.isQuietSince_self⟩
  trans _ _ _ hst htu := ⟨htu.basis.trans hst.basis, htu.analyzed.trans hst.analyzed,
    htu.repositories.trans hst.repositories, htu.quiet.trans hst.quiet⟩

/-- A message that begins differently is steady. -/
theorem isSteady_log {level : Level} {message : String} (h : message.toList.head? ≠ some 'A') :
    Action.Respects IsSteady (Action.log level message) := fun s =>
  ⟨rfl, rfl, rfl, s.isQuietSince_record (Event.isMilestone_of_head h)⟩

namespace Analyzer

theorem isSteady_logUnreadable (project path : String) (error : FileError) :
    Action.Respects IsSteady (logUnreadable project path error) :=
  .look fun w => isSteady_log (by simp)

theorem isSteady_prepareFile (project path : String) :
    Action.Respects IsSteady (prepareFile project path) := by
  refine .look fun w => ?_
  split
  · exact .throw _
  · exact .bind (isSteady_logUnreadable project path _) fun _ => .pure _
  · exact .bind (.ofExcept _ _) fun file => .pure _

theorem isSteady_countFile (analyzer : Analyzer) (project : String) (file : ParsedFile) :
    Action.Respects IsSteady (analyzer.countFile project file) := by
  intro s
  have hkept := Analysis.repositories_analyzeFile analyzer.rules project file s.own.session
  simp only [EStateM.run, countFile]
  cases hrun : Analysis.analyzeFile analyzer.rules project file s.own.session with
  | mk session fault =>
    rw [hrun] at hkept
    cases fault with
    | none => exact ⟨rfl, rfl, hkept, s.isQuietSince_self⟩
    | some fault => exact ⟨rfl, rfl, hkept, s.isQuietSince_self⟩

/-- The analysis of files is steady. -/
theorem isSteady_countFiles (analyzer : Analyzer) (project : String) (paths : List String) :
    Action.Respects IsSteady (analyzer.countFiles project paths) := by
  induction paths with
  | nil => exact .pure ()
  | cons path rest ih =>
    rw [countFiles]
    refine .bind (isSteady_prepareFile project path) fun file => ?_
    cases file with
    | none => exact ih
    | some file => exact .bind (isSteady_countFile analyzer project file) fun _ => ih

/-- The analysis of a project has one milestone and counts one repository. -/
theorem countProject_eq_ok {analyzer : Analyzer} {project : String} {s t : Situation Tally}
    (h : (analyzer.countProject project).run s = .ok () t) :
    t.basis = s.basis ∧ t.own.analyzed = s.own.analyzed ∧
      t.own.session.repositories = s.own.session.repositories + 1 ∧
      Situation.Passes [.analysis project] s t := by
  obtain ⟨_, u, hlog, h⟩ := Action.run_bind_eq_ok.1 h
  cases hlog
  obtain ⟨_, u, hown, h⟩ := Action.run_bind_eq_ok.1 h
  cases hown
  have hfiles : Action.Respects IsSteady (do
      let paths ← Action.ofExcept .file (analyzer.keys project (← Action.world).files)
      analyzer.countFiles project paths) :=
    .look fun w => .bind (.ofExcept _ _) fun paths => isSteady_countFiles analyzer project paths
  obtain ⟨hbasis, hanalyzed, hrepositories, hquiet⟩ := hfiles.of_run_eq_ok h
  have hbegun := s.passes_record (Event.isMilestone_analysis project)
  exact ⟨hbasis, hanalyzed, hrepositories, hbegun.trans hquiet⟩

/-! ## Turning points -/

theorem isUneventful_logUnreadable {σ : Type} (project path : String) (error : FileError) :
    Action.Respects Situation.IsUneventful
      (logUnreadable project path error : Action σ Unit) :=
  .look fun w => isUneventful_log (by simp)

theorem isUneventful_prepareFile {σ : Type} (project path : String) :
    Action.Respects Situation.IsUneventful
      (prepareFile project path : Action σ (Option ParsedFile)) := by
  refine .look fun w => ?_
  split
  · exact .throw _
  · exact .bind (isUneventful_logUnreadable project path _) fun _ => .pure none
  · exact .bind (.ofExcept _ _) fun file => .pure (some file)

theorem isUneventful_countFile (analyzer : Analyzer) (project : String) (file : ParsedFile) :
    Action.Respects Situation.IsUneventful (analyzer.countFile project file) := by
  intro s
  simp only [EStateM.run, countFile]
  cases Analysis.analyzeFile analyzer.rules project file s.own.session with
  | mk session fault => cases fault <;> exact s.adds_self _

/-- The analysis of files is no turning point. -/
theorem isUneventful_countFiles (analyzer : Analyzer) (project : String) (paths : List String) :
    Action.Respects Situation.IsUneventful (analyzer.countFiles project paths) := by
  induction paths with
  | nil => exact .pure ()
  | cons path rest ih =>
    rw [countFiles]
    refine .bind (isUneventful_prepareFile project path) fun file => ?_
    cases file with
    | none => exact ih
    | some file => exact .bind (isUneventful_countFile analyzer project file) fun _ => ih

end Analyzer

/-- What analyses of some projects come to, however they end: each of them begins once and counts
one repository, and files and coming outcomes stay the same. -/
structure Begins (projects : List String) (s t : Situation Tally) : Prop where
  basis : t.basis = s.basis
  analyzed : t.own.analyzed = s.own.analyzed
  repositories : t.own.session.repositories = s.own.session.repositories + projects.length
  turns : Situation.Adds Event.isTurn (projects.map .analysis) s t

namespace Begins

theorem refl (s : Situation Tally) : Begins [] s s :=
  ⟨rfl, rfl, (Int.add_zero _).symm, s.adds_self _⟩

theorem trans {before later : List String} {s t u : Situation Tally} (h : Begins before s t)
    (hnext : Begins later t u) : Begins (before ++ later) s u where
  basis := hnext.basis.trans h.basis
  analyzed := hnext.analyzed.trans h.analyzed
  repositories := by
    rw [hnext.repositories, h.repositories, List.length_append]
    omega
  turns := by
    rw [List.map_append]
    exact h.turns.trans hnext.turns

/-- What is no turning point is no analysis. -/
theorem record (s : Situation Tally) {event : Event} (h : event.isTurn = false) :
    Begins [] s { s with world := s.world.record event } :=
  ⟨rfl, rfl, (Int.add_zero _).symm, s.isUneventful_record h⟩

end Begins

namespace Analyzer

/-- The situation in which the files of a project begin to be analyzed. -/
def begun (project : String) (s : Situation Tally) : Situation Tally where
  world := s.world.record (.analysis project)
  own := { s.own with session := s.own.session.addTotals 1 0 0 }

/-- The files of a project are analyzed after it is said that the analysis begins. -/
theorem run_countProject_files (analyzer : Analyzer) (project : String) (s : Situation Tally) :
    (analyzer.countProject project).run s = (do
      let paths ← Action.ofExcept .file (analyzer.keys project (← Action.world).files)
      analyzer.countFiles project paths : Action Tally Unit).run (begun project s) := by
  rw [countProject, Action.run_log_bind, Action.run_changeOwn_bind]
  rfl

/-- However the analysis of a project ends, it begins once. -/
theorem begins_countProject (analyzer : Analyzer) (project : String) :
    Action.Respects (Begins [project]) (analyzer.countProject project) := by
  intro s
  have hbegun := s.adds_isTurn_record (Event.isTurn_analysis project)
  have hsteady : Action.Respects IsSteady (do
      let paths ← Action.ofExcept .file (analyzer.keys project (← Action.world).files)
      analyzer.countFiles project paths) :=
    .look fun w => .bind (.ofExcept _ _) fun paths => isSteady_countFiles analyzer project paths
  have huneventful : Action.Respects Situation.IsUneventful (do
      let paths ← Action.ofExcept .file (analyzer.keys project (← Action.world).files)
      analyzer.countFiles project paths) :=
    .look fun w => .bind (.ofExcept _ _) fun paths =>
      isUneventful_countFiles analyzer project paths
  rw [run_countProject_files]
  have hkept := hsteady (begun project s)
  have hno := huneventful (begun project s)
  split at hkept <;> rename_i hrun <;> rw [hrun] at hno <;>
    exact ⟨hkept.basis, hkept.analyzed, hkept.repositories, hbegun.trans hno⟩

end Analyzer
end FeatureCensus
