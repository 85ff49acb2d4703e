import FeatureCensus.Proofs.Analysis.Calls
import FeatureCensus.Proofs.World.Milestones

/-!
# Tracked places of calls

Projects are known by their paths, and whoever has a file analyzed names its project.  So each
place that calls of an analyzer leave in a session is in a project with a name.

Main results:

- Theorem {lit}`Analysis.isNamed_analyzeFile`: the analysis of a file of a named project adds
  places in named projects.
- Theorem {lit}`Analyzer.isNamed_runAll`: so do all calls that name their projects.
-/

namespace FeatureCensus

/-! ## Sessions -/

namespace Session

/-- That all tracked places are in projects with names. -/
def IsNamed (s : Session) : Prop :=
  ∀ entry ∈ s.counters, ∀ place ∈ entry.2.usages, place.project ≠ .absent

variable {s t : Session}

theorem isNamed_ofSpecs (catalog : Catalog) (statsOnly : Bool) :
    (ofSpecs catalog statsOnly).IsNamed := by
  intro entry hentry place hplace
  obtain ⟨spec, -, rfl⟩ := List.mem_map.1 hentry
  simp [Counter.empty] at hplace

theorem IsNamed.addTotals (h : s.IsNamed) (repositories files lines : Int) :
    (s.addTotals repositories files lines).IsNamed := h

theorem mem_of_mem_increment {c : Counter} {usage place : Usage}
    (h : place ∈ (c.increment usage).usages) : place ∈ c.usages ∨ place = usage := by
  by_cases htracks : c.tracks = true
  · rwa [Counter.usages_increment_of_tracks htracks, Array.mem_push] at h
  · rw [Bool.not_eq_true] at htracks
    rw [Counter.usages_increment_of_not_tracks htracks] at h
    exact Or.inl h

theorem forall_updateCounter? {key : String} {usage : Usage} (husage : usage.project ≠ .absent)
    {counters updated : List (String × Counter)}
    (h : ∀ entry ∈ counters, ∀ place ∈ entry.2.usages, place.project ≠ .absent)
    (hupdated : updateCounter? (·.increment usage) key counters = some updated) :
    ∀ entry ∈ updated, ∀ place ∈ entry.2.usages, place.project ≠ .absent := by
  induction counters generalizing updated with
  | nil => cases hupdated
  | cons entry rest ih =>
    obtain ⟨k, c⟩ := entry
    obtain ⟨hfirst, hrest⟩ := List.forall_mem_cons.1 h
    rw [updateCounter?] at hupdated
    split at hupdated
    · obtain rfl := Option.some.inj hupdated
      refine List.forall_mem_cons.2 ⟨fun place hplace => ?_, hrest⟩
      rcases mem_of_mem_increment hplace with hold | rfl
      · exact hfirst place hold
      · exact husage
    · obtain ⟨later, hlater, rfl⟩ := Option.map_eq_some_iff.1 hupdated
      exact List.forall_mem_cons.2 ⟨hfirst, ih hrest hlater⟩

/-- A place in a named project may be added. -/
theorem IsNamed.increment (h : s.IsNamed) {key : String} {usage : Usage}
    (husage : usage.project ≠ .absent) (ht : s.increment? key usage = some t) : t.IsNamed := by
  obtain ⟨counters, hcounters, rfl⟩ := Option.map_eq_some_iff.1 ht
  exact forall_updateCounter? husage h hcounters

end Session

/-! ## Files -/

namespace Analysis

open Syntax

theorem isNamed_record {project : PlaceName} {file : ParsedFile} {s updated : Session}
    {finding : Element × Finding} (hproject : project ≠ .absent) (hs : s.IsNamed)
    (h : record project file s finding = .ok updated) : updated.IsNamed := by
  obtain ⟨e, finding⟩ := finding
  cases finding with
  | malformed error => cases h
  | count key =>
    simp only [record] at h
    split at h
    · cases h
    · split at h
      · cases h
      · rename_i next hnext
        obtain rfl := Except.ok.inj h
        exact hs.increment hproject hnext

theorem isNamed_recordAll {project : PlaceName} {file : ParsedFile} {s : Session}
    (hproject : project ≠ .absent) (hs : s.IsNamed) (findings : List (Element × Finding)) :
    (recordAll project file s findings).1.IsNamed := by
  induction findings generalizing s with
  | nil => exact hs
  | cons finding rest ih =>
    rw [recordAll]
    cases h : record project file s finding with
    | error fault => exact hs
    | ok updated => exact ih (isNamed_record hproject hs h)

/-- The analysis of a file of a named project adds places in named projects. -/
theorem isNamed_analyzeFile (rules : List Rule) {project : PlaceName} (file : ParsedFile)
    {s : Session} (hproject : project ≠ .absent) (hs : s.IsNamed) :
    (analyzeFile rules project file s).1.IsNamed :=
  isNamed_recordAll hproject (hs.addTotals 0 1 _) _

end Analysis

/-! ## Projects -/

/-- What an action keeps if all places that it adds are in named projects. -/
def KeepsNamed (s t : Situation Tally) : Prop :=
  s.own.session.IsNamed → t.own.session.IsNamed

instance : IsPreorder (Situation Tally) KeepsNamed where
  refl _ := id
  trans _ _ _ hst htu := htu ∘ hst

theorem keepsNamed_log (level : Level) (message : String) :
    Action.Respects KeepsNamed (Action.log level message) := fun _ => id

namespace Analyzer

theorem keepsNamed_prepareFile (project path : String) :
    Action.Respects KeepsNamed (prepareFile project path) := by
  refine .look fun w => ?_
  split
  · exact .throw _
  · exact .bind (.look fun w => keepsNamed_log _ _) fun _ => .pure _
  · exact .bind (.ofExcept _ _) fun file => .pure _

theorem keepsNamed_countFile (analyzer : Analyzer) (project : String) (file : ParsedFile) :
    Action.Respects KeepsNamed (analyzer.countFile project file) := by
  intro s
  have hkept : s.own.session.IsNamed →
      (Analysis.analyzeFile analyzer.rules project file s.own.session).1.IsNamed :=
    Analysis.isNamed_analyzeFile analyzer.rules file PlaceName.noConfusion
  simp only [EStateM.run, countFile]
  cases hrun : Analysis.analyzeFile analyzer.rules project file s.own.session with
  | mk session fault? =>
    rw [hrun] at hkept
    cases fault? <;> exact hkept

theorem keepsNamed_countFiles (analyzer : Analyzer) (project : String) (paths : List String) :
    Action.Respects KeepsNamed (analyzer.countFiles project paths) := by
  induction paths with
  | nil => exact .pure ()
  | cons path rest ih =>
    rw [countFiles]
    refine .bind (keepsNamed_prepareFile project path) fun file? => ?_
    cases file? with
    | none => exact ih
    | some file => exact .bind (keepsNamed_countFile analyzer project file) fun _ => ih

theorem keepsNamed_countProject (analyzer : Analyzer) (project : String) :
    Action.Respects KeepsNamed (analyzer.countProject project) :=
  .bind (keepsNamed_log _ _) fun _ => .bind (fun _ => id) fun _ => .look fun _ =>
    .bind (.ofExcept _ _) fun paths => keepsNamed_countFiles analyzer project paths

/-! ## Calls -/

/-- That a call names its project; one with a path does. -/
def Call.IsNamed : Call → Prop
  | .file name _ => name ≠ .absent
  | .project _ _ => True

theorem isNamed_run (analyzer : Analyzer) {s : Session} (hs : s.IsNamed) {call : Call}
    (hcall : call.IsNamed) : (analyzer.run s call).1.IsNamed := by
  cases call with
  | file project file => exact Analysis.isNamed_analyzeFile analyzer.rules file hcall hs
  | project surroundings path =>
    have hkept := keepsNamed_countProject analyzer path ⟨surroundings, { session := s }⟩
    rw [run]
    cases hrun : (analyzer.countProject path).run ⟨surroundings, { session := s }⟩ with
    | ok _ t =>
      rw [hrun] at hkept
      exact hkept hs
    | error e t =>
      rw [hrun] at hkept
      exact hkept hs

/-- Calls that name their projects add places in named projects. -/
theorem isNamed_runAll (analyzer : Analyzer) {s : Session} (hs : s.IsNamed) {calls : List Call}
    (hcalls : ∀ call ∈ calls, call.IsNamed) : (analyzer.runAll s calls).1.IsNamed := by
  induction calls generalizing s with
  | nil => exact hs
  | cons call rest ih =>
    obtain ⟨hcall, hrest⟩ := List.forall_mem_cons.1 hcalls
    exact ih (analyzer.isNamed_run hs hcall) hrest

end Analyzer
end FeatureCensus
