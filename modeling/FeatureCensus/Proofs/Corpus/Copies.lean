import FeatureCensus.Corpus.Corpus
import FeatureCensus.Proofs.World.Turns

/-!
# Providing copies

Whether the copy of a repository can be provided, and what happens meanwhile, depends on the
files and the coming outcomes of version control alone.  No analysis begins meanwhile.

Main results:

- Theorem {lit}`Corpus.isSealed_provide`: providing a copy is sealed.
- Theorem {lit}`Corpus.passes_provide`: an existing copy is updated, and otherwise the repository
  is cloned, with a pause after each.
-/

namespace FeatureCensus

variable {σ : Type}

/-! ## Classes of events -/

/-- Whether an event is a message that is no turning point. -/
def IsRemark (event : Event) : Prop :=
  event.isLog = true ∧ event.isTurn = false

/-- Whether an event is no turning point. -/
def IsRoutine (event : Event) : Prop :=
  event.isTurn = false

/-- Whether an event is not the beginning of an analysis. -/
def IsNoAnalysis (event : Event) : Prop :=
  event.analyzed? = none

theorem IsRemark.isRoutine {event : Event} (h : IsRemark event) : IsRoutine event :=
  h.2

theorem IsRoutine.isNoAnalysis {event : Event} (h : IsRoutine event) : IsNoAnalysis event :=
  Event.analyzed?_of_isTurn h

theorem IsRemark.isMilestone {event : Event} (h : IsRemark event) : event.isMilestone = false := by
  have hanalyzed := Event.analyzed?_of_isTurn h.2
  cases event with
  | log level message => rw [Event.isMilestone, hanalyzed]; rfl
  | _ => cases h.1

theorem filter_isMilestone_of_isNoAnalysis {events : List Event}
    (h : ∀ event ∈ events, IsNoAnalysis event) :
    events.filter (·.isMilestone) = events.filter (·.isOutward) := by
  refine List.filter_congr fun event hevent => ?_
  rw [Event.isMilestone, h event hevent]
  exact Bool.or_false _

/-- A message that begins differently is a remark. -/
theorem isSealed_log {level : Level} {message : String}
    (h : message.toList.take 2 ∉ Event.turnHeads) :
    (Action.log level message : Action σ Unit).IsSealed IsRemark :=
  .record ⟨rfl, Event.isTurn_of_take h⟩

theorem isSealed_note {level : Level} {message : String}
    (h : message.toList.take 2 ∉ Event.turnHeads) :
    (Action.log level message : Action σ Unit).IsSealed IsRoutine :=
  (isSealed_log h).mono fun _ => IsRemark.isRoutine

/-- Remarks are quiet. -/
theorem Action.IsSealed.isQuietSince {α : Type} {x : Action σ α} (h : x.IsSealed IsRemark)
    {s t : Situation σ} {a : α} (hrun : x.run s = .ok a t) : t.IsQuietSince s := by
  obtain ⟨basis, events, hremarks, rfl, -⟩ := h.of_run_eq_ok hrun
  refine ⟨events, s.events_after basis events, ?_⟩
  rw [List.filter_eq_nil_iff]
  intro event hevent
  rw [(hremarks event hevent).isMilestone]
  exact Bool.false_ne_true

/-! ## Version control -/

namespace Git

theorem isSealed_reportRefusal (command : Command) (directory reason : String) :
    (reportRefusal command directory reason : Action σ Int).IsSealed IsRemark := by
  refine .bind (isSealed_log ?_) fun _ => .pure _
  simp

theorem isSealed_reportFailure (code : Int) (stderr : String) :
    (reportFailure code stderr : Action σ Unit).IsSealed IsRemark := by
  unfold reportFailure
  split
  · refine isSealed_log ?_
    simp
  · exact .pure _

theorem isSealed_tryLeaveBehind (target : String) (outcome : GitOutcome) :
    (tryLeaveBehind target outcome : Action σ (Option String)).IsSealed IsRemark := by
  unfold tryLeaveBehind
  refine .tryCatch (.bind (.changeFiles _) fun _ => .pure _) fun failure => ?_
  split
  · exact .look (fun w => .pure _) fun w v hfiles _ => by rw [hfiles]
  · exact .throw _

theorem isSealed_report (command : Command) (directory : String) (outcome : GitOutcome)
    (refused? : Option String) :
    (report command directory outcome refused? : Action σ Int).IsSealed IsRemark := by
  cases refused? with
  | some reason => exact isSealed_reportRefusal _ _ _
  | none => exact .bind (isSealed_reportFailure _ _) fun _ => .pure _

theorem isSealed_finish (command : Command) (directory : String) (outcome : GitOutcome) :
    (finish command directory outcome : Action σ Int).IsSealed IsRemark := by
  unfold finish
  split
  · exact isSealed_reportRefusal _ _ _
  · refine .bind (isSealed_tryLeaveBehind _ _) fun refused? => ?_
    split
    · exact .throw _
    · exact isSealed_report _ _ _ refused?

theorem isSealed_start (command : Command) (directory : String) :
    (start command directory : Action σ Int).IsSealed IsRemark := by
  refine .look (fun w => ?_) fun w v _ harguments => by
    rw [Command.unfit?, Command.unfit?, harguments]
  split
  · exact .throw _
  · exact .bind (.drawOutcome _) fun outcome => isSealed_finish command directory outcome

theorem isSealed_run (command : Command) (directory : String) :
    (run command directory : Action σ Int).IsSealed IsRoutine :=
  .bind (.record rfl) fun _ =>
    (isSealed_start command directory).mono fun _ => IsRemark.isRoutine

/-- A run of version control is one milestone. -/
theorem passes_run {command : Command} {directory : String} {code : Int} {s t : Situation σ}
    (h : (run command directory).run s = .ok code t) :
    Situation.Passes [.git command.arguments directory] s t := by
  obtain ⟨_, u, hrecord, h⟩ := Action.run_bind_eq_ok.1 h
  cases hrecord
  exact (s.passes_record rfl).trans ((isSealed_start command directory).isQuietSince h)

end Git

/-! ## Copies -/

namespace Corpus

theorem isSealed_update (corpus : Corpus) (repo : Repo) :
    (corpus.update repo : Action σ Unit).IsSealed IsRoutine := by
  refine .bind (isSealed_note ?_) fun _ =>
    .bind (Git.isSealed_run _ _) fun code => ?_
  · simp
  · dsimp only
    split
    · refine .bind (isSealed_note ?_) fun _ => .record rfl
      simp
    · exact .record rfl

theorem isSealed_clone (corpus : Corpus) (repo : Repo) :
    (corpus.clone repo : Action σ Bool).IsSealed IsRoutine := by
  refine .bind (.changeFiles _) fun _ =>
    .bind (isSealed_note ?_) fun _ =>
      .bind (Git.isSealed_run _ _) fun code => ?_
  · simp
  · split
    · refine .bind (isSealed_note ?_) fun _ => .pure _
      simp
    · exact .bind (.record rfl) fun _ => .pure _

theorem isSealed_ensureLocal (corpus : Corpus) (repo : Repo) :
    (corpus.ensureLocal repo : Action σ Bool).IsSealed IsRoutine := by
  refine .look (fun w => ?_) fun w v hfiles _ => by rw [hfiles]
  split
  · exact .bind (isSealed_update _ _) fun _ => .pure _
  · exact isSealed_clone _ _

/-- Providing a copy is sealed, and no turning point. -/
theorem isRoutine_provide (corpus : Corpus) (localOnly : Bool) (repo : Repo) :
    (corpus.provide localOnly repo : Action σ Bool).IsSealed IsRoutine := by
  unfold provide
  split
  · exact .pure _
  · exact isSealed_ensureLocal _ _

/-- Providing a copy is sealed. -/
theorem isSealed_provide (corpus : Corpus) (localOnly : Bool) (repo : Repo) :
    (corpus.provide localOnly repo : Action σ Bool).IsSealed IsNoAnalysis :=
  (isRoutine_provide corpus localOnly repo).mono fun _ => IsRoutine.isNoAnalysis

/-! ## Errands -/

/-- The runs of version control and the pauses while a copy is provided, which is there already
or not. -/
def errands (corpus : Corpus) (localOnly : Bool) (repo : Repo) (copied available : Bool) :
    List Event :=
  if localOnly then []
  else if copied then
    [.git Git.Command.pull.arguments (corpus.pathTo repo), .pause corpus.updatePause?]
  else
    .git (Git.Command.clone repo.cloneAddress repo.name).arguments (corpus.ownerDirectory repo) ::
      if available then [.pause corpus.clonePause?] else []

theorem passes_update {corpus : Corpus} {repo : Repo} {s t : Situation σ}
    (h : (corpus.update repo).run s = .ok () t) :
    Situation.Passes
      [.git Git.Command.pull.arguments (corpus.pathTo repo), .pause corpus.updatePause?] s t := by
  obtain ⟨_, u, hlog, h⟩ := Action.run_bind_eq_ok.1 h
  have hsaid : Situation.Passes [] s u := (isSealed_log (by simp)).isQuietSince hlog
  obtain ⟨code, v, hrun, h⟩ := Action.run_bind_eq_ok.1 h
  have hpulled := hsaid.trans (Git.passes_run hrun)
  dsimp only at h
  split at h
  · obtain ⟨_, w, hlog, h⟩ := Action.run_bind_eq_ok.1 h
    have hfailed : Situation.Passes [] v w := (isSealed_log (by simp)).isQuietSince hlog
    cases h
    exact (hpulled.trans hfailed).trans (w.passes_record rfl)
  · cases h
    exact hpulled.trans (v.passes_record rfl)

theorem passes_clone {corpus : Corpus} {repo : Repo} {available : Bool} {s t : Situation σ}
    (h : (corpus.clone repo).run s = .ok available t) :
    Situation.Passes
      (.git (Git.Command.clone repo.cloneAddress repo.name).arguments
        (corpus.ownerDirectory repo) :: if available then [.pause corpus.clonePause?] else [])
      s t := by
  obtain ⟨_, r, hmake, h⟩ := Action.run_bind_eq_ok.1 h
  have hmade : Situation.Passes [] s r := (Action.IsSealed.changeFiles _).isQuietSince hmake
  obtain ⟨_, u, hlog, h⟩ := Action.run_bind_eq_ok.1 h
  have hsaid : Situation.Passes [] r u := (isSealed_log (by simp)).isQuietSince hlog
  obtain ⟨code, v, hrun, h⟩ := Action.run_bind_eq_ok.1 h
  have hcloned := (hmade.trans hsaid).trans (Git.passes_run hrun)
  split at h
  · obtain ⟨_, w, hlog, h⟩ := Action.run_bind_eq_ok.1 h
    have hfailed : Situation.Passes [] v w := (isSealed_log (by simp)).isQuietSince hlog
    cases h
    exact hcloned.trans hfailed
  · obtain ⟨_, w, hpause, h⟩ := Action.run_bind_eq_ok.1 h
    cases hpause
    cases h
    exact hcloned.trans (v.passes_record rfl)

/-- An existing copy is updated, and otherwise the repository is cloned, with a pause after each. -/
theorem passes_provide {corpus : Corpus} {localOnly : Bool} {repo : Repo} {available : Bool}
    {s t : Situation σ} (h : (corpus.provide localOnly repo).run s = .ok available t) :
    Situation.Passes
      (corpus.errands localOnly repo (s.world.files.exists? (corpus.pathTo repo)) available)
      s t := by
  rw [provide] at h
  unfold errands
  split at h
  · rename_i hlocal
    cases h
    rw [if_pos hlocal]
    exact s.isQuietSince_self
  · rename_i hlocal
    rw [if_neg hlocal]
    obtain ⟨w, u, hworld, h⟩ := Action.run_bind_eq_ok.1 h
    cases hworld
    split at h
    · rename_i hcopied
      obtain ⟨_, v, hupdate, h⟩ := Action.run_bind_eq_ok.1 h
      cases h
      rw [if_pos hcopied]
      exact passes_update hupdate
    · rename_i hcopied
      rw [if_neg hcopied]
      exact passes_clone h

end Corpus
end FeatureCensus
