import FeatureCensus.Proofs.Analysis.Projects
import FeatureCensus.Proofs.Results.Saving
import FeatureCensus.Proofs.Survey.Stages
import FeatureCensus.Survey.Survey

/-!
# Runs of a survey

A run that does not fail analyzes the first discovered projects that may be analyzed, and then
all private ones.  The steps of a discovery are followed one by one: as long as fewer projects
have been analyzed than may be, what happens is what the stages of the discovery tell.

Main results:

- Theorem {lit}`Survey.handle_eq_ok`: what comes of a discovered repository.
- Theorem {lit}`Survey.pursue_eq_ok`: what comes of the steps of a discovery.
- Theorem {lit}`Survey.run_analyzes`: what a run comes to.
-/

namespace FeatureCensus

/-! ## What happens -/

/-- What comes of a part of a run: these milestones, and so many counted repositories. -/
structure Leads (milestones : List Event) (count : Nat) (s t : Situation Tally) : Prop where
  passes : Situation.Passes milestones s t
  repositories : t.own.session.repositories = s.own.session.repositories + count

namespace Leads

theorem of_passes {milestones : List Event} {s t : Situation Tally}
    (h : Situation.Passes milestones s t)
    (hrepositories : t.own.session.repositories = s.own.session.repositories) :
    Leads milestones 0 s t :=
  ⟨h, by simp [hrepositories]⟩

theorem trans {before later : List Event} {count more : Nat} {s t u : Situation Tally}
    (hst : Leads before count s t) (htu : Leads later more t u) :
    Leads (before ++ later) (count + more) s u := by
  refine ⟨hst.passes.trans htu.passes, ?_⟩
  rw [htu.repositories, hst.repositories]
  omega

/-- A message that begins differently is no milestone. -/
theorem log (s : Situation Tally) (level : Level) {message : String}
    (h : message.toList.head? ≠ some 'A') :
    Leads [] 0 s { s with world := s.world.record (.log level message) } :=
  .of_passes (s.isQuietSince_record (Event.isMilestone_of_head h)) rfl

/-- Work that is no analysis leads to the milestones that reach out. -/
theorem after (s : Situation Tally) (basis : Basis) {work : List Event}
    (h : ∀ event ∈ work, IsNoAnalysis event) :
    Leads (work.filter (·.isOutward)) 0 s (s.after basis work) :=
  .of_passes ⟨work, s.events_after basis work, filter_isMilestone_of_isNoAnalysis h⟩ rfl

end Leads

namespace Survey

/-! ## Projects -/

/-- The analysis of a project is its milestone. -/
theorem leads_countProject {analyzer : Analyzer} {path : String} {s t : Situation Tally}
    (h : (analyzer.countProject path).run s = .ok () t) :
    t.basis = s.basis ∧ t.own.analyzed = s.own.analyzed ∧ Leads [.analysis path] 1 s t := by
  obtain ⟨hbasis, hanalyzed, hrepositories, hpasses⟩ := Analyzer.countProject_eq_ok h
  exact ⟨hbasis, hanalyzed, hpasses, by simpa using hrepositories⟩

/-- A provided copy is analyzed unless it is excluded, and the discovery goes on unless that was
the last project that may be analyzed. -/
theorem visit_eq_ok {survey : Survey} {n : Int} {path : String} {goOn : Bool}
    {s t : Situation Tally} (h : (survey.visit n path).run s = .ok goOn t)
    (skipFailures : Bool) (work : List Event) :
    let stage := Stage.provided path true work
    let projects := (stage.candidate? survey.excluded).toList
    t.basis = s.basis ∧ t.own.analyzed = s.own.analyzed + projects.length ∧
      Leads (projects.map .analysis) projects.length s t ∧
      goOn = !stage.isLast skipFailures survey.excluded (n - s.own.analyzed).toNat := by
  rw [visit] at h
  simp only [Stage.isLast, Stage.isFailure, Stage.candidate?]
  split at h
  · rename_i hexcluded
    obtain ⟨_, u, hlog, h⟩ := Action.run_bind_eq_ok.1 h
    cases hlog
    cases h
    rw [if_pos hexcluded]
    refine ⟨rfl, rfl, .log s .info ?_, rfl⟩
    simp
  · rename_i hexcluded
    obtain ⟨_, u, hcount, h⟩ := Action.run_bind_eq_ok.1 h
    obtain ⟨hbasis, hanalyzed, hleads⟩ := leads_countProject hcount
    obtain ⟨_, v, hown, h⟩ := Action.run_bind_eq_ok.1 h
    cases hown
    obtain ⟨_, w, hrecord, h⟩ := Action.run_bind_eq_ok.1 h
    cases hrecord
    cases h
    rw [if_neg hexcluded]
    have hquiet := Situation.isQuietSince_record
      { u with own := { u.own with analyzed := u.own.analyzed + 1 } }
      (show Event.progressAdvanced.isMilestone = false from rfl)
    refine ⟨hbasis, by simp [hanalyzed], hleads.trans (.of_passes hquiet rfl), ?_⟩
    have hmore : ((u.own.analyzed + 1 : Nat) : Int) < n ↔ ¬ (n - s.own.analyzed).toNat ≤ 1 := by
      omega
    exact (decide_eq_decide.2 hmore).trans decide_not

/-- What is said of a private repository is not yet its analysis. -/
theorem isMilestone_private (path : String) :
    (Event.log .info ("Analyzing private repository " ++ path)).isMilestone = false := by
  simp [Event.isMilestone, Event.isOutward, Event.analyzed?, Event.analysisNote]

/-- All private projects are analyzed, in their order. -/
theorem visitPrivate_eq_ok {survey : Survey} {paths : List String} {s t : Situation Tally}
    (h : (survey.visitPrivate paths).run s = .ok () t) :
    Leads (paths.map .analysis) paths.length s t := by
  induction paths generalizing s with
  | nil =>
    cases h
    exact .of_passes (Situation.isQuietSince_self _) rfl
  | cons path rest ih =>
    rw [visitPrivate] at h
    obtain ⟨_, u, hlog, h⟩ := Action.run_bind_eq_ok.1 h
    cases hlog
    obtain ⟨_, v, hcount, h⟩ := Action.run_bind_eq_ok.1 h
    have hquiet := Leads.of_passes (s.isQuietSince_record (isMilestone_private path)) rfl
    have hall := (hquiet.trans (leads_countProject hcount).2.2).trans (ih h)
    simpa [Nat.add_comm] using hall

/-! ## Steps of a discovery -/

/-- A discovered repository comes to a stage: its copy is provided as it would be from any
situation with the same files and coming outcomes, and is analyzed unless it is excluded. -/
theorem handle_eq_ok {survey : Survey} {corpus : Corpus} {localOnly : Bool} {n : Int}
    {found : Found} {goOn : Bool} {s t u : Situation Tally} (hbasis : u.basis = s.basis)
    (h : (corpus.handle localOnly (survey.visit n) found).run s = .ok goOn t) :
    ∃ repo available basis work, Repo.ofListed? found.listed = some repo ∧
      (corpus.provide localOnly repo).run u = .ok available (u.after basis work) ∧
      let stage := Stage.provided (corpus.pathTo repo) available work
      let projects := (stage.candidate? survey.excluded).toList
      t.basis = basis ∧ t.own.analyzed = s.own.analyzed + projects.length ∧
      Leads (stage.milestones survey.source survey.excluded) projects.length s t ∧
      goOn = !stage.isLast corpus.continueOnFailure survey.excluded
        (n - s.own.analyzed).toNat := by
  rw [Corpus.handle] at h
  split at h
  · cases h
  · rename_i repo hrepo
    obtain ⟨_, first, hlog, h⟩ := Action.run_bind_eq_ok.1 h
    cases hlog
    obtain ⟨available, second, hprovide, h⟩ := Action.run_bind_eq_ok.1 h
    obtain ⟨basis, work, hwork, rfl, hsame⟩ :=
      (Corpus.isSealed_provide corpus localOnly repo).of_run_eq_ok hprovide
    refine ⟨repo, available, basis, work, hrepo, hsame u (hbasis.trans rfl), ?_⟩
    have hhead : ("[" ++ toString found.index ++ "/" ++ toString found.total ++ "] " ++
        repo.fullName).toList.head? ≠ some 'A' := by simp
    have hfirst := (Leads.log s .info hhead).trans (Leads.after _ basis hwork)
    cases available with
    | true =>
      obtain ⟨htbasis, hanalyzed, hleads, hgoOn⟩ := visit_eq_ok h corpus.continueOnFailure work
      exact ⟨htbasis, hanalyzed, by simpa [Stage.milestones] using hfirst.trans hleads, hgoOn⟩
    | false =>
      simp only [Bool.false_eq_true, if_false] at h
      split at h
      · rename_i hskip
        obtain ⟨_, third, hlog, h⟩ := Action.run_bind_eq_ok.1 h
        cases hlog
        cases h
        refine ⟨rfl, rfl, hfirst.trans (.log _ _ ?_), ?_⟩
        · simp
        · simp [Stage.isLast, Stage.isFailure, Stage.candidate?, hskip]
      · rename_i hstop
        obtain ⟨_, third, hlog, h⟩ := Action.run_bind_eq_ok.1 h
        cases hlog
        cases h
        refine ⟨rfl, rfl, hfirst.trans (.log _ _ ?_), ?_⟩
        · simp
        · simp [Stage.isLast, Stage.isFailure, hstop]

/-- Requesting a page is a milestone, and nothing else comes of it but that an answer is used
up. -/
theorem requestPage_eq_ok {source : Source} {page : Nat} {s t : Situation Tally}
    (h : (Discovery.requestPage source page).run s = .ok () t) :
    t.basis = s.basis ∧ t.own = s.own ∧
      Leads [.request source.credentials? source.query? page source.perPage?] 0 s t := by
  obtain ⟨_, u, hlog, h⟩ := Action.run_bind_eq_ok.1 h
  cases hlog
  obtain ⟨_, v, hrecord, h⟩ := Action.run_bind_eq_ok.1 h
  cases hrecord
  cases h
  have hhead : ("Source \"" ++ Source.name ++ "\" searching GitHub for repos (page " ++
      toString page ++ ")").toList.head? ≠ some 'A' := by simp
  have hrequest : (Event.request source.credentials? source.query? page
      source.perPage?).isMilestone = true := rfl
  have hrequested := (Leads.log s .info hhead).passes.trans (Situation.passes_record _ hrequest)
  exact ⟨rfl, rfl, .of_passes hrequested rfl⟩

/-- The steps of a discovery come to the stages up to that of the last project that may be
analyzed.  Unless the run is cut short every step has its stage. -/
theorem pursue_eq_ok {survey : Survey} {corpus : Corpus} {localOnly : Bool} {n : Int}
    {steps : List Discovery.Step} {s t u : Situation Tally}
    (h : (Discovery.pursue survey.source (corpus.handle localOnly (survey.visit n)) steps).run s =
      .ok () t)
    (hbasis : u.basis = s.basis) (hfewer : (s.own.analyzed : Int) < n) :
    let stages := corpus.stages localOnly u steps
    let left := (n - s.own.analyzed).toNat
    let taken := Stage.upTo corpus.continueOnFailure survey.excluded left stages
    Leads (taken.flatMap (·.milestones survey.source survey.excluded))
        (Stage.candidates survey.excluded taken).length s t ∧
      (Stage.IsCutShort corpus.continueOnFailure survey.excluded left stages ∨
        stages.length = steps.length) := by
  induction steps generalizing s u with
  | nil =>
    cases h
    exact ⟨.of_passes (Situation.isQuietSince_self _) rfl, .inr rfl⟩
  | cons step rest ih =>
    cases step with
    | failed page failure => cases h
    | request page =>
      obtain ⟨_, v, hrequest, h⟩ := Action.run_bind_eq_ok.1 h
      obtain ⟨hvbasis, hvown, hleads⟩ := requestPage_eq_ok hrequest
      rw [← hvown] at hfewer ⊢
      obtain ⟨hrest, hcomplete⟩ := ih (u := u) h (hbasis.trans hvbasis.symm) hfewer
      refine ⟨?_, hcomplete.imp (.cons rfl) fun hlength => by simp [Corpus.stages, hlength]⟩
      have hall := hleads.trans hrest
      rw [Nat.zero_add] at hall
      exact hall
    | found found =>
      obtain ⟨goOn, v, hhandle, h⟩ := Action.run_bind_eq_ok.1 h
      obtain ⟨repo, available, basis, work, hrepo, hprovide, hvbasis, hanalyzed, hleads, rfl⟩ :=
        handle_eq_ok hbasis hhandle
      simp only [Corpus.stages, hrepo, hprovide, Situation.eventsSince_after]
      rw [Stage.upTo, List.flatMap_cons, Stage.candidates_cons, List.length_append]
      cases hlast : Stage.isLast corpus.continueOnFailure survey.excluded
        (n - s.own.analyzed).toNat (.provided (corpus.pathTo repo) available work) with
      | true =>
        rw [hlast] at h
        cases h
        refine ⟨hleads.trans ?_, .inl (Stage.isCutShort_of_isLast hlast _)⟩
        exact .of_passes (Situation.isQuietSince_self _) rfl
      | false =>
        rw [hlast] at h
        have hmore := Stage.length_lt_of_isLast (by omega) hlast
        obtain ⟨hrest, hcomplete⟩ :=
          ih (u := u.after basis work) h hvbasis.symm (by omega)
        have hleft : (n - v.own.analyzed).toNat = (n - s.own.analyzed).toNat -
            ((Stage.provided (corpus.pathTo repo) available work).candidate?
              survey.excluded).toList.length := by
          omega
        rw [hleft] at hrest hcomplete
        exact ⟨hleads.trans hrest, hcomplete.imp (.cons hlast) fun hlength => by simp [hlength]⟩

/-! ## Whole runs -/

theorem logInterruption_eq_ok {action : Action Tally Unit} {s t : Situation Tally}
    (h : (logInterruption action).run s = .ok () t) : action.run s = .ok () t := by
  rw [logInterruption, Action.run_tryCatch] at h
  split at h
  · rename_i hrun
    rw [hrun, ← h]
  · rename_i failure u hrun
    -- An interruption is logged and goes on.
    split at h
    · obtain ⟨_, v, -, hthrow⟩ := Action.run_bind_eq_ok.1 h
      cases hthrow
    · cases h

/-- The discovered projects come first, and then all private ones. -/
theorem count_eq_ok {survey : Survey} {corpus : Corpus} {localOnly : Bool} {n : Int}
    {s t u : Situation Tally} (h : (survey.count corpus localOnly n).run s = .ok () t)
    (hbasis : u.basis = s.basis) (hfewer : (s.own.analyzed : Int) < n) :
    let steps := Discovery.steps survey.source s.world.answers
    let stages := corpus.stages localOnly u steps
    let left := (n - s.own.analyzed).toNat
    let taken := Stage.upTo corpus.continueOnFailure survey.excluded left stages
    Leads (taken.flatMap (·.milestones survey.source survey.excluded) ++
          survey.privateProjects.map .analysis)
        ((Stage.candidates survey.excluded taken).length + survey.privateProjects.length) s t ∧
      (Stage.IsCutShort corpus.continueOnFailure survey.excluded left stages ∨
        stages.length = steps.length) := by
  obtain ⟨_, v, hvisit, hprivate⟩ := Action.run_bind_eq_ok.1 h
  obtain ⟨w, r, hworld, hpursue⟩ := Action.run_bind_eq_ok.1 hvisit
  cases hworld
  obtain ⟨hleads, hcomplete⟩ := pursue_eq_ok hpursue hbasis hfewer
  exact ⟨hleads.trans (visitPrivate_eq_ok hprivate), hcomplete⟩

/-- The progress display and saving add no milestones to a count that starts anew. -/
theorem runOn_eq_ok {survey : Survey} {corpus : Corpus} {options : RunOptions} {n : Int}
    {s t : Situation Tally} (hn : 1 ≤ n)
    (h : (survey.runOn corpus options n).run s = .ok () t) :
    let steps := Discovery.steps survey.source s.world.answers
    let stages := corpus.stages options.localOnly s steps
    let taken := Stage.upTo corpus.continueOnFailure survey.excluded n.toNat stages
    Leads (taken.flatMap (·.milestones survey.source survey.excluded) ++
          survey.privateProjects.map .analysis)
        ((Stage.candidates survey.excluded taken).length + survey.privateProjects.length) s t ∧
      (Stage.IsCutShort corpus.continueOnFailure survey.excluded n.toNat stages ∨
        stages.length = steps.length) := by
  obtain ⟨_, opened, hopen, h⟩ := Action.run_bind_eq_ok.1 h
  cases hopen
  obtain ⟨_, begun, hbegin, h⟩ := Action.run_bind_eq_ok.1 h
  cases hbegin
  obtain ⟨_, closed, hclose, hsave⟩ := Action.run_bind_eq_ok.1 h
  obtain ⟨counted, hcount, hclosed⟩ := Action.run_finallyDo_eq_ok hclose
  cases hclosed
  obtain ⟨_, saved, hown, hsave⟩ := Action.run_bind_eq_ok.1 hsave
  cases hown
  have hopened : Leads [] 0 s
      { world := s.world.record (.progressOpened (progressTotal? n) options.hideProgress?)
        own := { s.own with analyzed := 0 } } :=
    .of_passes (s.isQuietSince_record rfl) rfl
  obtain ⟨hleads, hcomplete⟩ := count_eq_ok (u := s) (logInterruption_eq_ok hcount) rfl
    (Int.lt_of_lt_of_le Int.zero_lt_one hn)
  have hend : Leads [] 0 counted t := by
    have hclosed := counted.isQuietSince_record
      (show Event.progressClosed.isMilestone = false from rfl)
    obtain ⟨hown, hquiet⟩ := (Saving.isIdle_save survey.destination _).of_run_eq_ok hsave
    refine .of_passes (Situation.IsQuietSince.trans hquiet hclosed) ?_
    rw [hown]
  refine ⟨?_, ?_⟩
  · simpa [World.record] using (hopened.trans hleads).trans hend
  · simpa [World.record] using hcomplete

/-- A run that does not fail analyzes the first discovered projects that may be analyzed, those
of the stages that it reaches, and then all private ones.  Each of them counts one repository.
Unless the run is cut short every step of the discovery has its stage.  The milestones of the run
are those of the stages up to the last of these projects, with the errands for all copies,
excluded or not; nothing reaches out when as many projects have been analyzed as may be. -/
theorem run_analyzes {survey : Survey} {options : RunOptions} {corpus : Corpus} {n : Int}
    {s t : Situation Tally} (hcorpus : survey.corpus? = some corpus)
    (hmax : options.maxProjects? = some n) (hn : 1 ≤ n)
    (h : (survey.run options).run s = .ok () t) :
    let steps := Discovery.steps survey.source s.world.answers
    let stages := corpus.stages options.localOnly s steps
    let projects := (Stage.candidates survey.excluded
      (Stage.reached corpus.continueOnFailure stages)).take n.toNat ++ survey.privateProjects
    let events := t.eventsSince s
    t.world.events.toList = s.world.events.toList ++ events ∧
      events.filterMap Event.analyzed? = projects ∧
      t.own.session.repositories = s.own.session.repositories + projects.length ∧
      (Stage.IsCutShort corpus.continueOnFailure survey.excluded n.toNat stages ∨
        stages.length = steps.length) ∧
      events.filter (·.isMilestone) =
        (Stage.upTo corpus.continueOnFailure survey.excluded n.toNat stages).flatMap
          (·.milestones survey.source survey.excluded) ++
        survey.privateProjects.map .analysis ∧
      (∀ path available work, .provided path available work ∈ stages →
        ∃ repo copied, path = corpus.pathTo repo ∧
          work.filter (·.isOutward) = corpus.errands options.localOnly repo copied available) ∧
      ∀ before event after, events = before ++ event :: after → event.isOutward = true →
        (before.filterMap Event.analyzed?).length < n.toNat := by
  intro steps stages projects events
  rw [run, hcorpus, hmax] at h
  obtain ⟨⟨hpasses, hrepositories⟩, hcomplete⟩ := runOn_eq_ok hn h
  obtain ⟨hevents, hmilestones⟩ := hpasses.eventsSince_eq
  have hfirst : Stage.candidates survey.excluded
      (Stage.upTo corpus.continueOnFailure survey.excluded n.toNat stages) =
        (Stage.candidates survey.excluded
          (Stage.reached corpus.continueOnFailure stages)).take n.toNat :=
    Stage.candidates_upTo (by omega) stages
  refine ⟨hevents, ?_, ?_, hcomplete, hmilestones, ?_, ?_⟩
  · rw [← Event.filterMap_analyzed?_filter, hmilestones, List.filterMap_append,
      Stage.analyzed_milestones, Stage.filterMap_analyzed?_map_analysis, hfirst]
  · rw [List.length_append, ← hfirst]
    exact hrepositories
  · intro path available work hstage
    exact Stage.errands_of_mem_stages hstage
  · intro before event after hsplit houtward
    have hsince : t.eventsSince s = before ++ event :: after := hsplit
    rw [hsince, List.filter_append,
      List.filter_cons_of_pos (Event.isMilestone_of_isOutward houtward)] at hmilestones
    rw [← Event.filterMap_analyzed?_filter]
    exact Stage.analyzed_before_lt (by omega) hmilestones.symm houtward

/-- The answer to a request for the first page, with two of three repositories. -/
def samplePage : PageAnswer :=
  .response (some 200) "OK" ("\x7b\"total_count\":3,\"items\":[" ++
    "\x7b\"full_name\":\"o/a\",\"clone_url\":\"a\"\x7d," ++
    "\x7b\"full_name\":\"o/b\",\"clone_url\":\"b\"\x7d]\x7d")

/-- A survey that excludes the first repository and has a private project. -/
def sampleSurvey : Survey where
  corpus? := some { base := "repos" }
  excluded := ["o/a"]
  privateProjects := ["own"]

/-- The situation in which a request for a second page would fail. -/
def sampleStart : Situation Tally where
  world := { answers := [samplePage] }
  own := { session := { counters := [] } }

/-- The projects that a run analyzes which does not fail. -/
def analyzedSince? (s : Situation Tally) :
    EStateM.Result Failure (Situation Tally) Unit → Option (List String)
  | .ok _ t => some ((t.eventsSince s).filterMap Event.analyzed?)
  | .error _ _ => none

theorem exists_of_analyzedSince? {s : Situation Tally} {paths : List String}
    {result : EStateM.Result Failure (Situation Tally) Unit}
    (h : analyzedSince? s result = some paths) :
    ∃ t, result = .ok () t ∧ (t.eventsSince s).filterMap Event.analyzed? = paths := by
  cases result with
  | error failure t => cases h
  | ok _ t => exact ⟨t, rfl, Option.some.inj h⟩

/-- The first repository is excluded, and after the second one no page is requested any more. -/
theorem run_analyzes_samplePage :
    ∃ t, (sampleSurvey.run { maxProjects? := some 1 }).run sampleStart = .ok () t ∧
      (t.eventsSince sampleStart).filterMap Event.analyzed? = ["repos/o/b", "own"] ∧
      t.own.session.repositories = 2 := by
  have hrun : analyzedSince? sampleStart
      ((sampleSurvey.run { maxProjects? := some 1 }).run sampleStart) =
        some ["repos/o/b", "own"] := by
    decide +kernel
  cases h : (sampleSurvey.run { maxProjects? := some 1 }).run sampleStart with
  | error failure t =>
    rw [h] at hrun
    cases hrun
  | ok _ t =>
    rw [h] at hrun
    have hprojects := Option.some.inj hrun
    obtain ⟨-, hanalyzed, hrepositories, -⟩ := run_analyzes rfl rfl (by decide) h
    rw [← hanalyzed, hprojects] at hrepositories
    exact ⟨t, rfl, hprojects, hrepositories⟩

end Survey
end FeatureCensus
