import FeatureCensus.Proofs.Results.Saving
import FeatureCensus.Proofs.Survey.Visits

/-!
# Endings of a run

A run that is begun opens its progress display and counts.  However the count ends, the display is
closed after it; an interruption, and nothing else, is logged before.  If the count has failed that
is the end of the run, with the same failure, and nothing has been saved.  Otherwise the results
are saved once, after the display has been closed.

Main results:

- Theorem {lit}`Survey.run_ends`: what a run comes to where its count fails or not.
- Theorem {lit}`Survey.run_closes`: the display is closed once, and nothing is saved before.
-/

namespace FeatureCensus
namespace Survey

variable {survey : Survey} {options : RunOptions} {corpus : Corpus} {n : Int}
  {s u : Situation Tally}

/-! ## Stations of a run -/

/-- The situation in which a run begins to count. -/
def opening (options : RunOptions) (n : Int) (s : Situation Tally) : Situation Tally where
  world := s.world.record (.progressOpened (progressTotal? n) options.hideProgress?)
  own := { s.own with analyzed := 0 }

/-- The situation after an interruption has been logged; no other failure is. -/
def noting (failure : Failure) (u : Situation Tally) : Situation Tally :=
  if failure = .interrupted then { u with world := u.world.record .interruption } else u

@[simp]
theorem own_noting (failure : Failure) (u : Situation Tally) :
    (noting failure u).own = u.own := by
  unfold noting
  split <;> rfl

@[simp]
theorem files_noting (failure : Failure) (u : Situation Tally) :
    (noting failure u).world.files = u.world.files := by
  unfold noting
  split <;> rfl

/-- The situation after the display has been closed. -/
def closing (u : Situation Tally) : Situation Tally :=
  { u with world := u.world.record .progressClosed }

theorem run_logInterruption (action : Action Tally Unit) (s : Situation Tally) :
    (logInterruption action).run s = match action.run s with
      | .ok _ t => .ok () t
      | .error failure t => .error failure (noting failure t) := by
  rw [logInterruption, Action.run_tryCatch]
  cases action.run s with
  | ok _ t => rfl
  | error failure t =>
    dsimp only
    unfold noting
    by_cases hinterrupted : failure = .interrupted
    · rw [if_pos hinterrupted, if_pos hinterrupted]
      rfl
    · rw [if_neg hinterrupted, if_neg hinterrupted]
      rfl

/-- A run is what comes of its count: a failure that ends it as soon as the display is closed, or
the saving of the results after that. -/
theorem run_ends (hcorpus : survey.corpus? = some corpus) (hmax : options.maxProjects? = some n)
    (s : Situation Tally) :
    (survey.run options).run s =
      match (survey.count corpus options.localOnly n).run (opening options n s) with
      | .error failure u => .error failure (closing (noting failure u))
      | .ok _ u => (Saving.save survey.destination u.own.session).run (closing u) := by
  have hcount := run_logInterruption (survey.count corpus options.localOnly n)
    (opening options n s)
  have hrun : (survey.run options).run s = (do
      Action.finallyDo (logInterruption (survey.count corpus options.localOnly n))
        (Action.record .progressClosed)
      survey.save : Action Tally Unit).run (opening options n s) := by
    rw [run, hcorpus, hmax]
    rfl
  have hfinally : (Action.finallyDo (logInterruption (survey.count corpus options.localOnly n))
      (Action.record .progressClosed)).run (opening options n s) =
        match (logInterruption (survey.count corpus options.localOnly n)).run
          (opening options n s) with
        | .ok _ t => .ok () (closing t)
        | .error failure t => .error failure (closing t) := by
    rw [Action.run_finallyDo]
    cases (logInterruption (survey.count corpus options.localOnly n)).run
      (opening options n s) <;> rfl
  rw [hrun, EStateM.run_bind, hfinally, hcount]
  cases (survey.count corpus options.localOnly n).run (opening options n s) with
  | error failure t => rfl
  | ok _ t => rfl

/-! ## Turning points of a run -/

theorem filter_map_analysis {kind : Event → Bool} (h : ∀ path, kind (.analysis path) = false)
    (paths : List String) : (paths.map Event.analysis).filter kind = [] := by
  rw [List.filter_eq_nil_iff]
  intro event hevent
  obtain ⟨path, -, rfl⟩ := List.mem_map.1 hevent
  rw [h path]
  exact Bool.false_ne_true

/-- The turning points of a count are those of its visits and the analyses of private projects. -/
theorem exists_adds_count (survey : Survey) (corpus : Corpus) (localOnly : Bool) (n : Int)
    (s : Situation Tally) :
    ∃ begun, begun <+: survey.privateProjects ∧
      Situation.Adds Event.isTurn
        ((survey.handovers corpus localOnly n s).flatMap survey.turns ++ begun.map .analysis) s
        (.endOf ((survey.count corpus localOnly n).run s)) := by
  obtain ⟨begun, hprefix, hbegins⟩ := survey.exists_begins_count corpus localOnly n s
  exact ⟨begun, hprefix, (survey.visits_discover corpus localOnly n s).turns.trans hbegins.turns⟩

/-- The display advances during a count once for each analysis that gets to its end. -/
theorem adds_isProgress_count (survey : Survey) (corpus : Corpus) (localOnly : Bool) (n : Int)
    (s : Situation Tally) :
    Situation.Adds Event.isProgress
      (List.replicate ((survey.handovers corpus localOnly n s).countP survey.completes)
        .progressAdvanced) s (.endOf ((survey.count corpus localOnly n).run s)) := by
  obtain ⟨begun, -, hadds⟩ := survey.exists_adds_count corpus localOnly n s
  have hprogress := hadds.restrict fun _ => Event.isTurn_of_isProgress
  rwa [List.filter_append, filter_isProgress_turns,
    filter_map_analysis Event.isProgress_analysis, List.append_nil] at hprogress

/-- No turning points of other kinds are made during a count. -/
theorem adds_nil_count {kind : Event → Bool} (hkind : ∀ event, kind event = true →
      event.isTurn = true) (hanalysis : ∀ path, kind (.analysis path) = false)
    (hadvanced : kind .progressAdvanced = false) (survey : Survey) (corpus : Corpus)
    (localOnly : Bool) (n : Int) (s : Situation Tally) :
    Situation.Adds kind [] s (.endOf ((survey.count corpus localOnly n).run s)) := by
  obtain ⟨begun, -, hadds⟩ := survey.exists_adds_count corpus localOnly n s
  have hnone := hadds.restrict hkind
  rwa [List.filter_append, filter_turns_eq_nil hanalysis hadvanced,
    filter_map_analysis hanalysis] at hnone

/-- A count spares whatever no coming run of version control for a discovered repository would
write. -/
theorem content?_count (survey : Survey) (corpus : Corpus) (localOnly : Bool) (n : Int)
    {s : Situation Tally} {place : Location}
    (h : ∀ repo ∈ Discovery.repos (Discovery.steps survey.source s.world.answers),
      corpus.Spares s.world repo place) :
    (Situation.endOf ((survey.count corpus localOnly n).run s)).world.files.content? place =
      s.world.files.content? place := by
  obtain ⟨begun, -, hbegins⟩ := survey.exists_begins_count corpus localOnly n s
  obtain ⟨hfiles, -⟩ := Basis.mk.inj hbegins.basis
  rw [hfiles]
  exact (survey.sparing_discover corpus localOnly n place s).content h

/-! ## Closing the display -/

/-- What has happened since the beginning of a run when its display is closed: it was opened, then
advanced once for each of some number of completed analyses, and was closed last; an interruption
was logged or not, and saving was not announced yet. -/
structure Closes (options : RunOptions) (n : Int) (completed : Nat) (interrupted : Bool)
    (s t : Situation Tally) : Prop where
  progress : Situation.Adds Event.isProgress
    (.progressOpened (progressTotal? n) options.hideProgress? ::
      (List.replicate completed .progressAdvanced ++ [.progressClosed])) s t
  interruptions : Situation.Adds Event.isInterruption
    (if interrupted then [.interruption] else []) s t
  announcements : Situation.Adds Event.isAnnouncement [] s t

theorem adds_noting (kind : Event → Bool) (failure : Failure) (u : Situation Tally) :
    Situation.Adds kind
      ((if decide (failure = .interrupted) then [.interruption] else []).filter kind) u
      (noting failure u) := by
  unfold noting
  by_cases hinterrupted : failure = .interrupted
  · rw [if_pos hinterrupted, decide_eq_true hinterrupted, if_pos rfl]
    exact u.adds_record kind _
  · rw [if_neg hinterrupted, decide_eq_false hinterrupted, if_neg Bool.false_ne_true]
    exact u.adds_self kind

/-- What happens while a run counts stands between the opening and the closing of the display. -/
theorem adds_closing {kind : Event → Bool} {options : RunOptions} {n : Int}
    {counted noted : List Event} {s u t : Situation Tally}
    (hcount : Situation.Adds kind counted (opening options n s) u)
    (hnoted : Situation.Adds kind noted u t) :
    Situation.Adds kind
      ([.progressOpened (progressTotal? n) options.hideProgress?].filter kind ++
        (counted ++ noted ++ [.progressClosed].filter kind)) s (closing t) :=
  (s.adds_record kind _).trans ((hcount.trans hnoted).trans (t.adds_record kind _))

/-- The display is closed after a count, when its failure has been noted. -/
theorem closes_closing {interrupted : Bool} {t : Situation Tally}
    (hcount : Situation.endOf
      ((survey.count corpus options.localOnly n).run (opening options n s)) = u)
    (hnoted : ∀ kind : Event → Bool, Situation.Adds kind
      ((if interrupted then [.interruption] else []).filter kind) u t) :
    Closes options n
      ((survey.handovers corpus options.localOnly n (opening options n s)).countP
        survey.completes) interrupted s (closing t) where
  progress := by
    have hadvanced :=
      survey.adds_isProgress_count corpus options.localOnly n (opening options n s)
    have hquiet : (if interrupted then [Event.interruption] else []).filter
        Event.isProgress = [] := by
      cases interrupted <;> rfl
    rw [hcount] at hadvanced
    have hprogress := adds_closing hadvanced (hnoted _)
    rwa [hquiet, List.append_nil] at hprogress
  interruptions := by
    have hnone := adds_nil_count (fun _ => Event.isTurn_of_isInterruption)
      Event.isInterruption_analysis rfl survey corpus options.localOnly n (opening options n s)
    have hlogged : (if interrupted then [Event.interruption] else []).filter
        Event.isInterruption = if interrupted then [.interruption] else [] := by
      cases interrupted <;> rfl
    rw [hcount] at hnone
    have hinterruptions := adds_closing hnone (hnoted _)
    have hclosed : [Event.progressClosed].filter Event.isInterruption = [] := rfl
    rw [hlogged, hclosed, List.nil_append, List.append_nil] at hinterruptions
    exact hinterruptions
  announcements := by
    have hnone := adds_nil_count (fun _ => Event.isTurn_of_isAnnouncement)
      Event.isAnnouncement_analysis rfl survey corpus options.localOnly n (opening options n s)
    have hquiet : (if interrupted then [Event.interruption] else []).filter
        Event.isAnnouncement = [] := by
      cases interrupted <;> rfl
    rw [hcount] at hnone
    have hannouncements := adds_closing hnone (hnoted _)
    rwa [hquiet] at hannouncements

/-! ## Whole runs -/

/-- However the count of a run ends, the display is closed once, after it has advanced once for
each discovered project whose analysis has got to its end.  A failure of the count is that of the
run; it has been logged if and only if it is an interruption, and saving has not begun: what no
coming run of version control for a discovered repository would write is as it was.  A count that
does not fail is followed by saving its results, once, and by nothing else. -/
theorem run_closes (survey : Survey) (options : RunOptions) {corpus : Corpus} {n : Int}
    (hcorpus : survey.corpus? = some corpus) (hmax : options.maxProjects? = some n)
    (s : Situation Tally) :
    let opened := opening options n s
    let completed :=
      (survey.handovers corpus options.localOnly n opened).countP survey.completes
    (∀ failure u, (survey.count corpus options.localOnly n).run opened = .error failure u →
      ∃ t, (survey.run options).run s = .error failure t ∧ t.own = u.own ∧
        Closes options n completed (decide (failure = .interrupted)) s t ∧
        ∀ place, (∀ repo ∈ Discovery.repos (Discovery.steps survey.source s.world.answers),
            corpus.Spares s.world repo place) →
          t.world.files.content? place = s.world.files.content? place) ∧
    ∀ u, (survey.count corpus options.localOnly n).run opened = .ok () u →
      ∃ closed, closed.own = u.own ∧ closed.world.files = u.world.files ∧
        Closes options n completed false s closed ∧
        (survey.run options).run s = (Saving.save survey.destination u.own.session).run closed ∧
        Situation.Adds (fun _ => true) (Saving.announcements survey.destination) closed
          (.endOf ((survey.run options).run s)) := by
  intro opened completed
  have hrun := run_ends hcorpus hmax s
  refine ⟨fun failure u hcount => ?_, fun u hcount => ?_⟩
  · have hended := congrArg Situation.endOf hcount
    rw [hcount] at hrun
    refine ⟨closing (noting failure u), hrun, own_noting failure u,
      closes_closing hended fun kind => adds_noting kind failure u, fun place hspares => ?_⟩
    have hopened : ∀ repo ∈ Discovery.repos (Discovery.steps survey.source opened.world.answers),
        corpus.Spares opened.world repo place :=
      fun repo hrepo => ⟨(hspares repo hrepo).clone, (hspares repo hrepo).pull⟩
    have hkept := content?_count survey corpus options.localOnly n hopened
    have hfiles : (closing (noting failure u)).world.files = u.world.files :=
      files_noting failure u
    rw [hended] at hkept
    rw [hfiles]
    exact hkept
  · have hended := congrArg Situation.endOf hcount
    have hsaved := Action.respects_endOf
      (Saving.adds_save survey.destination u.own.session) (closing u)
    rw [hcount] at hrun
    dsimp only at hrun
    rw [← hrun] at hsaved
    exact ⟨closing u, rfl, rfl, closes_closing hended fun kind => u.adds_self kind, hrun, hsaved⟩

/-- The answer to a request for the first page, with two repositories. -/
def closingPage : PageAnswer :=
  .response (some 200) "OK" ("\x7b\"total_count\":2,\"items\":[" ++
    "\x7b\"full_name\":\"o/a\",\"clone_url\":\"a\"\x7d," ++
    "\x7b\"full_name\":\"o/b\",\"clone_url\":\"b\"\x7d]\x7d")

/-- A survey that saves its results to a file. -/
def closingSurvey : Survey where
  corpus? := some { base := "repos" }
  destination := .database "results.db"

/-- The situation before the second repository is interrupted while it is cloned.  The file for the
results is there already. -/
def closingStart : Situation Tally where
  world := {
    files := FileTree.empty.put (workingDirectory ++ ["results.db"]) (.file (.bytes [1]))
    answers := [closingPage]
    script := [("clone a", [{ files := [("README", [])] }]),
      ("clone b", [{ interrupted := true }])] }
  own := { session := { counters := [] } }

/-- The failure of a result. -/
def failureOf? {α : Type} : EStateM.Result Failure (Situation Tally) α → Option Failure
  | .ok _ _ => none
  | .error failure _ => some failure

/-- A run that is interrupted after one of two analyses closes its display and leaves the file for
the results as it was. -/
theorem run_closes_closingStart :
    ∃ t, (closingSurvey.run {}).run closingStart = .error .interrupted t ∧
      Closes {} 1000000 1 true closingStart t ∧
      t.world.files.content? (workingDirectory ++ ["results.db"]) = some (.bytes [1]) := by
  have hends := run_closes closingSurvey {} rfl rfl closingStart
  obtain ⟨hfailure, hcompleted, hspares⟩ :
      failureOf? ((closingSurvey.count { base := "repos" } false 1000000).run
          (opening {} 1000000 closingStart)) = some .interrupted ∧
        (closingSurvey.handovers { base := "repos" } false 1000000
          (opening {} 1000000 closingStart)).countP closingSurvey.completes = 1 ∧
        ∀ repo ∈ Discovery.repos (Discovery.steps closingSurvey.source
          closingStart.world.answers), Corpus.Spares { base := "repos" } closingStart.world repo
            (workingDirectory ++ ["results.db"]) := by
    -- All of it is evaluated at once, since the discovery is the same.
    decide +kernel
  cases hcount : (closingSurvey.count { base := "repos" } false 1000000).run
      (opening {} 1000000 closingStart) with
  | ok _ u =>
    rw [hcount] at hfailure
    cases hfailure
  | error failure u =>
    rw [hcount] at hfailure
    obtain rfl := Option.some.inj hfailure
    obtain ⟨t, hrun, -, hcloses, hcontent⟩ := hends.1 _ u hcount
    rw [hcompleted] at hcloses
    exact ⟨t, hrun, hcloses, (hcontent _ hspares).trans rfl⟩

end Survey
end FeatureCensus
