import FeatureCensus.Proofs.Survey.Endings
import FeatureCensus.Proofs.Survey.Runs

/-!
# How many projects a run analyzes

Whether enough discovered projects have been analyzed is looked up after each analysis, and not
before the first one.  So a run that may analyze some number of projects never analyzes more, but a
run that may analyze none still analyzes one.  Private projects do not count.

Main results:

- Theorem {lit}`Survey.visit_max`: fewer projects than one are taken for one.
- Theorem {lit}`Survey.length_admitted_le`: the number of discovered projects that are analyzed.
- Theorem {lit}`Survey.exists_begun_run`: what a run analyzes, however it ends.
- Theorem {lit}`Survey.run_caps`: how much that is at most.
-/

namespace FeatureCensus
namespace Survey

variable {survey : Survey} {options : RunOptions} {corpus : Corpus} {localOnly : Bool} {n : Int}
  {s : Situation Tally}

/-! ## Single visits -/

/-- Fewer projects than one are taken for one. -/
theorem visit_max (survey : Survey) (n : Int) : survey.visit n = survey.visit (max n 1) := by
  funext path s
  change (survey.visit n path).run s = (survey.visit (max n 1) path).run s
  rw [visit, visit]
  split
  · rfl
  · rw [EStateM.run_bind, EStateM.run_bind]
    cases (survey.analyzer.countProject path).run s with
    | error failure t => rfl
    | ok _ t =>
      have hsame : decide (((t.own.analyzed + 1 : Nat) : Int) < n) =
          decide (((t.own.analyzed + 1 : Nat) : Int) < max n 1) :=
        decide_eq_decide.2 (by omega)
      exact congrArg (EStateM.Result.ok · (advanced t)) hsame

/-! ## Discoveries -/

/-- A discovered repository after which the discovery goes on has been counted if its copy was
analyzed, and more projects may be analyzed. -/
theorem analyzed_of_handle {found : Found} {t : Situation Tally}
    (hrun : (corpus.handle localOnly (survey.visit n) found).run s = .ok true t)
    (h : (s.own.analyzed : Int) < max n 1) :
    t.own.analyzed = s.own.analyzed +
        ((corpus.handover? localOnly found s).toList.filter survey.admits).length ∧
      (t.own.analyzed : Int) < max n 1 := by
  rcases corpus.handle_cases localOnly (survey.visit n) found s with
    ⟨hnone, haside⟩ | ⟨handover, hsome, haside, hhandle⟩
  · rw [hrun] at haside
    have hown : t.own = s.own := haside.own
    rw [hnone, hown]
    exact ⟨rfl, h⟩
  · have hends := visit_ends survey n handover
    rw [← hhandle, hrun] at hends
    generalize hresult : EStateM.Result.ok true t = result at hends
    cases hends with
    | excluded hadmits hcompletes hbegins =>
      cases hresult
      rw [hsome, hbegins.analyzed, haside.own]
      exact ⟨by simp [hadmits], h⟩
    | failed hadmits hcompletes hbegins => cases hresult
    | completed hadmits hcompletes hbegins =>
      rename_i u
      obtain ⟨hmore, rfl⟩ := EStateM.Result.ok.inj hresult
      have hless := of_decide_eq_true hmore.symm
      have hanalyzed : u.own.analyzed = s.own.analyzed := by rw [hbegins.analyzed, haside.own]
      have hadvanced : (advanced u).own.analyzed = u.own.analyzed + 1 := rfl
      rw [hsome, hadvanced, hanalyzed]
      exact ⟨by simp [hadmits], by omega⟩

/-- As long as fewer projects have been analyzed than may be, no more are analyzed after that. -/
theorem length_admitted_le (survey : Survey) (corpus : Corpus) (localOnly : Bool) (n : Int)
    (steps : List Discovery.Step) {s : Situation Tally}
    (h : (s.own.analyzed : Int) < max n 1) :
    (((corpus.handovers survey.source localOnly (survey.visit n) steps s).filter
      survey.admits).length : Int) ≤ max n 1 - s.own.analyzed := by
  induction steps generalizing s with
  | nil => simpa [Corpus.handovers] using Int.le_of_lt h
  | cons step rest ih =>
    cases step with
    | failed page failure => simpa [Corpus.handovers] using Int.le_of_lt h
    | request page =>
      rw [← (Action.respects_endOf (Discovery.isAside_requestPage survey.source page) s).own] at h ⊢
      exact ih h
    | found found =>
      have hone : ((corpus.handover? localOnly found s).toList.filter
          survey.admits).length ≤ 1 :=
        (List.length_filter_le _ _).trans Option.length_toList_le
      have hlast : ((((corpus.handover? localOnly found s).toList ++ []).filter
          survey.admits).length : Int) ≤ max n 1 - s.own.analyzed := by
        rw [List.append_nil]
        omega
      rw [Corpus.handovers]
      cases hrun : (corpus.handle localOnly (survey.visit n) found).run s with
      | error failure t => exact hlast
      | ok goOn t =>
        cases goOn with
        | false => exact hlast
        | true =>
          obtain ⟨hanalyzed, hfewer⟩ := analyzed_of_handle hrun h
          have hrest := ih hfewer
          rw [List.filter_append, List.length_append]
          dsimp only
          omega

/-! ## Runs -/

/-- When a run begins to count, at least one project may be analyzed. -/
theorem analyzed_opening_lt (options : RunOptions) (n : Int) (s : Situation Tally) :
    ((opening options n s).own.analyzed : Int) < max n 1 := by
  have hnone : (opening options n s).own.analyzed = 0 := rfl
  omega

/-- Of the copies that are handed over in a run at most as many are analyzed as may be. -/
theorem length_discovered_le (survey : Survey) (corpus : Corpus) (options : RunOptions) (n : Int)
    (s : Situation Tally) :
    (((survey.handovers corpus options.localOnly n (opening options n s)).filter
      survey.admits).length : Int) ≤ max n 1 := by
  have hle := length_admitted_le survey corpus options.localOnly n
    (Discovery.steps survey.source (opening options n s).world.answers)
    (analyzed_opening_lt options n s)
  exact hle.trans (Int.sub_le_self _ (Int.natCast_nonneg _))

/-- However a run ends, nothing of one's own changes after its count. -/
theorem own_run (hcorpus : survey.corpus? = some corpus) (hmax : options.maxProjects? = some n)
    (s : Situation Tally) :
    (Situation.endOf ((survey.run options).run s)).own = (Situation.endOf
      ((survey.count corpus options.localOnly n).run (opening options n s))).own := by
  rw [run_ends hcorpus hmax]
  cases (survey.count corpus options.localOnly n).run (opening options n s) with
  | error failure u => exact own_noting failure u
  | ok _ u =>
    have hsaved := Action.respects_endOf (Saving.isIdle_save survey.destination u.own.session)
      (closing u)
    exact hsaved.own

/-- What happens after the count of a run is no analysis. -/
theorem exists_adds_run (hcorpus : survey.corpus? = some corpus)
    (hmax : options.maxProjects? = some n) (s : Situation Tally) :
    ∃ later, later.filterMap Event.analyzed? = [] ∧
      Situation.Adds (fun _ => true) later
        (.endOf ((survey.count corpus options.localOnly n).run (opening options n s)))
        (.endOf ((survey.run options).run s)) := by
  rw [run_ends hcorpus hmax]
  cases (survey.count corpus options.localOnly n).run (opening options n s) with
  | error failure u =>
    have hclosed := (noting failure u).adds_record (fun _ => true) .progressClosed
    refine ⟨_, ?_, (adds_noting (fun _ => true) failure u).trans hclosed⟩
    by_cases hinterrupted : failure = .interrupted
    · rw [decide_eq_true hinterrupted, if_pos rfl]
      rfl
    · rw [decide_eq_false hinterrupted, if_neg Bool.false_ne_true]
      rfl
  | ok _ u =>
    have hclosed := u.adds_record (fun _ => true) .progressClosed
    have hsaved := Action.respects_endOf (Saving.adds_save survey.destination u.own.session)
      (closing u)
    refine ⟨_, ?_, hclosed.trans hsaved⟩
    rw [List.filterMap_append, Saving.analyzed?_announcements]
    rfl

/-- A run analyzes the copies that are handed over, unless they are excluded, and then private
projects in their order, however it ends.  Each of them counts one repository. -/
theorem exists_begun_run (hcorpus : survey.corpus? = some corpus)
    (hmax : options.maxProjects? = some n) (s : Situation Tally) :
    ∃ begun, begun <+: survey.privateProjects ∧
      (Situation.eventsSince (.endOf ((survey.run options).run s)) s).filterMap Event.analyzed? =
        ((survey.handovers corpus options.localOnly n (opening options n s)).filter
          survey.admits).map (·.path) ++ begun ∧
      (Situation.endOf ((survey.run options).run s)).own.session.repositories =
        s.own.session.repositories +
          ((survey.handovers corpus options.localOnly n (opening options n s)).filter
            survey.admits).length + begun.length := by
  obtain ⟨begun, hprefix, hbegins⟩ :=
    survey.exists_begins_count corpus options.localOnly n (opening options n s)
  obtain ⟨later, hlater, hend⟩ := exists_adds_run hcorpus hmax s
  have hvisits := survey.visits_discover corpus options.localOnly n (opening options n s)
  refine ⟨begun, hprefix, ?_, ?_⟩
  · have hopened := s.adds_record Event.isTurn
      (.progressOpened (progressTotal? n) options.hideProgress?)
    have hturns := (hopened.trans (hvisits.turns.trans hbegins.turns)).trans
      (hend.restrict (fun _ _ => rfl))
    rw [← Event.filterMap_analyzed?_filter_isTurn, hturns.filter_eventsSince,
      List.filterMap_append, List.filterMap_append, List.filterMap_append,
      filterMap_analyzed?_turns, Stage.filterMap_analyzed?_map_analysis,
      Event.filterMap_analyzed?_filter_isTurn, Event.filterMap_analyzed?_filter_isTurn, hlater,
      List.append_nil]
    rfl
  · rw [own_run hcorpus hmax, hbegins.repositories, hvisits.repositories]
    rfl

/-- A run analyzes discovered projects and then private ones.  Each of them counts one repository,
and of the discovered projects there are at most as many as may be analyzed; but where none may be
analyzed, one may be nevertheless, since fewer than one are taken for one. -/
theorem run_caps (survey : Survey) (options : RunOptions) {corpus : Corpus} {n : Int}
    (hcorpus : survey.corpus? = some corpus) (hmax : options.maxProjects? = some n)
    (s : Situation Tally) :
    let handovers := survey.handovers corpus options.localOnly n (opening options n s)
    let discovered := (handovers.filter survey.admits).map (·.path)
    let t := Situation.endOf ((survey.run options).run s)
    ∃ begun, begun <+: survey.privateProjects ∧
      (t.eventsSince s).filterMap Event.analyzed? = discovered ++ begun ∧
      t.own.session.repositories =
        s.own.session.repositories + discovered.length + begun.length ∧
      (discovered.length : Int) ≤ max n 1 ∧
      survey.count corpus options.localOnly n =
        survey.count corpus options.localOnly (max n 1) := by
  intro handovers discovered t
  obtain ⟨begun, hprefix, hanalyzed, hrepositories⟩ := exists_begun_run hcorpus hmax s
  have hbound : (discovered.length : Int) ≤ max n 1 := by
    rw [List.length_map]
    exact length_discovered_le survey corpus options n s
  refine ⟨begun, hprefix, hanalyzed, ?_, hbound, ?_⟩
  · rw [List.length_map]
    exact hrepositories
  · rw [count, count, visit_max]

/-- A survey of local copies that has a private project. -/
def cappedSurvey : Survey where
  corpus? := some { base := "repos" }
  privateProjects := ["own"]

/-- The situation before a page with two repositories. -/
def cappedStart : Situation Tally where
  world := { answers := [closingPage] }
  own := { session := { counters := [] } }

/-- Only one of two discovered projects is analyzed if no more may be. -/
theorem run_caps_cappedStart :
    let t := Situation.endOf ((cappedSurvey.run { localOnly := true, maxProjects? := some 1 }).run
      cappedStart)
    ∃ begun, begun <+: ["own"] ∧
      (t.eventsSince cappedStart).filterMap Event.analyzed? = "repos/o/a" :: begun ∧
      t.own.session.repositories = 1 + begun.length := by
  have hdiscovered : ((cappedSurvey.handovers { base := "repos" } true 1
      (opening { localOnly := true, maxProjects? := some 1 } 1 cappedStart)).filter
        cappedSurvey.admits).map (·.path) = ["repos/o/a"] := by
    decide +kernel
  obtain ⟨begun, hprefix, hanalyzed, hrepositories, -⟩ := run_caps cappedSurvey
    { localOnly := true, maxProjects? := some 1 } rfl rfl cappedStart
  rw [hdiscovered] at hanalyzed hrepositories
  exact ⟨begun, hprefix, hanalyzed, hrepositories⟩

/-- A page with one repository. -/
def singlePage : PageAnswer :=
  .response (some 200) "OK" ("\x7b\"total_count\":1,\"items\":[" ++
    "\x7b\"full_name\":\"o/n\",\"clone_url\":\"u\"\x7d]\x7d")

/-- The situation before a page with one repository, of which there is an empty local copy. -/
def singleStart : Situation Tally where
  world := {
    files := ((FileTree.empty.put (workingDirectory ++ ["b"]) .directory).put
      (workingDirectory ++ ["b", "o"]) .directory).put
      (workingDirectory ++ ["b", "o", "n"]) .directory
    answers := [singlePage] }
  own := { session := { counters := [] } }

/-- A run that may analyze no discovered project analyzes one. -/
theorem not_capped_singleStart :
    ∃ t, (({ corpus? := some { base := "b" } } : Survey).run
        { localOnly := true, maxProjects? := some 0 }).run singleStart = .ok () t ∧
      (t.eventsSince singleStart).filterMap Event.analyzed? = ["b/o/n"] ∧
      ¬ (((t.eventsSince singleStart).filterMap Event.analyzed?).length : Int) ≤ 0 := by
  have hanalyzed : analyzedSince? singleStart (({ corpus? := some { base := "b" } } : Survey).run
      { localOnly := true, maxProjects? := some 0 } |>.run singleStart) = some ["b/o/n"] := by
    decide +kernel
  obtain ⟨t, hrun, hpaths⟩ := exists_of_analyzedSince? hanalyzed
  refine ⟨t, hrun, hpaths, ?_⟩
  rw [hpaths]
  decide

end Survey
end FeatureCensus
