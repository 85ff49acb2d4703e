import FeatureCensus.Proofs.Analysis.Projects
import FeatureCensus.Proofs.Corpus.Handovers
import FeatureCensus.Proofs.Corpus.Sparing
import FeatureCensus.Survey.Survey

/-!
# Visits of a survey

A survey visits the copies that a corpus hands over.  A visit of an excluded copy does nothing; any
other one begins an analysis and advances the progress display if that gets to its end.  After the
discovery the private projects are analyzed one after the other.  So the turning points of all that
a run counts are told by the copies that are handed over, whether the count fails or not.

Main results:

- Theorem {lit}`Survey.visit_ends`: the three ends of a visit.
- Theorem {lit}`Survey.exists_begins_count`: what is counted after a discovery.
- Theorem {lit}`Survey.visits_discover`: what a discovery comes to.
- Theorem {lit}`Survey.filter_isProgress_turns`: one of them for each completed analysis.
-/

namespace FeatureCensus
namespace Survey

variable {survey : Survey} {n : Int} {handover : Handover Tally}

/-! ## Ends of a visit -/

/-- Whether a copy that is handed over is not excluded. -/
def admits (survey : Survey) (handover : Handover Tally) : Bool :=
  !Exclusion.isExcluded handover.path survey.excluded

/-- Whether a copy that is handed over is analyzed to the end. -/
def completes (survey : Survey) (handover : Handover Tally) : Bool :=
  survey.admits handover &&
    match (survey.analyzer.countProject handover.path).run handover.situation with
    | .ok _ _ => true
    | .error _ _ => false

/-- The situation after one more project has been analyzed. -/
def advanced (t : Situation Tally) : Situation Tally where
  world := t.world.record .progressAdvanced
  own := { t.own with analyzed := t.own.analyzed + 1 }

/-- The ends of a visit of a copy that is handed over. -/
inductive VisitEnd (survey : Survey) (n : Int) (handover : Handover Tally) :
    EStateM.Result Failure (Situation Tally) Bool → Prop
  /-- The copy is excluded. -/
  | excluded {t : Situation Tally} (hadmits : survey.admits handover = false)
      (hcompletes : survey.completes handover = false) (hbegins : Begins [] handover.situation t) :
      VisitEnd survey n handover (.ok true t)
  /-- The analysis fails. -/
  | failed {failure : Failure} {t : Situation Tally} (hadmits : survey.admits handover = true)
      (hcompletes : survey.completes handover = false)
      (hbegins : Begins [handover.path] handover.situation t) :
      VisitEnd survey n handover (.error failure t)
  /-- The analysis gets to its end, and whether to go on depends on the number of analyses. -/
  | completed {t : Situation Tally} (hadmits : survey.admits handover = true)
      (hcompletes : survey.completes handover = true)
      (hbegins : Begins [handover.path] handover.situation t) :
      VisitEnd survey n handover
        (.ok (decide (((t.own.analyzed + 1 : Nat) : Int) < n)) (advanced t))

/-- Every visit comes to one of these ends. -/
theorem visit_ends (survey : Survey) (n : Int) (handover : Handover Tally) :
    VisitEnd survey n handover ((survey.visit n handover.path).run handover.situation) := by
  obtain ⟨path, s⟩ := handover
  rw [visit]
  by_cases hexcluded : Exclusion.isExcluded path survey.excluded = true
  · have hadmits : survey.admits ⟨path, s⟩ = false := by
      rw [admits, hexcluded]
      rfl
    have hcompletes : survey.completes ⟨path, s⟩ = false := by
      rw [completes, hadmits]
      rfl
    rw [if_pos hexcluded, Action.run_log_bind]
    exact .excluded hadmits hcompletes (.record s (Event.isTurn_of_take (by simp)))
  · have hadmits : survey.admits ⟨path, s⟩ = true := by
      rw [admits, Bool.eq_false_iff.2 hexcluded]
      rfl
    have hbegins := survey.analyzer.begins_countProject path s
    rw [if_neg hexcluded, EStateM.run_bind]
    cases hcount : (survey.analyzer.countProject path).run s with
    | error failure t =>
      rw [hcount] at hbegins
      have hcompletes : survey.completes ⟨path, s⟩ = false := by
        rw [completes, hadmits]
        simp only [hcount, Bool.and_false]
      exact .failed hadmits hcompletes hbegins
    | ok _ t =>
      rw [hcount] at hbegins
      have hcompletes : survey.completes ⟨path, s⟩ = true := by
        rw [completes, hadmits]
        simp only [hcount, Bool.and_true]
      exact .completed hadmits hcompletes hbegins

/-- A visit leaves files and coming outcomes alone. -/
theorem basis_visit (survey : Survey) (n : Int) (path : String) :
    Action.Respects (fun s t => t.basis = s.basis) (survey.visit n path) := by
  intro s
  have hends := visit_ends survey n ⟨path, s⟩
  dsimp only at hends
  cases hvisit : (survey.visit n path).run s with
  | error failure t =>
    rw [hvisit] at hends
    cases hends with
    | failed _ _ hbegins => exact hbegins.basis
  | ok goOn t =>
    rw [hvisit] at hends
    cases hends with
    | excluded _ _ hbegins => exact hbegins.basis
    | completed _ _ hbegins => exact hbegins.basis

/-! ## What visits come to -/

/-- The turning points of a visit. -/
def turns (survey : Survey) (handover : Handover Tally) : List Event :=
  (if survey.admits handover then [.analysis handover.path] else []) ++
    if survey.completes handover then [.progressAdvanced] else []

/-- What visits of some copies come to, however they end: each copy that is not excluded counts one
repository, and each analysis that gets to its end is one more of the run. -/
structure Visits (survey : Survey) (handovers : List (Handover Tally))
    (s t : Situation Tally) : Prop where
  turns : Situation.Adds Event.isTurn (handovers.flatMap survey.turns) s t
  repositories : t.own.session.repositories =
    s.own.session.repositories + (handovers.filter survey.admits).length
  analyzed : t.own.analyzed = s.own.analyzed + handovers.countP survey.completes

namespace Visits

variable {s t u : Situation Tally}

theorem of_isAside (h : s.IsAside t) : Visits survey [] s t :=
  ⟨h.uneventful, by rw [h.own]; exact (Int.add_zero _).symm, by rw [h.own]; rfl⟩

theorem trans {before later : List (Handover Tally)} (h : Visits survey before s t)
    (hnext : Visits survey later t u) : Visits survey (before ++ later) s u where
  turns := by
    rw [List.flatMap_append]
    exact h.turns.trans hnext.turns
  repositories := by
    rw [hnext.repositories, h.repositories, List.filter_append, List.length_append]
    omega
  analyzed := by
    rw [hnext.analyzed, h.analyzed, List.countP_append]
    omega

theorem single {turns : List Event} (admitted completed : Nat)
    (hturns : survey.turns handover = turns)
    (hadmitted : [handover].countP survey.admits = admitted)
    (hcompleted : [handover].countP survey.completes = completed)
    (hadds : Situation.Adds Event.isTurn turns s t)
    (hrepositories : t.own.session.repositories = s.own.session.repositories + admitted)
    (hanalyzed : t.own.analyzed = s.own.analyzed + completed) :
    Visits survey [handover] s t where
  turns := by rwa [List.flatMap_singleton, hturns]
  repositories := by rwa [← List.countP_eq_length_filter, hadmitted]
  analyzed := by rwa [hcompleted]

/-- A visit comes to what its end tells. -/
theorem of_visit (survey : Survey) (n : Int) (handover : Handover Tally) :
    Visits survey [handover] handover.situation
      (.endOf ((survey.visit n handover.path).run handover.situation)) := by
  have hends := visit_ends survey n handover
  cases hvisit : (survey.visit n handover.path).run handover.situation with
  | error failure t =>
    rw [hvisit] at hends
    cases hends with
    | failed hadmits hcompletes hbegins =>
      have hturns : survey.turns handover = [.analysis handover.path] := by
        rw [Survey.turns, hadmits, hcompletes]
        rfl
      exact single 1 0 hturns (by simp [hadmits]) (by simp [hcompletes]) hbegins.turns
        hbegins.repositories hbegins.analyzed
  | ok goOn t =>
    rw [hvisit] at hends
    cases hends with
    | excluded hadmits hcompletes hbegins =>
      have hturns : survey.turns handover = [] := by
        rw [Survey.turns, hadmits, hcompletes]
        rfl
      exact single 0 0 hturns (by simp [hadmits]) (by simp [hcompletes]) hbegins.turns
        hbegins.repositories hbegins.analyzed
    | completed hadmits hcompletes hbegins =>
      rename_i u
      have hturns : survey.turns handover = [.analysis handover.path, .progressAdvanced] := by
        rw [Survey.turns, hadmits, hcompletes]
        rfl
      exact single 1 1 hturns (by simp [hadmits]) (by simp [hcompletes])
        (hbegins.turns.trans (u.adds_isTurn_record rfl)) hbegins.repositories
        (congrArg (· + 1) hbegins.analyzed)

end Visits

/-! ## Discoveries -/

/-- The copies that a corpus hands over to a survey from a situation on. -/
def handovers (survey : Survey) (corpus : Corpus) (localOnly : Bool) (n : Int)
    (s : Situation Tally) : List (Handover Tally) :=
  corpus.handovers survey.source localOnly (survey.visit n)
    (Discovery.steps survey.source s.world.answers) s

/-- The discovery of a survey. -/
def discover (survey : Survey) (corpus : Corpus) (localOnly : Bool) (n : Int) :
    Action Tally Unit :=
  corpus.visitAll survey.source localOnly (survey.visit n)

/-- A discovery comes to visits of the copies that are handed over. -/
theorem visits_discover (survey : Survey) (corpus : Corpus) (localOnly : Bool) (n : Int)
    (s : Situation Tally) :
    Visits survey (survey.handovers corpus localOnly n s) s
      (.endOf ((survey.discover corpus localOnly n).run s)) :=
  Corpus.leads_pursue Visits.of_isAside Visits.trans (Visits.of_visit survey n) _ s

/-- What is done in a discovery spares whatever no coming run of version control for a discovered
repository would write. -/
theorem sparing_discover (survey : Survey) (corpus : Corpus) (localOnly : Bool) (n : Int)
    (place : Location) (s : Situation Tally) :
    corpus.Sparing (Discovery.repos (Discovery.steps survey.source s.world.answers)) place s
      (.endOf ((survey.discover corpus localOnly n).run s)) := by
  have hvisit : ∀ path, Action.Respects
      (corpus.Sparing (Discovery.repos (Discovery.steps survey.source s.world.answers)) place)
      (survey.visit n path) :=
    fun path => (survey.basis_visit n path).mono fun _ _ => .of_basis
  exact Action.respects_endOf
    (Corpus.Sparing.pursue survey.source localOnly (List.Subset.refl _) hvisit) s

/-! ## Private projects -/

/-- Private projects are analyzed in their order until one of the analyses fails. -/
theorem exists_begins_visitPrivate (survey : Survey) (paths : List String) (s : Situation Tally) :
    ∃ begun, begun <+: paths ∧ Begins begun s (.endOf ((survey.visitPrivate paths).run s)) := by
  induction paths generalizing s with
  | nil => exact ⟨[], List.nil_prefix, .refl s⟩
  | cons path rest ih =>
    let noted : Situation Tally :=
      { s with world := s.world.record (.log .info ("Analyzing private repository " ++ path)) }
    have hnoted : Begins [] s noted := .record s (Event.isTurn_private path)
    have hbegins := survey.analyzer.begins_countProject path noted
    rw [visitPrivate, Action.run_log_bind, EStateM.run_bind]
    cases hcount : (survey.analyzer.countProject path).run noted with
    | error failure t =>
      rw [hcount] at hbegins
      exact ⟨[path], List.prefix_append [path] rest, hnoted.trans hbegins⟩
    | ok _ t =>
      rw [hcount] at hbegins
      obtain ⟨begun, hbegun, hrest⟩ := ih t
      exact ⟨path :: begun, List.cons_prefix_cons.2 ⟨rfl, hbegun⟩,
        (hnoted.trans hbegins).trans hrest⟩

/-- After a discovery some of the private projects are analyzed, and nothing else is done. -/
theorem exists_begins_count (survey : Survey) (corpus : Corpus) (localOnly : Bool) (n : Int)
    (s : Situation Tally) :
    ∃ begun, begun <+: survey.privateProjects ∧
      Begins begun (.endOf ((survey.discover corpus localOnly n).run s))
        (.endOf ((survey.count corpus localOnly n).run s)) := by
  have hcount : survey.count corpus localOnly n = (do
      survey.discover corpus localOnly n
      survey.visitPrivate survey.privateProjects) := rfl
  rw [hcount, EStateM.run_bind]
  cases (survey.discover corpus localOnly n).run s with
  | error failure t => exact ⟨[], List.nil_prefix, .refl t⟩
  | ok _ t => exact survey.exists_begins_visitPrivate survey.privateProjects t

/-! ## Kinds of turning points -/

/-- The analyses among the turning points are those of the copies that are not excluded. -/
theorem filterMap_analyzed?_turns (survey : Survey) (handovers : List (Handover Tally)) :
    (handovers.flatMap survey.turns).filterMap Event.analyzed? =
      (handovers.filter survey.admits).map (·.path) := by
  induction handovers with
  | nil => rfl
  | cons handover rest ih =>
    rw [List.flatMap_cons, List.filterMap_append, ih, List.filter_cons, turns]
    have hadvanced : Event.progressAdvanced.analyzed? = none := rfl
    cases survey.admits handover <;> cases survey.completes handover <;> simp [hadvanced]

/-- The display advances once for each analysis that gets to its end. -/
theorem filter_isProgress_turns (survey : Survey) (handovers : List (Handover Tally)) :
    (handovers.flatMap survey.turns).filter (·.isProgress) =
      List.replicate (handovers.countP survey.completes) .progressAdvanced := by
  induction handovers with
  | nil => rfl
  | cons handover rest ih =>
    rw [List.flatMap_cons, List.filter_append, ih, List.countP_cons, turns]
    have hadvanced : Event.progressAdvanced.isProgress = true := rfl
    cases survey.admits handover <;> cases survey.completes handover <;>
      simp [hadvanced, List.replicate_succ]

/-- Nothing else is among the turning points. -/
theorem filter_turns_eq_nil {kind : Event → Bool}
    (hanalysis : ∀ path, kind (.analysis path) = false)
    (hadvanced : kind .progressAdvanced = false) (survey : Survey)
    (handovers : List (Handover Tally)) : (handovers.flatMap survey.turns).filter kind = [] := by
  induction handovers with
  | nil => rfl
  | cons handover rest ih =>
    rw [List.flatMap_cons, List.filter_append, ih, turns]
    cases survey.admits handover <;> cases survey.completes handover <;>
      simp [hanalysis, hadvanced]

end Survey
end FeatureCensus
