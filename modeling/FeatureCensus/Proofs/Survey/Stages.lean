import FeatureCensus.Proofs.Corpus.Copies
import FeatureCensus.Survey.Exclusion

/-!
# Stages of a discovery

What comes of the steps of a discovery one after the other: pages are requested, and copies of
repositories are provided or not.  A run goes through the stages up to the first failure to
provide a copy, unless such repositories are skipped, and not beyond the last project that it
may analyze.

Main results:

- Theorem {lit}`Stage.candidates_upTo`: the projects of a run are the first ones that may be
  analyzed.
- Theorem {lit}`Stage.analyzed_milestones`: the analyses among the milestones are those of the
  projects.
- Theorem {lit}`Stage.analyzed_before_lt`: nothing reaches out after the last project.
-/

namespace FeatureCensus

/-! ## Stages -/

/-- What comes of a step of a discovery. -/
inductive Stage where
  /-- The page of this number is requested. -/
  | requested (page : Nat)
  /-- The copy at a path is provided or not, with what happens meanwhile. -/
  | provided (path : String) (available : Bool) (work : List Event)

/-- What comes of the steps of a discovery from a situation on, each copy being provided after
the earlier ones.  A step that fails ends them. -/
def Corpus.stages {σ : Type} (corpus : Corpus) (localOnly : Bool) :
    Situation σ → List Discovery.Step → List Stage
  | _, [] => []
  | s, .request page :: rest => .requested page :: corpus.stages localOnly s rest
  | _, .failed _ _ :: _ => []
  | s, .found found :: rest =>
    match Repo.ofListed? found.listed with
    | none => []
    | some repo =>
      match (corpus.provide localOnly repo).run s with
      | .error _ _ => []
      | .ok available t =>
        .provided (corpus.pathTo repo) available (t.eventsSince s) ::
          corpus.stages localOnly t rest

namespace Stage

/-- Whether no copy is provided. -/
def isFailure : Stage → Bool
  | provided _ false _ => true
  | _ => false

/-- The path of a provided copy that is not excluded. -/
def candidate? (excluded : List String) : Stage → Option String
  | provided path true _ => if Exclusion.isExcluded path excluded then none else some path
  | _ => none

/-- The paths of the provided copies that are not excluded. -/
def candidates (excluded : List String) (stages : List Stage) : List String :=
  stages.filterMap (·.candidate? excluded)

/-- The stages before the first failure, or all of them where failures are skipped. -/
def reached (skipFailures : Bool) (stages : List Stage) : List Stage :=
  if skipFailures then stages else stages.takeWhile (!·.isFailure)

/-- Whether a stage is the last one of a run that may analyze so many more projects. -/
def isLast (skipFailures : Bool) (excluded : List String) (n : Nat) (stage : Stage) : Bool :=
  stage.isFailure && !skipFailures || (stage.candidate? excluded).isSome && decide (n ≤ 1)

/-- The stages that a run goes through which may analyze a number of projects. -/
def upTo (skipFailures : Bool) (excluded : List String) : Nat → List Stage → List Stage
  | _, [] => []
  | n, stage :: rest =>
    stage ::
      if stage.isLast skipFailures excluded n then []
      else upTo skipFailures excluded (n - (stage.candidate? excluded).toList.length) rest

/-- Whether a run that may analyze a number of projects ends before the last one of the stages, or
with it: it has analyzed as many, or no copy was provided. -/
def IsCutShort (skipFailures : Bool) (excluded : List String) (n : Nat) (stages : List Stage) :
    Prop :=
  n ≤ (candidates excluded (reached skipFailures stages)).length ∨
    reached skipFailures stages ≠ stages

/-- The milestones of a stage.  An excluded copy is provided nevertheless. -/
def milestones (source : Source) (excluded : List String) : Stage → List Event
  | requested page => [.request source.credentials? source.query? page source.perPage?]
  | provided path available work =>
    work.filter (·.isOutward) ++
      ((provided path available work).candidate? excluded).toList.map .analysis

/-! ## Copies -/

/-- The stage of a repository makes the errands for its copy. -/
theorem errands_of_mem_stages {σ : Type} {corpus : Corpus} {localOnly : Bool} {s : Situation σ}
    {steps : List Discovery.Step} {path : String} {available : Bool} {work : List Event}
    (h : provided path available work ∈ corpus.stages localOnly s steps) :
    ∃ repo copied, path = corpus.pathTo repo ∧
      work.filter (·.isOutward) = corpus.errands localOnly repo copied available := by
  induction steps generalizing s with
  | nil => cases h
  | cons step rest ih =>
    cases step with
    | failed page failure => cases h
    | request page =>
      rcases List.mem_cons.1 h with hfirst | hlater
      · cases hfirst
      · exact ih hlater
    | found found =>
      rw [Corpus.stages] at h
      split at h
      · cases h
      · rename_i repo hrepo
        split at h
        · cases h
        · rename_i provided t hprovide
          rcases List.mem_cons.1 h with hfirst | hlater
          · cases hfirst
            obtain ⟨basis, events, hevents, rfl, -⟩ :=
              (Corpus.isSealed_provide corpus localOnly repo).of_run_eq_ok hprovide
            have herrands := (Corpus.passes_provide hprovide).eventsSince_eq.2
            rw [Situation.eventsSince_after, filter_isMilestone_of_isNoAnalysis hevents]
              at herrands
            exact ⟨repo, _, rfl, by rw [Situation.eventsSince_after]; exact herrands⟩
          · exact ih hlater

/-! ## Projects -/

variable {skipFailures : Bool} {excluded : List String}

theorem candidate?_of_isFailure {stage : Stage} (h : stage.isFailure = true) :
    stage.candidate? excluded = none := by
  cases stage with
  | requested page => rfl
  | provided path available work =>
    cases available with
    | true => cases h
    | false => rfl

theorem reached_cons_of_failure {stage : Stage} (h : (stage.isFailure && !skipFailures) = true)
    (rest : List Stage) : reached skipFailures (stage :: rest) = [] := by
  obtain ⟨hfailure, hskip⟩ := Bool.and_eq_true_iff.1 h
  simp only [Bool.not_eq_true'] at hskip
  simp [reached, hskip, hfailure]

theorem reached_cons {stage : Stage} (h : (stage.isFailure && !skipFailures) = false)
    (rest : List Stage) :
    reached skipFailures (stage :: rest) = stage :: reached skipFailures rest := by
  cases hskip : skipFailures with
  | true => simp [reached]
  | false =>
    have hfailure : stage.isFailure = false := by simpa [hskip] using h
    simp [reached, hfailure]

theorem candidates_cons (stage : Stage) (rest : List Stage) :
    candidates excluded (stage :: rest) =
      (stage.candidate? excluded).toList ++ candidates excluded rest := by
  rw [candidates, candidates, List.filterMap_cons]
  cases stage.candidate? excluded <;> rfl

/-- Where a stage is not the last one, more projects may be analyzed after it. -/
theorem length_lt_of_isLast {n : Nat} {stage : Stage} (hn : 1 ≤ n)
    (h : stage.isLast skipFailures excluded n = false) :
    (stage.candidate? excluded).toList.length < n := by
  rw [isLast, Bool.or_eq_false_iff] at h
  cases hcandidate : stage.candidate? excluded with
  | none => exact hn
  | some path =>
    have hmore : ¬ n ≤ 1 := by simpa [hcandidate] using h.2
    rw [Option.toList_some, List.length_singleton]
    omega

/-- The projects of a run are the first ones that may be analyzed. -/
theorem candidates_upTo {n : Nat} (hn : 1 ≤ n) (stages : List Stage) :
    candidates excluded (upTo skipFailures excluded n stages) =
      (candidates excluded (reached skipFailures stages)).take n := by
  induction stages generalizing n with
  | nil => simp [upTo, reached, candidates]
  | cons stage rest ih =>
    rw [upTo, candidates_cons]
    cases hfailure : stage.isFailure && !skipFailures with
    | true =>
      rw [reached_cons_of_failure hfailure,
        candidate?_of_isFailure (Bool.and_eq_true_iff.1 hfailure).1]
      simp [isLast, hfailure, candidates]
    | false =>
      rw [reached_cons hfailure, candidates_cons, List.take_append]
      cases hlast : stage.isLast skipFailures excluded n with
      | true =>
        -- The project of the last stage is the only one that may still be analyzed.
        simp only [isLast, hfailure, Bool.false_or, Bool.and_eq_true, decide_eq_true_eq] at hlast
        obtain ⟨path, hpath⟩ := Option.isSome_iff_exists.1 hlast.1
        obtain rfl : n = 1 := by omega
        simp [hpath, candidates]
      | false =>
        have hmore := length_lt_of_isLast hn hlast
        rw [List.take_of_length_le (Nat.le_of_lt hmore), ← ih (by omega)]
        simp

theorem isCutShort_of_isLast {n : Nat} {stage : Stage}
    (h : stage.isLast skipFailures excluded n = true) (rest : List Stage) :
    IsCutShort skipFailures excluded n (stage :: rest) := by
  cases hfailure : stage.isFailure && !skipFailures with
  | true =>
    refine .inr ?_
    rw [reached_cons_of_failure hfailure]
    exact (List.cons_ne_nil _ _).symm
  | false =>
    refine .inl ?_
    simp only [isLast, hfailure, Bool.false_or, Bool.and_eq_true, decide_eq_true_eq] at h
    obtain ⟨path, hpath⟩ := Option.isSome_iff_exists.1 h.1
    rw [reached_cons hfailure, candidates_cons, hpath, List.length_append, Option.toList_some,
      List.length_singleton]
    omega

/-- What cuts a run short later cuts it short. -/
theorem IsCutShort.cons {n : Nat} {stage : Stage} {rest : List Stage}
    (hlast : stage.isLast skipFailures excluded n = false)
    (h : IsCutShort skipFailures excluded (n - (stage.candidate? excluded).toList.length) rest) :
    IsCutShort skipFailures excluded n (stage :: rest) := by
  have hfailure := (Bool.or_eq_false_iff.1 hlast).1
  rw [IsCutShort, reached_cons hfailure, candidates_cons, List.length_append]
  rcases h with hmany | hstopped
  · left
    omega
  · right
    intro heq
    exact hstopped (List.cons.inj heq).2

/-! ## Milestones -/

theorem analyzed?_of_isOutward {event : Event} (h : event.isOutward = true) :
    event.analyzed? = none := by
  cases event <;> first | rfl | cases h

theorem filterMap_analyzed?_map_analysis (paths : List String) :
    (paths.map Event.analysis).filterMap Event.analyzed? = paths := by
  have hsame : Event.analyzed? ∘ Event.analysis = some := funext Event.analyzed?_analysis
  rw [List.filterMap_map, hsame, List.filterMap_some]

theorem filterMap_analyzed?_of_isOutward {events : List Event}
    (h : ∀ event ∈ events, event.isOutward = true) : events.filterMap Event.analyzed? = [] :=
  List.filterMap_eq_nil_iff.2 fun event hevent => analyzed?_of_isOutward (h event hevent)

/-- A stage reaches out first and then analyzes its project, if it has one. -/
theorem milestones_eq (source : Source) (excluded : List String) (stage : Stage) :
    ∃ outward, (∀ event ∈ outward, event.isOutward = true) ∧
      stage.milestones source excluded =
        outward ++ (stage.candidate? excluded).toList.map .analysis := by
  cases stage with
  | requested page => exact ⟨[_], by simp [Event.isOutward], rfl⟩
  | provided path available work =>
    exact ⟨work.filter (·.isOutward), fun event hevent => (List.mem_filter.1 hevent).2, rfl⟩

theorem analyzed_milestones_stage (source : Source) (excluded : List String) (stage : Stage) :
    (stage.milestones source excluded).filterMap Event.analyzed? =
      (stage.candidate? excluded).toList := by
  obtain ⟨outward, houtward, heq⟩ := milestones_eq source excluded stage
  rw [heq, List.filterMap_append, filterMap_analyzed?_of_isOutward houtward,
    filterMap_analyzed?_map_analysis, List.nil_append]

/-- The analyses among the milestones are those of the projects. -/
theorem analyzed_milestones (source : Source) (excluded : List String) (stages : List Stage) :
    (stages.flatMap (·.milestones source excluded)).filterMap Event.analyzed? =
      candidates excluded stages := by
  induction stages with
  | nil => rfl
  | cons stage rest ih =>
    rw [List.flatMap_cons, List.filterMap_append, ih, analyzed_milestones_stage, candidates_cons]

/-- Where a stage reaches out it has not begun an analysis yet. -/
theorem analyzed_before_of_milestones {source : Source} {stage : Stage}
    {before after : List Event} {event : Event}
    (h : stage.milestones source excluded = before ++ event :: after)
    (hevent : event.isOutward = true) : before.filterMap Event.analyzed? = [] := by
  obtain ⟨outward, houtward, heq⟩ := milestones_eq source excluded stage
  rw [heq, List.append_eq_append_iff] at h
  rcases h with ⟨late, -, hlate⟩ | ⟨early, rfl, -⟩
  · -- An analysis does not reach out.
    have hmem : event ∈ (stage.candidate? excluded).toList.map .analysis := by
      rw [hlate]
      exact List.mem_append_right late List.mem_cons_self
    obtain ⟨path, -, rfl⟩ := List.mem_map.1 hmem
    cases hevent
  · exact filterMap_analyzed?_of_isOutward fun other hother =>
      houtward other (List.mem_append_left early hother)

theorem not_isOutward_of_mem_map_analysis {paths : List String} {before after : List Event}
    {event : Event} (h : paths.map Event.analysis = before ++ event :: after) :
    event.isOutward = false := by
  have hmem : event ∈ paths.map Event.analysis := by
    rw [h]
    exact List.mem_append_right before List.mem_cons_self
  obtain ⟨path, -, rfl⟩ := List.mem_map.1 hmem
  rfl

/-- Nothing reaches out after the last project: before whatever does, fewer projects have been
analyzed than may be. -/
theorem analyzed_before_lt {source : Source} {n : Nat} (hn : 1 ≤ n) {stages : List Stage}
    {paths : List String} {before after : List Event} {event : Event}
    (h : (upTo skipFailures excluded n stages).flatMap (·.milestones source excluded) ++
      paths.map Event.analysis = before ++ event :: after)
    (hevent : event.isOutward = true) : (before.filterMap Event.analyzed?).length < n := by
  have hpaths : ∀ later : List Event,
      paths.map Event.analysis ≠ later ++ event :: after := by
    intro later hlater
    rw [not_isOutward_of_mem_map_analysis hlater] at hevent
    cases hevent
  induction stages generalizing n before with
  | nil => exact absurd h (hpaths before)
  | cons stage rest ih =>
    have hown := congrArg List.length (analyzed_milestones_stage source excluded stage)
    rw [upTo, List.flatMap_cons, List.append_assoc] at h
    -- Whatever reaches out comes from the stage itself or after it.
    have hrest : ∀ later : List Event,
        (if stage.isLast skipFailures excluded n then []
          else upTo skipFailures excluded (n - (stage.candidate? excluded).toList.length)
            rest).flatMap (·.milestones source excluded) ++ paths.map Event.analysis =
          later ++ event :: after →
        ((stage.milestones source excluded).filterMap Event.analyzed?).length +
          (later.filterMap Event.analyzed?).length < n := by
      intro later hlater
      cases hlast : stage.isLast skipFailures excluded n with
      | true =>
        rw [hlast, if_pos rfl, List.flatMap_nil, List.nil_append] at hlater
        exact absurd hlater (hpaths later)
      | false =>
        rw [hlast, if_neg Bool.false_ne_true] at hlater
        have hmore := length_lt_of_isLast hn hlast
        have hfewer := ih (by omega) hlater
        omega
    rcases List.append_eq_append_iff.1 h with ⟨later, rfl, hlater⟩ | ⟨late, hstage, hlate⟩
    · rw [List.filterMap_append, List.length_append]
      exact hrest later hlater
    · cases late with
      | nil =>
        rw [List.append_nil] at hstage
        rw [← hstage]
        exact hrest [] hlate.symm
      | cons first others =>
        obtain ⟨rfl, -⟩ := List.cons.inj hlate
        rw [analyzed_before_of_milestones hstage hevent]
        exact hn

end Stage
end FeatureCensus
