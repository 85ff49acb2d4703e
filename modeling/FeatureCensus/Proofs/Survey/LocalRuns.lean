import FeatureCensus.Proofs.Files.Searching
import FeatureCensus.Proofs.Survey.Caps

/-!
# Runs on local copies

A run on local copies does not look whether there is a copy of a discovered repository.  It hands
over the place of each of them, in the files that it began with, until enough of them have been
analyzed.  Where there is no copy nothing is found, so what is missing counts as a repository
without files, and uses up the number of projects as any other one does.

Main results:

- Theorem {lit}`Glob.search_of_vacant`: nothing is found where nothing stands.
- Theorem {lit}`Corpus.handovers_localOnly`: which copies are handed over, and among which files.
- Theorem {lit}`Survey.map_path_admitted`: which of them are analyzed.
- Theorem {lit}`Survey.run_localOnly`: what a run on local copies analyzes.
-/

namespace FeatureCensus

open NamePattern

/-! ## Missing copies -/

namespace Path

theorem trimmed_slashed (path : String) : trimmed (slashed path) = trimmed path := by
  rw [trimmed, slashed_of_getLast? (getLast?_slashed path), trimmed]

/-- Nothing is trimmed of a path that ends with a name. -/
theorem trimmed_of_ne {path : String} (hpath : path ≠ "")
    (hlast : path.toList.getLast? ≠ some '/') : trimmed path = path := by
  have hnonempty : path.toList ≠ [] := fun hnil => hpath (String.toList_eq_nil_iff.1 hnil)
  have hdropped := dropTrailingSlashes_append hnonempty hlast 1
  rw [trimmed, slashed_of_ne hlast, String.toList_append]
  exact (congrArg String.ofList hdropped).trans String.ofList_toList

end Path

namespace FileTree

variable {γ : Type} {t : FileTree γ} {path : String}

/-- Whether nothing stands at a path that ends with a name and has no characters with a meaning in
patterns. -/
structure IsVacant (t : FileTree γ) (path : String) : Prop where
  missing : t.exists? path = false
  ne_empty : path ≠ ""
  named : path.toList.getLast? ≠ some '/'
  plain : hasWildcard path = false
  noNull : '\x00' ∉ path.toList

namespace IsVacant

theorem not_located (h : t.IsVacant path) (place : Location) : t.locate path ≠ .ok place := by
  intro hlocate
  have hexists := (t.exists_eq_true_iff path).2 ⟨place, hlocate⟩
  rw [h.missing] at hexists
  cases hexists

/-- Nothing stands there either if a slash is put behind the path. -/
theorem not_located_slashed (h : t.IsVacant path) (place : Location) :
    t.locate (Path.slashed path) ≠ .ok place := by
  intro hlocate
  have htrimmed := locate_trimmed hlocate
  rw [Path.trimmed_slashed, Path.trimmed_of_ne h.ne_empty h.named] at htrimmed
  exact h.not_located place htrimmed

theorem descendants_eq (h : t.IsVacant path) (directoriesOnly : Bool) :
    Glob.descendants t directoriesOnly path = [] := by
  rw [Glob.descendants, Glob.directoryPath_of_ne h.ne_empty]
  cases hlocate : t.locate path with
  | error error => rfl
  | ok place => exact absurd hlocate (h.not_located place)

theorem wildNames_slashed (h : t.IsVacant path) (directoriesOnly : Bool) (pattern : String) :
    Glob.wildNames t directoriesOnly pattern (Path.slashed path) = [] := by
  rw [Glob.wildNames, Glob.directoryPath_of_ne (Path.slashed_ne_empty path)]
  cases hlocate : t.locate (Path.slashed path) with
  | error error => rfl
  | ok place => exact absurd hlocate (h.not_located_slashed place)

end IsVacant
end FileTree

namespace Glob

/-- Below a path where nothing stands a pattern finds nothing. -/
theorem search_of_vacant {γ : Type} {t : FileTree γ} {path last : String} (h : t.IsVacant path)
    (hlast : hasWildcard last = true) (hdeep : last ≠ "**") (hslash : '/' ∉ last.toList) :
    search t (Path.join path ("**/" ++ last)) = .ok [] := by
  have hwild : hasWildcard (Path.join path ("**/" ++ last)) = true := by
    rw [Path.join_eq h.ne_empty (by simp), hasWildcard, String.toList_append, String.toList_append,
      List.any_append, List.any_append]
    simp
  have hself : Path.join path "" = Path.slashed path := by
    rw [Path.join_eq h.ne_empty (by simp), String.append_empty]
  have hdeepest : Step.find t (!([Step.wild last] : List Step).isEmpty) path .deep = [""] := by
    rw [Step.find, h.descendants_eq]
  have hexpanded : expand t [.deep, .wild last] [path] = [] := by
    rw [expand, expand, expand, List.flatMap_singleton, hdeepest, List.map_singleton, hself,
      List.flatMap_singleton, Step.find, h.wildNames_slashed, List.map_nil]
  rw [search, hwild, Bool.not_true, if_neg Bool.false_ne_true,
    ofText_join h.ne_empty h.plain hlast hdeep hslash, Path.trimmed_of_ne h.ne_empty h.named]
  simp only [List.contains_iff_mem, h.noNull, if_false, hexpanded]
  exact congrArg Except.ok (List.perm_nil.1 (arrange_perm id t.order []))

end Glob

namespace Analyzer

/-- A missing project is analyzed as one without files. -/
theorem run_countProject_of_vacant {analyzer : Analyzer} (hpattern : analyzer.pattern = "**/*.kt")
    {project : String} {s : Situation Tally} (h : s.world.files.IsVacant project) :
    (analyzer.countProject project).run s = .ok () (begun project s) := by
  have hjoined : analyzer.pattern = "**/" ++ "*.kt" := hpattern.trans (by decide)
  have hsearch := Glob.search_of_vacant h (by decide : hasWildcard "*.kt" = true) (by decide)
    (by decide)
  have hkeys : analyzer.keys project (begun project s).world.files = .ok [] := by
    rw [keys, SourceFiles.keys, hjoined]
    change (Glob.search s.world.files _).map _ = _
    rw [hsearch]
    rfl
  rw [run_countProject_files, Action.run_world_bind, hkeys]
  rfl

end Analyzer

/-! ## Handing over -/

namespace Corpus

variable {σ : Type} {corpus : Corpus} {source : Source} {visit : String → Action σ Bool}
  {found : Found} {repo : Repo} {s : Situation σ}

/-- Local copies are handed over without looking for them. -/
theorem run_handle_localOnly (hrepo : Repo.ofListed? found.listed = some repo) :
    (corpus.handle true visit found).run s =
      (visit (corpus.pathTo repo)).run (announcing found repo s) := by
  rw [handle, hrepo]
  rfl

theorem handovers_found (hrepo : Repo.ofListed? found.listed = some repo)
    (rest : List Discovery.Step) :
    corpus.handovers source true visit (.found found :: rest) s =
      ⟨corpus.pathTo repo, announcing found repo s⟩ ::
        match (visit (corpus.pathTo repo)).run (announcing found repo s) with
        | .ok true t => corpus.handovers source true visit rest t
        | _ => [] := by
  have hhandover : corpus.handover? true found s =
      some ⟨corpus.pathTo repo, announcing found repo s⟩ := by
    rw [handover?, hrepo]
    rfl
  rw [handovers, hhandover, run_handle_localOnly hrepo]
  rfl

theorem handovers_unusable (hrepo : Repo.ofListed? found.listed = none)
    (rest : List Discovery.Step) :
    corpus.handovers source true visit (.found found :: rest) s = [] := by
  rw [handovers, handover?, handle, hrepo]
  rfl

/-- The places of the copies of the first discovered repositories are handed over, and the files
stay the same until then. -/
theorem handovers_localOnly
    (hvisit : ∀ path, Action.Respects (fun s t => t.world.files = s.world.files) (visit path))
    (steps : List Discovery.Step) (s : Situation σ) :
    (corpus.handovers source true visit steps s).map (·.path) <+:
        (Discovery.repos steps).map corpus.pathTo ∧
      ∀ handover ∈ corpus.handovers source true visit steps s,
        handover.situation.world.files = s.world.files := by
  induction steps generalizing s with
  | nil => exact ⟨List.nil_prefix, List.forall_mem_nil _⟩
  | cons step rest ih =>
    cases step with
    | failed page failure => exact ⟨List.nil_prefix, List.forall_mem_nil _⟩
    | request page => exact ih (.endOf ((Discovery.requestPage source page).run s))
    | found found =>
      cases hrepo : Repo.ofListed? found.listed with
      | none =>
        rw [handovers_unusable hrepo]
        exact ⟨List.nil_prefix, List.forall_mem_nil _⟩
      | some repo =>
        have hfiles := hvisit (corpus.pathTo repo) (announcing found repo s)
        rw [handovers_found hrepo, Discovery.repos_found, hrepo, Option.toList_some,
          List.singleton_append, List.map_cons, List.map_cons, List.cons_prefix_cons,
          List.forall_mem_cons, and_assoc]
        refine ⟨rfl, and_left_comm.1 ⟨rfl, ?_⟩⟩
        cases hrun : (visit (corpus.pathTo repo)).run (announcing found repo s) with
        | error failure t => exact ⟨List.nil_prefix, List.forall_mem_nil _⟩
        | ok goOn t =>
          rw [hrun] at hfiles
          cases goOn with
          | false => exact ⟨List.nil_prefix, List.forall_mem_nil _⟩
          | true =>
            have hsame : t.world.files = s.world.files := hfiles
            rw [← hsame]
            exact ih t

end Corpus

namespace Survey

variable {survey : Survey} {options : RunOptions} {corpus : Corpus} {n : Int}
  {s t : Situation Tally}

/-! ## Analyses -/

/-- A visit leaves the files alone. -/
theorem files_visit (survey : Survey) (n : Int) (path : String) :
    Action.Respects (fun s t => t.world.files = s.world.files) (survey.visit n path) :=
  (survey.basis_visit n path).mono fun _ _ hbasis => congrArg Basis.files hbasis

/-- The copies of a discovery that gets to its end which are analyzed are those of the first
repositories that are not excluded, as many as may be analyzed. -/
theorem map_path_admitted {source : Source} (steps : List Discovery.Step)
    (h : (s.own.analyzed : Int) < max n 1)
    (hrun : (Discovery.pursue source (corpus.handle true (survey.visit n)) steps).run s =
      .ok () t) :
    ((corpus.handovers source true (survey.visit n) steps s).filter survey.admits).map (·.path) =
      (((Discovery.repos steps).map corpus.pathTo).filter
        (!Exclusion.isExcluded · survey.excluded)).take (max n 1 - s.own.analyzed).toNat := by
  induction steps generalizing s with
  | nil => simp [Corpus.handovers, Discovery.repos]
  | cons step rest ih =>
    cases step with
    | failed page failure => cases hrun
    | request page => exact ih h hrun
    | found found =>
      rw [Discovery.pursue, EStateM.run_bind] at hrun
      cases hrepo : Repo.ofListed? found.listed with
      | none =>
        rw [Corpus.handle, hrepo] at hrun
        cases hrun
      | some repo =>
        let handover : Handover Tally := ⟨corpus.pathTo repo, Corpus.announcing found repo s⟩
        have hends : VisitEnd survey n handover
            ((survey.visit n (corpus.pathTo repo)).run (Corpus.announcing found repo s)) :=
          visit_ends survey n handover
        rw [Corpus.run_handle_localOnly hrepo] at hrun
        rw [Corpus.handovers_found hrepo, Discovery.repos_found, hrepo, Option.toList_some,
          List.singleton_append, List.map_cons]
        generalize (survey.visit n (corpus.pathTo repo)).run (Corpus.announcing found repo s) =
          result at hends hrun ⊢
        cases hends with
        | failed _ _ _ => cases hrun
        | @excluded u hadmits _ hbegins =>
          have hown : u.own.analyzed = s.own.analyzed := hbegins.analyzed
          have hkept : (!Exclusion.isExcluded (corpus.pathTo repo) survey.excluded) = false :=
            hadmits
          rw [← hown] at h ⊢
          rw [List.filter_cons_of_neg (by simp [handover, hadmits]),
            List.filter_cons_of_neg (by simp [hkept])]
          exact ih h hrun
        | @completed u hadmits _ hbegins =>
          have hown : (advanced u).own.analyzed = s.own.analyzed + 1 :=
            congrArg (· + 1) hbegins.analyzed
          have hkept : (!Exclusion.isExcluded (corpus.pathTo repo) survey.excluded) = true :=
            hadmits
          rw [List.filter_cons_of_pos hadmits,
            List.filter_cons_of_pos (p := (!Exclusion.isExcluded · survey.excluded)) hkept,
            List.map_cons]
          cases hmore : decide (((advanced u).own.analyzed : Int) < n) with
          | false =>
            -- No more may be analyzed, so this was the last one that could be.
            have hreached := of_decide_eq_false hmore
            have hone : (max n 1 - (s.own.analyzed : Int)).toNat = 1 := by omega
            rw [hone, show decide (((u.own.analyzed + 1 : Nat) : Int) < n) = false from hmore]
            rfl
          | true =>
            have hless := of_decide_eq_true hmore
            have hsucc : (max n 1 - (s.own.analyzed : Int)).toNat =
                (max n 1 - ((advanced u).own.analyzed : Int)).toNat + 1 := by
              omega
            rw [show decide (((u.own.analyzed + 1 : Nat) : Int) < n) = true from hmore] at hrun ⊢
            rw [hsucc, List.take_succ_cons]
            exact congrArg (corpus.pathTo repo :: ·) (ih (by omega) hrun)

/-! ## Runs -/

/-- The places of the copies of all repositories that a discovery would find, in its order, whether
or not the copies are there. -/
def discoveredPaths (survey : Survey) (corpus : Corpus) (s : Situation Tally) : List String :=
  (Discovery.repos (Discovery.steps survey.source s.world.answers)).map corpus.pathTo

/-- Those of the first repositories that are not excluded, as many as may be analyzed. -/
def candidates (survey : Survey) (corpus : Corpus) (n : Int) (s : Situation Tally) : List String :=
  ((survey.discoveredPaths corpus s).filter (!Exclusion.isExcluded · survey.excluded)).take
    (max n 1).toNat

/-- The places that a run on local copies hands over. -/
def localHandovers (survey : Survey) (options : RunOptions) (corpus : Corpus) (n : Int)
    (s : Situation Tally) : List (Handover Tally) :=
  survey.handovers corpus true n (opening options n s)

/-- Those of them where it begins an analysis. -/
def analyzedCopies (survey : Survey) (options : RunOptions) (corpus : Corpus) (n : Int)
    (s : Situation Tally) : List String :=
  ((survey.localHandovers options corpus n s).filter survey.admits).map (·.path)

/-- The course of a run on local copies. -/
structure LocalCourse (survey : Survey) (options : RunOptions) (corpus : Corpus) (n : Int)
    (s : Situation Tally) : Prop where
  /-- The places of the first discovered repositories are handed over, -/
  handed : (survey.localHandovers options corpus n s).map (·.path) <+:
    survey.discoveredPaths corpus s
  /-- among the files that the run began with. -/
  unchanged : ∀ handover ∈ survey.localHandovers options corpus n s,
    handover.situation.world.files = s.world.files
  /-- Where nothing stands an analysis counts a repository and nothing else. -/
  missing : ∀ handover ∈ survey.localHandovers options corpus n s,
    s.world.files.IsVacant handover.path → survey.analyzer.pattern = "**/*.kt" →
      (survey.analyzer.countProject handover.path).run handover.situation =
        .ok () (Analyzer.begun handover.path handover.situation)
  /-- Analyses begin at those that are not excluded, until there are enough of them, -/
  analyzed : survey.analyzedCopies options corpus n s <+: survey.candidates corpus n s
  /-- and at all of these if the discovery gets to its end. -/
  completed : ∀ u, (survey.discover corpus true n).run (opening options n s) = .ok () u →
    survey.analyzedCopies options corpus n s = survey.candidates corpus n s
  /-- After them there are private projects, and each analysis counts one repository. -/
  counted : ∃ begun, begun <+: survey.privateProjects ∧
    ((Situation.endOf ((survey.run options).run s)).eventsSince s).filterMap Event.analyzed? =
      survey.analyzedCopies options corpus n s ++ begun ∧
    (Situation.endOf ((survey.run options).run s)).own.session.repositories =
      s.own.session.repositories + (survey.analyzedCopies options corpus n s).length + begun.length
  /-- If no copy is missing, there is one wherever a place is handed over, and no more repositories
  are counted than there are copies and private projects. -/
  copied : (∀ path ∈ survey.discoveredPaths corpus s, s.world.files.exists? path = true) →
    (∀ handover ∈ survey.localHandovers options corpus n s,
      s.world.files.exists? handover.path = true) ∧
    (Situation.endOf ((survey.run options).run s)).own.session.repositories ≤
      s.own.session.repositories +
        ((survey.discoveredPaths corpus s).filter s.world.files.exists?).length +
        survey.privateProjects.length

theorem handed_localHandovers (survey : Survey) (options : RunOptions) (corpus : Corpus) (n : Int)
    (s : Situation Tally) :
    (survey.localHandovers options corpus n s).map (·.path) <+: survey.discoveredPaths corpus s ∧
      ∀ handover ∈ survey.localHandovers options corpus n s,
        handover.situation.world.files = s.world.files :=
  Corpus.handovers_localOnly (files_visit survey n) _ (opening options n s)

theorem analyzedCopies_prefix (survey : Survey) (options : RunOptions) (corpus : Corpus) (n : Int)
    (s : Situation Tally) :
    survey.analyzedCopies options corpus n s <+: survey.candidates corpus n s := by
  have hpaths := (survey.handed_localHandovers options corpus n s).1
  have hfiltered := hpaths.filter (!Exclusion.isExcluded · survey.excluded)
  rw [List.filter_map] at hfiltered
  have hbound : ((survey.analyzedCopies options corpus n s).length : Int) ≤ max n 1 := by
    rw [analyzedCopies, List.length_map]
    exact length_discovered_le survey corpus { options with localOnly := true } n s
  exact List.prefix_take_iff.2 ⟨hfiltered, by omega⟩

theorem analyzedCopies_eq
    (h : (survey.discover corpus true n).run (opening options n s) = .ok () t) :
    survey.analyzedCopies options corpus n s = survey.candidates corpus n s := by
  have hall : (max n 1 - (((opening options n s).own.analyzed : Nat) : Int)).toNat =
      (max n 1).toNat := congrArg Int.toNat (Int.sub_zero _)
  have hadmitted := map_path_admitted (Discovery.steps survey.source s.world.answers)
    (analyzed_opening_lt options n s) h
  rwa [hall] at hadmitted

/-- A run on local copies hands over the places of the discovered repositories in their turn,
whether or not a copy is there, and a missing one counts as a repository without files. -/
theorem run_localOnly (survey : Survey) (options : RunOptions) {corpus : Corpus} {n : Int}
    (hcorpus : survey.corpus? = some corpus) (hmax : options.maxProjects? = some n)
    (hlocal : options.localOnly = true) (s : Situation Tally) :
    survey.LocalCourse options corpus n s := by
  obtain ⟨hpaths, hfiles⟩ := survey.handed_localHandovers options corpus n s
  obtain ⟨begun, hbegun, hanalyzed, hrepositories⟩ := exists_begun_run hcorpus hmax s
  rw [hlocal] at hanalyzed hrepositories
  have hcounted : (Situation.endOf ((survey.run options).run s)).own.session.repositories =
      s.own.session.repositories + (survey.analyzedCopies options corpus n s).length +
        begun.length := by
    rw [analyzedCopies, List.length_map]
    exact hrepositories
  refine ⟨hpaths, hfiles, fun handover hmem hvacant hpattern => ?_,
    survey.analyzedCopies_prefix options corpus n s, fun u => analyzedCopies_eq,
    ⟨begun, hbegun, hanalyzed, hcounted⟩, fun hall => ⟨fun handover hmem => ?_, ?_⟩⟩
  · rw [← hfiles handover hmem] at hvacant
    exact Analyzer.run_countProject_of_vacant hpattern hvacant
  · exact hall handover.path (hpaths.subset (List.mem_map_of_mem hmem))
  · have hlength : (survey.analyzedCopies options corpus n s).length ≤
        (survey.discoveredPaths corpus s).length :=
      (survey.analyzedCopies_prefix options corpus n s).length_le.trans
        ((List.length_take_le' _ _).trans (List.length_filter_le _ _))
    have hprivate := hbegun.length_le
    rw [hcounted, List.filter_eq_self.2 hall]
    omega

/-- A survey of the copies in a directory. -/
def copiesSurvey : Survey where
  corpus? := some { base := "repos" }

/-- The situation before a page with two repositories, of which only the second one has a copy. -/
def partialStart : Situation Tally where
  world := {
    files := (((FileTree.empty.put (workingDirectory ++ ["repos"]) .directory).put
      (workingDirectory ++ ["repos", "o"]) .directory).put
      (workingDirectory ++ ["repos", "o", "b"]) .directory)
    answers := [closingPage] }
  own := { session := { counters := [] } }

/-- The first of two repositories is the only one that may be analyzed. -/
theorem run_localOnly_partialStart :
    let t := Situation.endOf ((copiesSurvey.run { localOnly := true, maxProjects? := some 1 }).run
      partialStart)
    (t.eventsSince partialStart).filterMap Event.analyzed? <+: ["repos/o/a"] ∧
      t.own.session.repositories ≤ 1 := by
  have hcandidates :
      copiesSurvey.candidates { base := "repos" } 1 partialStart = ["repos/o/a"] := by
    decide +kernel
  have hcourse := run_localOnly copiesSurvey { localOnly := true, maxProjects? := some 1 } rfl rfl
    rfl partialStart
  have hfirst := hcourse.analyzed
  rw [hcandidates] at hfirst
  obtain ⟨begun, hbegun, hanalyzed, hrepositories⟩ := hcourse.counted
  obtain rfl : begun = [] := List.prefix_nil.1 hbegun
  have hone := hfirst.length_le
  rw [List.append_nil] at hanalyzed
  dsimp only
  rw [hanalyzed, hrepositories]
  refine ⟨hfirst, ?_⟩
  have hnone : partialStart.own.session.repositories = 0 := rfl
  rw [List.length_singleton] at hone
  rw [hnone, List.length_nil]
  omega

/-- A repository without a copy is analyzed, and the one that has a copy is not, since no more may
be. -/
theorem not_localOnly_partialStart :
    partialStart.world.files.exists? "repos/o/a" = false ∧
      partialStart.world.files.exists? "repos/o/b" = true ∧
      ∃ t, (copiesSurvey.run { localOnly := true, maxProjects? := some 1 }).run partialStart =
          .ok () t ∧
        (t.eventsSince partialStart).filterMap Event.analyzed? = ["repos/o/a"] := by
  have hanalyzed : analyzedSince? partialStart
      ((copiesSurvey.run { localOnly := true, maxProjects? := some 1 }).run partialStart) =
        some ["repos/o/a"] := by
    decide +kernel
  exact ⟨by decide +kernel, by decide +kernel, exists_of_analyzedSince? hanalyzed⟩

end Survey
end FeatureCensus
