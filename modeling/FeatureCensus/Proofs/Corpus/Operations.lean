import FeatureCensus.Proofs.Corpus.Locations
import FeatureCensus.Proofs.Corpus.Remains
import FeatureCensus.Proofs.Corpus.Upkeep

/-!
# Operations on copies

Making sure of a copy has one of three courses.  A copy that is there is updated, and one that is
not is cloned, after the directory of its owner has been made; where that cannot be made nothing
else happens.  All that is left behind is on the way to the copy or in it, if the path of the base
directory can be followed as far as it leads up, and so the copies of other repositories are there
or not as before.

Main results:

- Theorem {lit}`Operation.course`: the courses of an operation.
- Theorem {lit}`Operation.grows`: the files only grow.
- Theorem {lit}`Operation.isCopiedAfter_of_hasCloned`: a clone that has exited with zero is there.
- Theorem {lit}`Operation.isTidy_finish`: files stay those of a file system.
- Theorem {lit}`Operation.exists_eq_of_ne`: copies of other repositories are there as before.
- Theorem {lit}`Operation.isCopiedAfter_of_leavesNothing`: a copy whose clone has failed is not
  there.
-/

namespace FeatureCensus

variable {σ : Type}

open FeatureCensus.FileTree (Grows GrowsBy KeepsSound)

namespace Situation

/-- What has happened since an earlier situation is what has been added. -/
theorem Adds.filter_eventsSince {kind : Event → Bool} {events : List Event} {s t : Situation σ}
    (h : Adds kind events s t) : (t.eventsSince s).filter kind = events := by
  obtain ⟨all, hall, hkind⟩ := h
  rw [eventsSince, hall, ← Array.length_toList, List.drop_left, hkind]

end Situation

/-! ## Idleness -/

/-- Whether between two situations files and coming outcomes stay the same and version control
does not run. -/
structure Situation.Idles (s t : Situation σ) : Prop where
  basis : t.basis = s.basis
  quiet : Situation.Adds Event.isGit [] s t

namespace Situation.Idles

variable {s t u : Situation σ}

theorem refl (s : Situation σ) : s.Idles s :=
  ⟨rfl, Situation.adds_self _ s⟩

theorem trans (h : s.Idles t) (hnext : t.Idles u) : s.Idles u :=
  ⟨hnext.basis.trans h.basis, h.quiet.trans hnext.quiet⟩

theorem record (s : Situation σ) {event : Event} (h : event.isGit = false) :
    s.Idles { s with world := s.world.record event } := by
  have hquiet := s.adds_record Event.isGit event
  rw [List.filter_singleton, h] at hquiet
  exact ⟨rfl, hquiet⟩

theorem noting (s : Situation σ) (messages : List (Level × String)) :
    s.Idles (s.noting messages) := by
  induction messages generalizing s with
  | nil => exact .refl s
  | cons message rest ih =>
    obtain ⟨level, text⟩ := message
    have hfirst : s.Idles { s with world := s.world.record (.log level text) } := .record s rfl
    exact hfirst.trans (ih _)

end Situation.Idles

/-! ## Runs -/

/-- Whether between two situations version control runs once, with certain files before it, and
nothing else changes the files and coming outcomes after them. -/
structure Situation.Ran (command : Git.Command) (directory : String) (files : FileTree Content)
    (s t : Situation σ) : Prop where
  basis : t.basis = (Git.verdict command directory (s.world.holding files)).2.basis
  runs : Situation.Adds Event.isGit [.git command.arguments directory] s t

namespace Situation.Ran

variable {command : Git.Command} {directory : String} {files : FileTree Content}
  {s t u : Situation σ}

theorem trans_idles (h : Situation.Ran command directory files s t) (hnext : t.Idles u) :
    Situation.Ran command directory files s u :=
  ⟨hnext.basis.trans h.basis, h.runs.trans hnext.quiet⟩

theorem of_idles (h : s.Idles t) (hnext : Situation.Ran command directory files t u) :
    Situation.Ran command directory files s u := by
  obtain ⟨-, hscript, harguments⟩ := Basis.mk.inj h.basis
  refine ⟨hnext.basis.trans (Git.verdict_congr command directory ?_).2,
    h.quiet.trans hnext.runs⟩
  simp only [World.basis, World.holding, hscript, harguments]

end Situation.Ran

namespace Git

/-- A run of version control happens once and comes to its verdict. -/
theorem exists_ran_run (command : Command) (directory : String) (s : Situation σ) :
    ∃ t, Situation.Ran command directory s.world.files s t ∧
      (run command directory).run s = match (verdict command directory s.world).1 with
        | .ok code => .ok code t
        | .error failure => .error failure t := by
  have hran : Situation.Ran command directory s.world.files s
      { s with world := (verdict command directory s.world).2 } := by
    refine ⟨rfl, [.git command.arguments directory], ?_, rfl⟩
    rw [events_verdict, Array.toList_push]
  have hrun := amounts_run command directory s
  rcases hverdict : verdict command directory s.world with ⟨result, world⟩
  rw [hverdict] at hrun hran
  cases result with
  | ok code =>
    obtain ⟨messages, hrun⟩ := hrun
    exact ⟨_, hran.trans_idles (.noting _ messages), hrun⟩
  | error failure => exact ⟨_, hran, hrun⟩

end Git

namespace Corpus

variable (corpus : Corpus) (repo : Repo)

/-- Updating a copy is one run of version control. -/
theorem exists_run_update (s : Situation σ) :
    ∃ t, Situation.Ran .pull (corpus.pathTo repo) s.world.files s t ∧
      ((corpus.update repo).run s = .ok () t ∨
        ∃ failure, (corpus.update repo).run s = .error failure t) := by
  let noted : Situation σ :=
    { s with world := s.world.record (.log .info ("Updating repo " ++ repo.fullName)) }
  obtain ⟨t, hran, hrun⟩ := Git.exists_ran_run .pull (corpus.pathTo repo) noted
  have hran : Situation.Ran .pull (corpus.pathTo repo) s.world.files s t :=
    .of_idles (.record s rfl) hran
  have hupdate : (corpus.update repo).run s = (do
      let code ← Git.run .pull (corpus.pathTo repo)
      if code != 0 then
        Action.log .error ("Repo update failed: exit code " ++ toString code)
      Action.record (.pause corpus.updatePause?) : Action σ Unit).run noted := rfl
  rw [hupdate, EStateM.run_bind, hrun]
  cases (Git.verdict .pull (corpus.pathTo repo) noted.world).1 with
  | error failure => exact ⟨t, hran, .inr ⟨failure, rfl⟩⟩
  | ok code =>
    dsimp only
    split
    · exact ⟨_, hran.trans_idles ((Situation.Idles.record t rfl).trans (.record _ rfl)), .inl rfl⟩
    · exact ⟨_, hran.trans_idles (.record t rfl), .inl rfl⟩

/-- Cloning a repository is one run of version control, once the directory of its owner has been
made, and tells whether that run exits with zero. -/
theorem exists_run_clone {s : Situation σ} {files : FileTree Content}
    (hmade : (FileTree.makeDirectories (corpus.ownerDirectory repo)).run s.world.files =
      .ok () files) :
    ∃ t, Situation.Ran (.clone repo.cloneAddress repo.name) (corpus.ownerDirectory repo) files s t ∧
      (corpus.clone repo).run s =
        match (Git.verdict (.clone repo.cloneAddress repo.name) (corpus.ownerDirectory repo)
          (s.world.holding files)).1 with
        | .ok code => .ok (code == 0) t
        | .error failure => .error failure t := by
  let made : Situation σ := { s with world := { s.world with files } }
  let noted : Situation σ :=
    { made with world := made.world.record (.log .info ("Cloning repo " ++ repo.fullName)) }
  obtain ⟨t, hran, hrun⟩ := Git.exists_ran_run (.clone repo.cloneAddress repo.name)
    (corpus.ownerDirectory repo) noted
  have hran : Situation.Ran (.clone repo.cloneAddress repo.name) (corpus.ownerDirectory repo) files
      s t := by
    have hnoted := Situation.Ran.of_idles (.record made rfl) hran
    exact ⟨hnoted.basis, hnoted.runs⟩
  have hclone : (corpus.clone repo).run s = (do
      let code ← Git.run (.clone repo.cloneAddress repo.name) (corpus.ownerDirectory repo)
      if code != 0 then
        Action.log .error ("Repo clone failed: exit code " ++ toString code)
        return false
      else
        Action.record (.pause corpus.clonePause?)
        return true : Action σ Bool).run noted := by
    have hchange := Action.run_changeFiles
      (FileTree.makeDirectories (corpus.ownerDirectory repo)) s
    rw [hmade] at hchange
    rw [clone, EStateM.run_bind, hchange]
    rfl
  have hverdict : (Git.verdict (.clone repo.cloneAddress repo.name) (corpus.ownerDirectory repo)
      noted.world).1 = (Git.verdict (.clone repo.cloneAddress repo.name)
        (corpus.ownerDirectory repo) (s.world.holding files)).1 :=
    (Git.verdict_congr (w := noted.world) (v := s.world.holding files) _ _ rfl).1
  rw [hclone, EStateM.run_bind, hrun, hverdict]
  cases (Git.verdict (.clone repo.cloneAddress repo.name) (corpus.ownerDirectory repo)
    (s.world.holding files)).1 with
  | error failure => exact ⟨t, hran, rfl⟩
  | ok code =>
    by_cases hcode : code = 0
    · subst hcode
      exact ⟨_, hran.trans_idles (.record t rfl), rfl⟩
    · have hfailed : (code != 0) = true := by simpa using hcode
      have hzero : (code == 0) = false := by simpa using hcode
      dsimp only
      rw [if_pos hfailed, hzero]
      exact ⟨_, hran.trans_idles (.record t rfl), rfl⟩

end Corpus

/-! ## Operations -/

/-- An operation: the copy of a repository is made sure of in a situation. -/
structure Operation (σ : Type) where
  repo : Repo
  start : Situation σ

namespace Operation

variable (corpus : Corpus) (o : Operation σ)

/-- What an operation comes to. -/
def result : EStateM.Result Failure (Situation σ) Bool :=
  (corpus.ensureLocal o.repo).run o.start

/-- The situation after an operation. -/
def finish : Situation σ :=
  .endOf (o.result corpus)

/-- The runs of version control of an operation. -/
def runs : List Event :=
  ((o.finish corpus).eventsSince o.start).filter (·.isGit)

/-- Whether the copy is there before an operation. -/
def isCopied : Bool :=
  o.start.world.files.exists? (corpus.pathTo o.repo)

/-- Whether the copy is there after an operation. -/
def isCopiedAfter : Bool :=
  (o.finish corpus).world.files.exists? (corpus.pathTo o.repo)

/-- The update of the copy. -/
def pull : Event :=
  .git Git.Command.pull.arguments (corpus.pathTo o.repo)

/-- The command that clones the repository. -/
def cloneCommand : Git.Command :=
  .clone o.repo.cloneAddress o.repo.name

/-- The clone of the repository. -/
def clone : Event :=
  .git o.cloneCommand.arguments (corpus.ownerDirectory o.repo)

/-- How the clone of an operation ends, if it comes to one: with a code or with a failure. -/
def cloneEnd? : Option (Except Failure Int) :=
  if o.isCopied corpus then none
  else
    match (FileTree.makeDirectories (corpus.ownerDirectory o.repo)).run o.start.world.files with
    | .ok _ files =>
      some (Git.verdict o.cloneCommand (corpus.ownerDirectory o.repo)
        (o.start.world.holding files)).1
    | .error _ _ => none

/-- Whether a clone exits with zero. -/
def isZero : Option (Except Failure Int) → Bool
  | some (.ok code) => code == 0
  | _ => false

/-- Whether an operation comes to a clone that exits with zero. -/
def hasCloned : Bool :=
  isZero (o.cloneEnd? corpus)

/-- Whether the clone of an operation, if it comes to one, leaves no copy behind, because it cannot
be started, leaves nothing behind by itself, or is refused what it would leave behind from the
beginning on. -/
def LeavesNothing : Prop :=
  (o.cloneEnd? corpus).isSome = true →
    ((o.cloneCommand.unfit? (corpus.ownerDirectory o.repo) o.start.world).isSome = true ∨
      (Git.draw o.cloneCommand (corpus.ownerDirectory o.repo) o.start.world).1.IsFruitless) ∨
      o.isCopiedAfter corpus = false

theorem eq_ok_of_isZero {exit : Except Failure Int} (h : isZero (some exit) = true) :
    exit = .ok 0 := by
  cases exit with
  | ok code => rw [eq_of_beq h]
  | error failure => cases h

/-! ## Courses -/

/-- The course of an operation. -/
inductive Course : Prop where
  /-- The copy is updated. -/
  | pulled (copied : o.isCopied corpus = true)
    (ran : Situation.Ran .pull (corpus.pathTo o.repo) o.start.world.files o.start
      (o.finish corpus))
    (result : ∀ available t, o.result corpus = .ok available t → available = true)
  /-- The directory of the owner cannot be made. -/
  | unmade {error : FileError} {files : FileTree Content} (missing : o.isCopied corpus = false)
    (made : (FileTree.makeDirectories (corpus.ownerDirectory o.repo)).run o.start.world.files =
      .error error files)
    (result : o.result corpus =
      .error (.file error) { o.start with world := { o.start.world with files } })
  /-- The repository is cloned. -/
  | cloned {files : FileTree Content} (missing : o.isCopied corpus = false)
    (made : (FileTree.makeDirectories (corpus.ownerDirectory o.repo)).run o.start.world.files =
      .ok () files)
    (ran : Situation.Ran o.cloneCommand (corpus.ownerDirectory o.repo) files o.start
      (o.finish corpus))
    (result : o.result corpus =
      match (Git.verdict o.cloneCommand (corpus.ownerDirectory o.repo)
        (o.start.world.holding files)).1 with
      | .ok code => .ok (code == 0) (o.finish corpus)
      | .error failure => .error failure (o.finish corpus))

/-- Every operation has one of the courses. -/
theorem course : o.Course corpus := by
  cases hcopied : o.isCopied corpus with
  | true =>
    obtain ⟨t, hran, hrun⟩ := corpus.exists_run_update o.repo o.start
    have hresult : o.result corpus =
        (do corpus.update o.repo; return true : Action σ Bool).run o.start :=
      corpus.ensureLocal_of_exists o.repo hcopied
    rcases hrun with hrun | ⟨failure, hrun⟩
    · rw [EStateM.run_bind, hrun] at hresult
      have hfinish : o.finish corpus = t := by rw [finish, hresult]; rfl
      refine .pulled hcopied (hfinish ▸ hran) fun available u hok => ?_
      rw [hresult] at hok
      cases hok
      rfl
    · rw [EStateM.run_bind, hrun] at hresult
      have hfinish : o.finish corpus = t := by rw [finish, hresult]; rfl
      refine .pulled hcopied (hfinish ▸ hran) fun available u hok => ?_
      rw [hresult] at hok
      cases hok
  | false =>
    have hclone : o.result corpus = (corpus.clone o.repo).run o.start := by
      have hmissing : ¬ o.start.world.files.exists? (corpus.pathTo o.repo) = true :=
        Bool.eq_false_iff.1 hcopied
      rw [result, Corpus.ensureLocal, Action.run_world_bind, if_neg hmissing]
    cases hmade : (FileTree.makeDirectories (corpus.ownerDirectory o.repo)).run
        o.start.world.files with
    | error error files =>
      refine .unmade hcopied hmade ?_
      have hchange := Action.run_changeFiles
        (FileTree.makeDirectories (corpus.ownerDirectory o.repo)) o.start
      rw [hmade] at hchange
      rw [hclone, Corpus.clone, EStateM.run_bind, hchange]
    | ok _ files =>
      obtain ⟨t, hran, hrun⟩ := corpus.exists_run_clone o.repo hmade
      rw [← hclone] at hrun
      have hfinish : o.finish corpus = t := by
        rw [finish, hrun]
        split <;> rfl
      rw [← hfinish] at hran hrun
      exact .cloned hcopied hmade hran hrun

variable {corpus : Corpus} {o : Operation σ}

/-- A copy that is there is updated and goes on being there. -/
theorem runs_of_isCopied (h : o.isCopied corpus = true) :
    o.runs corpus = [o.pull corpus] ∧
      ∀ available t, o.result corpus = .ok available t → available = true := by
  cases o.course corpus with
  | pulled _ ran result => exact ⟨ran.runs.filter_eventsSince, result⟩
  | unmade missing => rw [h] at missing; cases missing
  | cloned missing => rw [h] at missing; cases missing

/-- A repository whose copy is not there is cloned, unless that fails altogether. -/
theorem runs_of_not_isCopied (h : o.isCopied corpus = false) {available : Bool} {t : Situation σ}
    (hok : o.result corpus = .ok available t) :
    o.runs corpus = [o.clone corpus] ∧ available = o.hasCloned corpus := by
  cases o.course corpus with
  | pulled copied => rw [h] at copied; cases copied
  | unmade _ _ result => rw [hok] at result; cases result
  | cloned _ made ran result =>
    refine ⟨ran.runs.filter_eventsSince, ?_⟩
    rw [hasCloned, cloneEnd?, if_neg (Bool.eq_false_iff.1 h), made]
    dsimp only
    rw [hok] at result
    split at result
    · rename_i code hverdict
      cases result
      rw [hverdict]
      rfl
    · cases result

/-! ## Growth -/

/-- The files only grow. -/
theorem grows (corpus : Corpus) (o : Operation σ) :
    Grows (fun _ => True) o.start.world.files (o.finish corpus).world.files := by
  cases o.course corpus with
  | pulled _ ran =>
    rw [(Basis.mk.inj ran.basis).1]
    exact Git.grows_verdict _ _ _
  | unmade _ made result =>
    have hmade :=
      (GrowsBy.makeDirectories (corpus.ownerDirectory o.repo)).of_run_error (.refl _) made
    rw [finish, result]
    exact hmade.mono fun _ _ => trivial
  | @cloned files _ made ran =>
    have hmade := (GrowsBy.makeDirectories (corpus.ownerDirectory o.repo)).of_run (.refl _) made
    rw [(Basis.mk.inj ran.basis).1]
    exact (hmade.mono fun _ _ => trivial).trans
      (Git.grows_verdict _ _ (o.start.world.holding files))

/-- A clone that has exited with zero leaves the copy behind. -/
theorem isCopiedAfter_of_hasCloned (hnamed : o.repo.IsNamed) (h : o.hasCloned corpus = true) :
    o.isCopiedAfter corpus = true := by
  rw [hasCloned] at h
  cases o.course corpus with
  | pulled copied =>
    rw [cloneEnd?, if_pos copied] at h
    cases h
  | unmade missing made =>
    rw [cloneEnd?, if_neg (Bool.eq_false_iff.1 missing), made] at h
    cases h
  | cloned missing made ran =>
    rw [cloneEnd?, if_neg (Bool.eq_false_iff.1 missing), made] at h
    dsimp only at h
    obtain ⟨init, hinit⟩ := corpus.exists_components_pathTo hnamed
    have htarget : Path.components (o.cloneCommand.target (corpus.ownerDirectory o.repo)) =
        init ++ [o.repo.name] := hinit
    have hleft := Git.isDirectory_verdict htarget hnamed.name.isPlain (eq_ok_of_isZero h)
    rw [isCopiedAfter, (Basis.mk.inj ran.basis).1]
    exact FileTree.exists_of_isDirectory hleft

/-! ## Operations in tidy worlds -/

theorem isTidy_finish (corpus : Corpus) (h : o.start.world.IsTidy) :
    (o.finish corpus).world.IsTidy := by
  cases o.course corpus with
  | pulled _ ran => exact (Git.isTidy_verdict _ _ h).of_basis ran.basis
  | unmade _ made result =>
    have hkept := KeepsSound.makeDirectories (corpus.ownerDirectory o.repo) _ h.sound
    rw [made] at hkept
    rw [finish, result]
    exact ⟨hkept, h.confined⟩
  | @cloned files _ made ran =>
    exact (Git.isTidy_verdict _ _ (h.holding_of_made made)).of_basis ran.basis

/-- Making the directory of the owner does not touch the copy. -/
theorem grows_ownerDirectory {r : FileTree Content} (hr : r.IsSound) (hbase : r.Clears corpus.base)
    (hnamed : o.repo.IsNamed) :
    GrowsBy r (fun place => corpus.Concerns o.repo place ∧
        place ≠ Path.resolve (corpus.pathTo o.repo))
      (FileTree.makeDirectories (corpus.ownerDirectory o.repo) :
        FileTree.Change Content Unit) := by
  refine (GrowsBy.makeDirectories _).mono fun place hplace => ?_
  have hbegins := Corpus.concerns_of_isOnWay_ownerDirectory hr hbase hnamed hplace
  rw [Corpus.Concerns, corpus.resolve_pathTo hnamed]
  refine ⟨.inl (hbegins.trans ?_), ?_⟩
  · exact (List.prefix_append_right_inj _).2 ⟨[o.repo.name], rfl⟩
  · rintro rfl
    have hlength := hbegins.length_le
    simp at hlength

/-- In a tidy world all that is left behind is on the way to the copy or in it. -/
theorem grows_of_isTidy (hbase : o.start.world.files.Clears corpus.base)
    (hnamed : o.repo.IsNamed) (h : o.start.world.IsTidy) :
    Grows (corpus.Concerns o.repo) o.start.world.files (o.finish corpus).world.files := by
  have hmaking := (grows_ownerDirectory h.sound hbase hnamed).mono fun _ => And.left
  cases o.course corpus with
  | pulled _ ran =>
    rw [(Basis.mk.inj ran.basis).1]
    exact Git.grows_verdict_of_isTidy .pull _ (Corpus.clears_pathTo hbase hnamed) h
  | unmade _ made result =>
    have hmade := hmaking.of_run_error (.refl _) made
    rw [finish, result]
    exact hmade
  | @cloned files _ made ran =>
    have hmade := hmaking.of_run (.refl _) made
    have hleft := Git.grows_verdict_of_isTidy o.cloneCommand _
      (Corpus.clears_pathTo (hmade.clears hbase) hnamed) (h.holding_of_made made)
    rw [(Basis.mk.inj ran.basis).1]
    exact hmade.trans hleft

/-- Copies of other repositories are there or not as before. -/
theorem exists_eq_of_ne {other : Repo} (hbase : o.start.world.files.Clears corpus.base)
    (hnamed : o.repo.IsNamed) (hother : other.IsNamed) (hne : o.repo.fullName ≠ other.fullName)
    (h : o.start.world.IsTidy) :
    (o.finish corpus).world.files.exists? (corpus.pathTo other) =
      o.start.world.files.exists? (corpus.pathTo other) := by
  have hgrows := grows_of_isTidy hbase hnamed h
  have hsame := hgrows.elsewhere _ (Corpus.not_concerns_of_ne hnamed hother hne)
  rw [Bool.eq_iff_iff,
    Corpus.exists_pathTo_iff (isTidy_finish corpus h).sound (hgrows.clears hbase) hother,
    Corpus.exists_pathTo_iff h.sound hbase hother, hsame, hgrows.checkPath]

/-- A copy that is not there is still not there after a clone that leaves nothing behind. -/
theorem isCopiedAfter_of_leavesNothing (hbase : o.start.world.files.Clears corpus.base)
    (hnamed : o.repo.IsNamed) (h : o.start.world.IsTidy) (hmissing : o.isCopied corpus = false)
    (hleaves : o.LeavesNothing corpus) : o.isCopiedAfter corpus = false := by
  -- Nothing stands at the place of the copy after the directory of the owner has been made.
  have hstill : ∀ {files : FileTree Content},
      Grows (fun place => corpus.Concerns o.repo place ∧
        place ≠ Path.resolve (corpus.pathTo o.repo)) o.start.world.files files →
      files.IsSound → files.exists? (corpus.pathTo o.repo) = false := by
    intro files hgrows hsound
    have hsame := hgrows.elsewhere _ fun hplace => hplace.2 rfl
    rw [← hmissing, isCopied, Bool.eq_iff_iff,
      Corpus.exists_pathTo_iff hsound (hgrows.clears hbase) hnamed,
      Corpus.exists_pathTo_iff h.sound hbase hnamed, hsame, hgrows.checkPath]
  have hmaking := grows_ownerDirectory h.sound hbase hnamed
  have htidy := isTidy_finish corpus h
  cases o.course corpus with
  | pulled copied => rw [hmissing] at copied; cases copied
  | unmade _ made result =>
    have hmade := hmaking.of_run_error (.refl _) made
    refine hstill ?_ htidy.sound
    rw [finish, result]
    exact hmade
  | @cloned files _ made ran =>
    have hend : (o.cloneEnd? corpus).isSome = true := by
      rw [cloneEnd?, if_neg (Bool.eq_false_iff.1 hmissing), made]
      rfl
    rcases hleaves hend with hfruitless | hnothing
    · refine hstill ?_ htidy.sound
      rw [(Basis.mk.inj ran.basis).1, Git.files_verdict_of_isFruitless]
      · exact hmaking.of_run (.refl _) made
      · rwa [(Git.draw_congr (w := o.start.world.holding files) (v := o.start.world) _ _ rfl).1]
    · exact hnothing

end Operation
end FeatureCensus
