import FeatureCensus.Proofs.Corpus.Operations

/-!
# Histories of a corpus

A history of calls unfolds into operations on copies, one after the other, with nothing but
messages, requests, pauses and the handing over of copies in between.  Whether a copy is there is
found out anew by each operation.  Once a clone has exited with zero the copy is only updated from
then on, whatever else is done; before that each operation clones the repository again, as long as
no clone leaves anything behind, and no operation on another repository changes which of the two
applies.

Main results:

- Theorem {lit}`Corpus.Unfolds.exists_of_exists`: a copy that is there is there from then on.
- Theorem {lit}`Corpus.Unfolds.not_exists`: a copy whose clones leave nothing behind is not there.
- Theorem {lit}`Corpus.unfolds_calls`: a history of calls unfolds into its operations.
- Theorem {lit}`Corpus.operations_calls`: what becomes of copies in a history of calls.
-/

namespace FeatureCensus

variable {σ : Type}

open FeatureCensus.Path (IsStraight)

namespace Corpus

/-! ## Unfolding -/

/-- How operations lead from a situation to another one, with idleness before, between and after
them. -/
inductive Unfolds (corpus : Corpus) : Situation σ → List (Operation σ) → Situation σ → Prop where
  | idle {s t} : s.Idles t → Unfolds corpus s [] t
  | operate {s o rest t} : s.Idles o.start → Unfolds corpus (o.finish corpus) rest t →
    Unfolds corpus s (o :: rest) t

variable {corpus : Corpus} {s t u : Situation σ} {o : Operation σ}
  {before later ops : List (Operation σ)} {repo : Repo}

/-- An operation adds the runs of version control that happen in it. -/
theorem adds_runs (corpus : Corpus) (o : Operation σ) :
    Situation.Adds Event.isGit (o.runs corpus) o.start (o.finish corpus) := by
  have hadds : ∃ events, Situation.Adds Event.isGit events o.start (o.finish corpus) := by
    cases o.course corpus with
    | pulled _ ran => exact ⟨_, ran.runs⟩
    | unmade _ _ result =>
      refine ⟨[], ?_⟩
      rw [Operation.finish, result]
      exact ⟨[], by simp [Situation.endOf], rfl⟩
    | cloned _ _ ran => exact ⟨_, ran.runs⟩
  obtain ⟨events, hevents⟩ := hadds
  rwa [Operation.runs, hevents.filter_eventsSince]

namespace Unfolds

theorem of_idles (hidles : s.Idles t) (h : corpus.Unfolds t ops u) : corpus.Unfolds s ops u := by
  cases h with
  | idle hlater => exact .idle (hidles.trans hlater)
  | operate hlater hrest => exact .operate (hidles.trans hlater) hrest

theorem trans (h : corpus.Unfolds s before t) (hnext : corpus.Unfolds t later u) :
    corpus.Unfolds s (before ++ later) u := by
  induction h with
  | idle hidles => exact hnext.of_idles hidles
  | operate hidles _ ih => exact .operate hidles (ih hnext)

/-- An operation on the way is reached by those before it and followed by those after it. -/
theorem exists_split (h : corpus.Unfolds s (before ++ o :: later) t) :
    corpus.Unfolds s before o.start ∧ corpus.Unfolds (o.finish corpus) later t := by
  induction before generalizing s with
  | nil =>
    cases h with
    | operate hidles hrest => exact ⟨.idle hidles, hrest⟩
  | cons first rest ih =>
    cases h with
    | operate hidles hrest =>
      obtain ⟨hbefore, hlater⟩ := ih hrest
      exact ⟨.operate hidles hbefore, hlater⟩

/-- Version control runs in the operations only. -/
theorem adds (h : corpus.Unfolds s ops t) :
    Situation.Adds Event.isGit (ops.flatMap (·.runs corpus)) s t := by
  induction h with
  | idle hidles => exact hidles.quiet
  | operate hidles _ ih => exact hidles.quiet.trans ((adds_runs corpus _).trans ih)

theorem files_of_idles (h : s.Idles t) : t.world.files = s.world.files :=
  (Basis.mk.inj h.basis).1

/-- What a path finds it goes on finding. -/
theorem exists_of_exists (h : corpus.Unfolds s ops t) {path : String}
    (hexists : s.world.files.exists? path = true) : t.world.files.exists? path = true := by
  induction h with
  | idle hidles => rwa [files_of_idles hidles]
  | @operate s o rest t hidles _ ih =>
    refine ih ((o.grows corpus).exists_of_exists ?_)
    rwa [files_of_idles hidles]

/-- What can be followed as far as it leads up can be followed so far from then on. -/
theorem clears (h : corpus.Unfolds s ops t) {path : String}
    (hclears : s.world.files.Clears path) : t.world.files.Clears path := by
  induction h with
  | idle hidles => rwa [files_of_idles hidles]
  | @operate s o rest t hidles _ ih =>
    refine ih ((o.grows corpus).clears ?_)
    rwa [files_of_idles hidles]

theorem isTidy (h : corpus.Unfolds s ops t) (hs : s.world.IsTidy) : t.world.IsTidy := by
  induction h with
  | idle hidles => exact hs.of_basis hidles.basis
  | operate hidles _ ih => exact ih (Operation.isTidy_finish corpus (hs.of_basis hidles.basis))

/-- A copy is not there as long as its clones leave nothing behind. -/
theorem not_exists (h : corpus.Unfolds s ops t) (hs : s.world.IsTidy)
    (hbase : s.world.files.Clears corpus.base) (hrepo : repo.IsNamed)
    (hnamed : ∀ o ∈ ops, o.repo.IsNamed)
    (hleaves : ∀ o ∈ ops, o.repo.fullName = repo.fullName → o.LeavesNothing corpus)
    (hmissing : s.world.files.exists? (corpus.pathTo repo) = false) :
    t.world.files.exists? (corpus.pathTo repo) = false := by
  induction h with
  | idle hidles => rwa [files_of_idles hidles]
  | @operate s o rest t hidles _ ih =>
    have htidy := hs.of_basis hidles.basis
    rw [← files_of_idles hidles] at hmissing hbase
    refine ih (Operation.isTidy_finish corpus htidy) ((o.grows corpus).clears hbase)
      (fun p hp => hnamed p (List.mem_cons_of_mem o hp))
      (fun p hp => hleaves p (List.mem_cons_of_mem o hp)) ?_
    have hfirst := hnamed o List.mem_cons_self
    by_cases hsame : o.repo.fullName = repo.fullName
    · have hpath : corpus.pathTo o.repo = corpus.pathTo repo := pathTo_congr hsame
      rw [← hpath] at hmissing ⊢
      exact Operation.isCopiedAfter_of_leavesNothing hbase hfirst htidy hmissing
        (hleaves o List.mem_cons_self hsame)
    · rwa [Operation.exists_eq_of_ne hbase hfirst hrepo hsame htidy]

end Unfolds

/-! ## Operations of discoveries -/

/-- The situation after a discovered repository has been announced. -/
def announcing (found : Found) (repo : Repo) (s : Situation σ) : Situation σ :=
  { s with world := s.world.record (.log .info
      ("[" ++ toString found.index ++ "/" ++ toString found.total ++ "] " ++ repo.fullName)) }

/-- The operations on copies while the steps of a discovery are taken. -/
def operationsOf (corpus : Corpus) (source : Source) (localOnly : Bool)
    (visit : String → Action σ Bool) : List Discovery.Step → Situation σ → List (Operation σ)
  | [], _ => []
  | .request page :: rest, s =>
    operationsOf corpus source localOnly visit rest
      (.endOf ((Discovery.requestPage source page).run s))
  | .failed _ _ :: _, _ => []
  | .found found :: rest, s =>
    match Repo.ofListed? found.listed with
    | none => []
    | some repo =>
      (if localOnly then [] else [⟨repo, announcing found repo s⟩]) ++
        match (corpus.handle localOnly visit found).run s with
        | .ok true t => operationsOf corpus source localOnly visit rest t
        | _ => []

/-- Whether a visitor leaves files and coming outcomes alone and does not run version control. -/
def IsIdleVisitor (visit : String → Action σ Bool) : Prop :=
  ∀ path (s : Situation σ), s.Idles (.endOf ((visit path).run s))

variable {source : Source} {localOnly : Bool} {visit : String → Action σ Bool}

theorem idles_conclude (hvisit : IsIdleVisitor visit) (available : Bool) (s : Situation σ) :
    s.Idles (.endOf ((corpus.conclude repo visit available).run s)) := by
  cases available with
  | true =>
    rw [conclude, if_pos rfl]
    exact hvisit _ s
  | false =>
    rw [conclude, if_neg Bool.false_ne_true]
    cases corpus.continueOnFailure with
    | true => exact .record s rfl
    | false => exact .record s rfl

/-- What is done with a discovered repository is an operation on its copy, unless only existing
copies are wanted. -/
theorem unfolds_handle (hvisit : IsIdleVisitor visit) {found : Found}
    (h : Repo.ofListed? found.listed = some repo) (s : Situation σ) :
    corpus.Unfolds s (if localOnly then [] else [⟨repo, announcing found repo s⟩])
      (.endOf ((corpus.handle localOnly visit found).run s)) := by
  have hannounced : s.Idles (announcing found repo s) := .record s rfl
  cases localOnly with
  | true =>
    have hhandle : (corpus.handle true visit found).run s =
        (visit (corpus.pathTo repo)).run (announcing found repo s) := by
      rw [handle, h]
      rfl
    rw [if_pos rfl, hhandle]
    exact .idle (hannounced.trans (hvisit _ _))
  | false =>
    have hhandle : (corpus.handle false visit found).run s =
        (do corpus.conclude repo visit (← corpus.ensureLocal repo) : Action σ Bool).run
          (announcing found repo s) := by
      rw [corpus.handle_eq repo visit h]
      exact Action.run_log_bind _ _ _ s
    rw [if_neg Bool.false_ne_true, hhandle, EStateM.run_bind]
    refine .operate hannounced (.idle ?_)
    rw [Operation.finish, Operation.result]
    dsimp only
    cases (corpus.ensureLocal repo).run (announcing found repo s) with
    | ok available t => exact idles_conclude hvisit available t
    | error failure t => exact .refl t

/-- The steps of a discovery unfold into the operations on the copies. -/
theorem unfolds_pursue (hvisit : IsIdleVisitor visit) (steps : List Discovery.Step)
    (s : Situation σ) :
    corpus.Unfolds s (corpus.operationsOf source localOnly visit steps s)
      (.endOf ((Discovery.pursue source (corpus.handle localOnly visit) steps).run s)) := by
  induction steps generalizing s with
  | nil => exact .idle (.refl s)
  | cons step rest ih =>
    cases step with
    | failed page failure => exact .idle (.refl s)
    | request page =>
      have hidles : s.Idles (.endOf ((Discovery.requestPage source page).run s)) := by
        let noted : Situation σ := { s with world := s.world.record (.log .info ("Source \"" ++
          Source.name ++ "\" searching GitHub for repos (page " ++ toString page ++ ")")) }
        have hnoted : s.Idles noted := .record s rfl
        let asked : Event := .request source.credentials? source.query? page source.perPage?
        have hrequested : noted.Idles { noted with world := noted.world.record asked } :=
          .record noted rfl
        exact ⟨(hnoted.trans hrequested).basis, (hnoted.trans hrequested).quiet⟩
      exact (ih _).of_idles hidles
    | found found =>
      rw [operationsOf, Discovery.pursue, EStateM.run_bind]
      cases hrepo : Repo.ofListed? found.listed with
      | none =>
        have hhandle : (corpus.handle localOnly visit found).run s = .error .wrongType s := by
          rw [handle, hrepo]
          rfl
        rw [hhandle]
        exact .idle (.refl s)
      | some repo =>
        have hfirst : corpus.Unfolds s
            (if localOnly then [] else [⟨repo, announcing found repo s⟩])
            (.endOf ((corpus.handle localOnly visit found).run s)) :=
          unfolds_handle hvisit hrepo s
        dsimp only
        cases hhandle : (corpus.handle localOnly visit found).run s with
        | error failure t =>
          rw [hhandle] at hfirst
          exact hfirst.trans (.idle (.refl t))
        | ok goOn t =>
          rw [hhandle] at hfirst
          cases goOn with
          | false => exact hfirst.trans (.idle (.refl t))
          | true => exact hfirst.trans (ih t)

/-! ## Calls -/

/-- A call of a history. -/
inductive Call (σ : Type) where
  /-- The copy of a repository is made sure of. -/
  | ensureLocal (repo : Repo)
  /-- The copies of all discovered repositories are handed to a visitor. -/
  | update (source : Source) (localOnly : Bool) (visit : String → Action σ Bool)

namespace Call

/-- The situation after a call, whether or not it fails. -/
def after (corpus : Corpus) : Call σ → Situation σ → Situation σ
  | ensureLocal repo, s => .endOf ((corpus.ensureLocal repo).run s)
  | update source localOnly visit, s => .endOf ((corpus.visitAll source localOnly visit).run s)

/-- The operations of a call. -/
def operations (corpus : Corpus) : Call σ → Situation σ → List (Operation σ)
  | ensureLocal repo, s => [⟨repo, s⟩]
  | update source localOnly visit, s =>
    corpus.operationsOf source localOnly visit (Discovery.steps source s.world.answers) s

/-- Whether only the corpus changes files and runs version control in a call. -/
def IsIdle : Call σ → Prop
  | ensureLocal _ => True
  | update _ _ visit => IsIdleVisitor visit

theorem unfolds_operations {call : Call σ} (h : call.IsIdle) (s : Situation σ) :
    corpus.Unfolds s (call.operations corpus s) (call.after corpus s) := by
  cases call with
  | ensureLocal repo => exact .operate (.refl s) (.idle (.refl _))
  | update source localOnly visit => exact unfolds_pursue h _ s

end Call

/-- The situation after a history of calls. -/
def afterCalls (corpus : Corpus) : List (Call σ) → Situation σ → Situation σ
  | [], s => s
  | call :: rest, s => afterCalls corpus rest (call.after corpus s)

/-- The operations of a history of calls. -/
def operations (corpus : Corpus) : List (Call σ) → Situation σ → List (Operation σ)
  | [], _ => []
  | call :: rest, s => call.operations corpus s ++ operations corpus rest (call.after corpus s)

theorem operations_ensureLocal (corpus : Corpus) (repo : Repo) (rest : List (Call σ))
    (s : Situation σ) :
    corpus.operations (.ensureLocal repo :: rest) s =
      ⟨repo, s⟩ :: corpus.operations rest ((Operation.mk repo s).finish corpus) := rfl

/-- A history of calls unfolds into its operations. -/
theorem unfolds_calls {calls : List (Call σ)} (h : ∀ call ∈ calls, call.IsIdle)
    (s : Situation σ) :
    corpus.Unfolds s (corpus.operations calls s) (corpus.afterCalls calls s) := by
  induction calls generalizing s with
  | nil => exact .idle (.refl s)
  | cons call rest ih =>
    exact (Call.unfolds_operations (h call List.mem_cons_self) s).trans
      (ih (fun other hother => h other (List.mem_cons_of_mem call hother)) _)

/-! ## Copies in a history -/

/-- Whether once a clone has exited with zero each later operation on the same repository updates
the copy and tells that it is there. -/
def Updates (corpus : Corpus) (ops : List (Operation σ)) : Prop :=
  ∀ before o later, ops = before ++ o :: later → o.hasCloned corpus = true →
    ∀ p ∈ later, p.repo.fullName = o.repo.fullName →
      p.runs corpus = [p.pull corpus] ∧
        ∀ available t, p.result corpus = .ok available t → available = true

/-- Whether an operation on a repository whose copy is not there at first clones it and tells
whether that exits with zero, unless it fails altogether, as long as all earlier operations on the
repository are such that their clones fail in some sense. -/
def Clones (corpus : Corpus) (failed : Operation σ → Prop) (s : Situation σ)
    (ops : List (Operation σ)) : Prop :=
  ∀ before o later, ops = before ++ o :: later →
    s.world.files.exists? (corpus.pathTo o.repo) = false →
    (∀ p ∈ before, p.repo.fullName = o.repo.fullName → failed p) →
    ∀ available t, o.result corpus = .ok available t →
      o.runs corpus = [o.clone corpus] ∧ available = o.hasCloned corpus

/-- Whether no operation changes whether the copies of other repositories are there. -/
def KeepsApart (corpus : Corpus) (ops : List (Operation σ)) : Prop :=
  ∀ o ∈ ops, ∀ repo : Repo, repo.IsNamed → o.repo.fullName ≠ repo.fullName →
    (o.finish corpus).world.files.exists? (corpus.pathTo repo) =
      o.start.world.files.exists? (corpus.pathTo repo)

/-- In a history of calls version control runs in the operations only.  Once a clone has exited
with zero the copy is only updated.  If the path of the base directory can be followed at first as
far as it leads up, before that each operation clones the repository, if its copy is not there at
first and no clone has left anything behind, and operations on other repositories do not matter. -/
theorem operations_calls {calls : List (Call σ)} {s : Situation σ}
    (hidle : ∀ call ∈ calls, call.IsIdle)
    (hnamed : ∀ o ∈ corpus.operations calls s, o.repo.IsNamed) :
    corpus.Unfolds s (corpus.operations calls s) (corpus.afterCalls calls s) ∧
      Situation.Adds Event.isGit ((corpus.operations calls s).flatMap (·.runs corpus)) s
        (corpus.afterCalls calls s) ∧
      corpus.Updates (corpus.operations calls s) ∧
      (s.world.files.Clears corpus.base → s.world.IsTidy →
        corpus.Clones (·.LeavesNothing corpus) s (corpus.operations calls s) ∧
          corpus.KeepsApart (corpus.operations calls s)) := by
  have hunfolds : corpus.Unfolds s (corpus.operations calls s) (corpus.afterCalls calls s) :=
    unfolds_calls hidle s
  refine ⟨hunfolds, hunfolds.adds, ?_, fun hbase htidy => ⟨?_, ?_⟩⟩
  · intro before o later hops hend p hp hsame
    rw [hops] at hunfolds hnamed
    have hthere := Operation.isCopiedAfter_of_hasCloned (hnamed o (by simp)) hend
    obtain ⟨between, after, rfl⟩ := List.append_of_mem hp
    have hstart := hunfolds.exists_split.2.exists_split.1.exists_of_exists hthere
    rw [← pathTo_congr hsame] at hstart
    exact Operation.runs_of_isCopied hstart
  · intro before o later hops hmissing hfailed available t hok
    rw [hops] at hunfolds hnamed
    refine Operation.runs_of_not_isCopied ?_ hok
    exact hunfolds.exists_split.1.not_exists htidy hbase (hnamed o (by simp))
      (fun p hp => hnamed p (List.mem_append_left _ hp)) hfailed hmissing
  · intro o ho repo hrepo hne
    obtain ⟨before, later, hops⟩ := List.append_of_mem ho
    rw [hops] at hunfolds
    exact Operation.exists_eq_of_ne (hunfolds.exists_split.1.clears hbase) (hnamed o ho) hrepo hne
      (hunfolds.exists_split.1.isTidy htidy)

/-! ## Histories by hand -/

/-- A corpus in the working directory. -/
def plainCorpus : Corpus :=
  { base := "b" }

/-- A repository by hand. -/
def sampleRepo : Repo :=
  .of "o/n" "u"

/-- The situation before a clone that fails and another one that succeeds. -/
def retryingStart : Situation Unit where
  world := { script := [("clone u", [{ code := 128 }, { files := [("src/A.kt", [])] }])] }
  own := ()

/-- Calls that make sure of a copy three times, with a discovery in between whose page cannot be
had. -/
def retryingCalls : List (Call Unit) :=
  [.ensureLocal sampleRepo, .update {} false welcome, .ensureLocal sampleRepo,
    .ensureLocal sampleRepo]

theorem isIdleVisitor_welcome : IsIdleVisitor welcome := by
  intro path s
  have hvisited : s.Idles { s with world := s.world.record (.visit path) } := .record s rfl
  exact ⟨hvisited.basis, hvisited.quiet⟩

/-- The operation of the first call. -/
def firstTry : Operation Unit :=
  ⟨sampleRepo, retryingStart⟩

/-- The operation of the third call. -/
def secondTry : Operation Unit :=
  ⟨sampleRepo, Call.after plainCorpus (.update {} false welcome) (firstTry.finish plainCorpus)⟩

/-- The operation of the last call. -/
def thirdTry : Operation Unit :=
  ⟨sampleRepo, secondTry.finish plainCorpus⟩

theorem operations_retryingCalls :
    plainCorpus.operations retryingCalls retryingStart = [firstTry, secondTry, thirdTry] := by
  have hnone : Call.operations plainCorpus (.update {} false welcome)
      (firstTry.finish plainCorpus) = [] :=
    List.eq_nil_of_length_eq_zero (by decide +kernel)
  rw [firstTry] at hnone
  rw [retryingCalls, operations_ensureLocal, operations, hnone, List.nil_append,
    operations_ensureLocal, operations_ensureLocal, thirdTry, secondTry, firstTry]
  rfl

/-- The first clone fails, so that there is another one, and the copy is updated after that. -/
theorem operations_calls_retrying :
    firstTry.hasCloned plainCorpus = false ∧ secondTry.hasCloned plainCorpus = true ∧
      thirdTry.runs plainCorpus = [thirdTry.pull plainCorpus] ∧
      plainCorpus.Clones (·.LeavesNothing plainCorpus) retryingStart
        [firstTry, secondTry, thirdTry] ∧
      plainCorpus.KeepsApart [firstTry, secondTry, thirdTry] := by
  have hidle : ∀ call ∈ retryingCalls, call.IsIdle := by
    intro call hcall
    simp only [retryingCalls, List.mem_cons, List.not_mem_nil, or_false] at hcall
    rcases hcall with rfl | rfl | rfl | rfl
    · trivial
    · exact isIdleVisitor_welcome
    · trivial
    · trivial
  have hnamed : ∀ o ∈ plainCorpus.operations retryingCalls retryingStart, o.repo.IsNamed := by
    intro o ho
    have hrepo : o.repo = sampleRepo := by
      rw [operations_retryingCalls] at ho
      simp only [List.mem_cons, List.not_mem_nil, or_false] at ho
      rcases ho with rfl | rfl | rfl <;> rfl
    rw [hrepo]
    decide +kernel
  have htidy : retryingStart.world.IsTidy := ⟨FileTree.isSound_empty, by decide +kernel⟩
  obtain ⟨-, -, hupdates, hclones⟩ := operations_calls hidle hnamed
  have hbase : retryingStart.world.files.Clears plainCorpus.base :=
    FileTree.clears_of_isStraight _ (by decide +kernel)
  obtain ⟨hclones, hapart⟩ := hclones hbase htidy
  rw [operations_retryingCalls] at hupdates hclones hapart
  have hfirst : firstTry.hasCloned plainCorpus = false := by decide +kernel
  have hsecond : secondTry.hasCloned plainCorpus = true := by decide +kernel
  exact ⟨hfirst, hsecond,
    (hupdates [firstTry] secondTry [thirdTry] rfl hsecond thirdTry List.mem_cons_self rfl).1,
    hclones, hapart⟩

/-! ## Copies that are found after failed clones -/

/-- A history in which a copy is found after a clone that does not exit with zero. -/
theorem not_clones_of_isCopied {first second : Operation σ} (hops : ops = [first, second])
    (hmissing : s.world.files.exists? (corpus.pathTo second.repo) = false)
    (hfailed : first.hasCloned corpus = false) (hcopied : second.isCopied corpus = true)
    (hok : (second.result corpus matches .ok _ _) = true) :
    ¬ corpus.Clones (fun o => o.hasCloned corpus = false) s ops := by
  intro hclones
  cases hresult : second.result corpus with
  | error failure t =>
    rw [hresult] at hok
    cases hok
  | ok available t =>
    have hbefore : ∀ p ∈ [first], p.repo.fullName = second.repo.fullName →
        p.hasCloned corpus = false := by
      intro p hp _
      rw [List.mem_singleton.1 hp]
      exact hfailed
    have hcloned := (hclones [first] second [] hops hmissing hbefore available t hresult).1
    rw [(Operation.runs_of_isCopied hcopied).1] at hcloned
    have harguments := (Event.git.inj (List.cons.inj hcloned).1).1
    have hlength : 1 = 3 := congrArg List.length harguments
    cases hlength

/-- Calls that make sure of a copy twice. -/
def repeatedCalls : List (Call Unit) :=
  [.ensureLocal sampleRepo, .ensureLocal sampleRepo]

/-- A corpus whose base directory is reached through a directory that is missing. -/
def roundaboutCorpus : Corpus :=
  { base := "a/../b" }

/-- The situation in which the copy stands where that base directory will lead, and clones fail. -/
def buriedStart : Situation Unit where
  world := {
    files := { nodes := [(["work"], .directory), (["work", "b"], .directory),
      (["work", "b", "o"], .directory), (["work", "b", "o", "n"], .directory)] }
    script := [("clone u", [{ code := 128 }])] }
  own := ()

/-- The situation before a clone whose files cannot stand beside each other. -/
def conflictingStart : Situation Unit where
  world := { script := [("clone u", [{ files := [("a", []), ("a/b", [])] }])] }
  own := ()

theorem isTidy_buriedStart : buriedStart.world.IsTidy where
  sound := by
    refine ⟨by decide +kernel, by decide +kernel, by decide +kernel⟩
  confined := by decide +kernel

/-- After a failed clone the copy is there all the same, if the path of the base directory leads up,
or if the clone has left something behind; so it is updated and not cloned again. -/
theorem not_clones_repeatedCalls :
    (buriedStart.world.IsTidy ∧
      ¬ roundaboutCorpus.Clones (fun o => o.hasCloned roundaboutCorpus = false) buriedStart
        (roundaboutCorpus.operations repeatedCalls buriedStart)) ∧
    IsStraight plainCorpus.base ∧ conflictingStart.world.IsTidy ∧
      ¬ plainCorpus.Clones (fun o => o.hasCloned plainCorpus = false) conflictingStart
        (plainCorpus.operations repeatedCalls conflictingStart) := by
  refine ⟨⟨isTidy_buriedStart, ?_⟩, by decide +kernel,
    ⟨FileTree.isSound_empty, by decide +kernel⟩, ?_⟩
  · exact not_clones_of_isCopied rfl (by decide +kernel) (by decide +kernel)
      (by decide +kernel) (by decide +kernel)
  · exact not_clones_of_isCopied rfl (by decide +kernel) (by decide +kernel)
      (by decide +kernel) (by decide +kernel)

end Corpus
end FeatureCensus
