import FeatureCensus.Corpus.Corpus
import FeatureCensus.Proofs.Corpus.Commands

/-!
# Upkeep of copies

What is done with a discovered repository is a plan: a copy that is there is updated and one that
is not is cloned, and after a pause the copy is handed over, unless it could not be cloned.  The
upkeep of a corpus takes the steps of a discovery one by one, and makes the plan for a repository
when it is found.  Nothing else is done in between but that messages are logged.

Main results:

- Theorem {lit}`Corpus.upkeep_pursue`: the steps of a discovery are taken as the upkeep does.
- Theorem {lit}`Corpus.visitAll_upkeep`: handing over all copies is the upkeep of the corpus.
-/

namespace FeatureCensus

variable {σ α : Type}

/-! ## Plans -/

/-- What remains to be done with a repository. -/
inductive Plan where
  /-- Nothing, and this tells whether to go on with other repositories. -/
  | finish (goOn : Bool)
  | makeDirectory (path : String) (next : Plan)
  /-- Runs version control and goes on with what its code asks for. -/
  | git (command : Git.Command) (directory : String) (next : Int → Plan)
  | pause (seconds? : Option Decimal) (next : Plan)
  /-- Hands over the copy, and the visitor tells whether to go on. -/
  | handOver (path : String)

/-- The plan for a repository, of which there is a copy already or not. -/
def Corpus.plan (corpus : Corpus) (repo : Repo) (copied : Bool) : Plan :=
  if copied then
    .git .pull (corpus.pathTo repo) fun _ =>
      .pause corpus.updatePause? (.handOver (corpus.pathTo repo))
  else
    .makeDirectory (corpus.ownerDirectory repo) <|
      .git (.clone repo.cloneAddress repo.name) (corpus.ownerDirectory repo) fun code =>
        if code = 0 then .pause corpus.clonePause? (.handOver (corpus.pathTo repo))
        else .finish corpus.continueOnFailure

namespace Plan

/-- How a plan is followed in a situation: the runs of version control, the pauses and the
handing over that happen, and the end.  Messages may be logged before anything else is done. -/
inductive Follows (visit : String → Action σ Bool) :
    Plan → Situation σ → List Event → EStateM.Result Failure (Situation σ) Bool → Prop where
  | noted {plan s happened result} (level : Level) (message : String) :
    Follows visit plan { s with world := s.world.record (.log level message) } happened result →
    Follows visit plan s happened result
  | finish {s} (goOn : Bool) : Follows visit (.finish goOn) s [] (.ok goOn s)
  | made {path next s files happened result} :
    (FileTree.makeDirectories path).run s.world.files = .ok () files →
    Follows visit next { s with world := { s.world with files } } happened result →
    Follows visit (.makeDirectory path next) s happened result
  | notMade {path next s error files} :
    (FileTree.makeDirectories path).run s.world.files = .error error files →
    Follows visit (.makeDirectory path next) s []
      (.error (.file error) { s with world := { s.world with files } })
  | ran {command directory next s code world happened result} :
    Git.verdict command directory s.world = (.ok code, world) →
    Follows visit (next code) { s with world } happened result →
    Follows visit (.git command directory next) s
      (.git command.arguments directory :: happened) result
  | aborted {command directory next s failure world} :
    Git.verdict command directory s.world = (.error failure, world) →
    Follows visit (.git command directory next) s [.git command.arguments directory]
      (.error failure { s with world })
  | paused {seconds? next s happened result} :
    Follows visit next { s with world := s.world.record (.pause seconds?) } happened result →
    Follows visit (.pause seconds? next) s (.pause seconds? :: happened) result
  | handedOver {s} (path : String) :
    Follows visit (.handOver path) s [.visit path] ((visit path).run s)

variable {visit : String → Action σ Bool} {plan : Plan}

theorem Follows.of_noting {s : Situation σ} {messages : List (Level × String)}
    {happened : List Event} {result : EStateM.Result Failure (Situation σ) Bool}
    (h : plan.Follows visit (s.noting messages) happened result) :
    plan.Follows visit s happened result := by
  induction messages generalizing s with
  | nil => exact h
  | cons message rest ih =>
    obtain ⟨level, text⟩ := message
    exact .noted level text (ih h)

/-- Whether what an action does is what a plan says. -/
def Governs (visit : String → Action σ Bool) (plan : Plan) (x : Action σ Bool) : Prop :=
  ∀ s, ∃ happened, plan.Follows visit s happened (x.run s)

namespace Governs

theorem finish (goOn : Bool) : (Plan.finish goOn).Governs visit (pure goOn) :=
  fun _ => ⟨[], .finish goOn⟩

theorem handOver (path : String) : (Plan.handOver path).Governs visit (visit path) :=
  fun _ => ⟨[.visit path], .handedOver path⟩

theorem log {x : Action σ Bool} (h : plan.Governs visit x) (level : Level) (message : String) :
    plan.Governs visit (do Action.log level message; x) := by
  intro s
  obtain ⟨happened, hfollows⟩ := h { s with world := s.world.record (.log level message) }
  exact ⟨happened, .noted level message hfollows⟩

theorem pause {x : Action σ Bool} (h : plan.Governs visit x) (seconds? : Option Decimal) :
    (Plan.pause seconds? plan).Governs visit (do Action.record (.pause seconds?); x) := by
  intro s
  obtain ⟨happened, hfollows⟩ := h { s with world := s.world.record (.pause seconds?) }
  exact ⟨.pause seconds? :: happened, .paused hfollows⟩

theorem makeDirectory {x : Action σ Bool} (h : plan.Governs visit x) (path : String) :
    (Plan.makeDirectory path plan).Governs visit
      (do Action.changeFiles (FileTree.makeDirectories path); x) := by
  intro s
  have hmake := Action.run_changeFiles (FileTree.makeDirectories path) s
  cases hfiles : (FileTree.makeDirectories path).run s.world.files with
  | ok _ files =>
    rw [hfiles] at hmake
    obtain ⟨happened, hfollows⟩ := h { s with world := { s.world with files } }
    rw [EStateM.run_bind, hmake]
    exact ⟨happened, .made hfiles hfollows⟩
  | error error files =>
    rw [hfiles] at hmake
    rw [EStateM.run_bind, hmake]
    exact ⟨[], .notMade hfiles⟩

theorem git {command : Git.Command} {directory : String} {next : Int → Plan}
    {x : Int → Action σ Bool} (h : ∀ code, (next code).Governs visit (x code)) :
    (Plan.git command directory next).Governs visit
      (do x (← Git.run command directory)) := by
  intro s
  have hrun := Git.amounts_run command directory s
  rcases hverdict : Git.verdict command directory s.world with ⟨result, world⟩
  rw [hverdict] at hrun
  cases result with
  | ok code =>
    obtain ⟨messages, hrun⟩ := hrun
    obtain ⟨happened, hfollows⟩ := h code ({ s with world }.noting messages)
    rw [EStateM.run_bind, hrun]
    exact ⟨_, .ran hverdict hfollows.of_noting⟩
  | error failure =>
    rw [Action.run_bind_error hrun]
    exact ⟨_, .aborted hverdict⟩

end Governs
end Plan

/-! ## Repositories -/

namespace Corpus

variable (corpus : Corpus) (repo : Repo) (visit : String → Action σ Bool)

/-- What is done with a repository once it is known whether its copy is there. -/
def conclude (available : Bool) : Action σ Bool :=
  if available then visit (corpus.pathTo repo)
  else if corpus.continueOnFailure then do
    Action.log .info ("Skipping repo \"" ++ repo.fullName ++ "\"")
    return true
  else do
    Action.log .error ("Stopping discovery after failing to clone \"" ++ repo.fullName ++ "\"")
    return false

/-- A repository of which there is no copy tells only whether to go on. -/
theorem governs_conclude_false :
    (Plan.finish corpus.continueOnFailure).Governs visit (corpus.conclude repo visit false) := by
  rw [conclude, if_neg Bool.false_ne_true]
  cases corpus.continueOnFailure with
  | true => exact .log (.finish true) _ _
  | false => exact .log (.finish false) _ _

theorem governs_update :
    (corpus.plan repo true).Governs visit (do
      corpus.update repo
      corpus.conclude repo visit true) := by
  rw [update]
  simp only [bind_assoc]
  refine .log (.git fun code => ?_) _ _
  split
  · rw [bind_assoc]
    exact .log (.pause (.handOver _) _) _ _
  · exact .pause (.handOver _) _

theorem governs_clone :
    (corpus.plan repo false).Governs visit (do
      corpus.conclude repo visit (← corpus.clone repo)) := by
  rw [clone]
  simp only [bind_assoc]
  refine .makeDirectory (.log (.git fun code => ?_) _ _) _
  by_cases hcode : code = 0
  · rw [if_pos hcode, if_neg (by simp [hcode])]
    simp only [bind_assoc, pure_bind]
    exact .pause (.handOver _) _
  · rw [if_neg hcode, if_pos (by simp [hcode])]
    simp only [bind_assoc, pure_bind]
    exact .log (corpus.governs_conclude_false repo visit) _ _

/-- Whether there is a copy is looked up when it is needed. -/
theorem follows_ensureLocal (s : Situation σ) :
    ∃ happened, (corpus.plan repo (s.world.files.exists? (corpus.pathTo repo))).Follows visit s
      happened ((do corpus.conclude repo visit (← corpus.ensureLocal repo) :
        Action σ Bool).run s) := by
  rw [ensureLocal, bind_assoc, Action.run_world_bind]
  cases s.world.files.exists? (corpus.pathTo repo) with
  | true =>
    rw [if_pos rfl, bind_assoc]
    simp only [pure_bind]
    exact corpus.governs_update repo visit s
  | false =>
    rw [if_neg Bool.false_ne_true]
    exact corpus.governs_clone repo visit s

theorem handle_eq {found : Found} (h : Repo.ofListed? found.listed = some repo) :
    corpus.handle false visit found = (do
      Action.log .info ("[" ++ toString found.index ++ "/" ++ toString found.total ++ "] " ++
        repo.fullName)
      corpus.conclude repo visit (← corpus.ensureLocal repo) : Action σ Bool) := by
  rw [handle, h]
  rfl

/-- What is done with a repository follows the plan for it, which is made when it is found. -/
theorem follows_handle {found : Found} (h : Repo.ofListed? found.listed = some repo)
    (s : Situation σ) :
    ∃ happened, (corpus.plan repo (s.world.files.exists? (corpus.pathTo repo))).Follows visit s
      happened ((corpus.handle false visit found).run s) := by
  obtain ⟨happened, hfollows⟩ := corpus.follows_ensureLocal repo visit { s with
    world := s.world.record (.log .info ("[" ++ toString found.index ++ "/" ++
      toString found.total ++ "] " ++ repo.fullName)) }
  rw [World.files_record] at hfollows
  rw [corpus.handle_eq repo visit h, Action.run_log_bind]
  exact ⟨happened, .noted .info _ hfollows⟩

/-! ## Discoveries -/

/-- How the upkeep of a corpus takes the steps of a discovery in a situation: the runs of version
control, the pauses and the handing over that happen, and the end.  Messages may be logged before
anything else is done. -/
inductive Upkeep (corpus : Corpus) (source : Source) (visit : String → Action σ Bool) :
    List Discovery.Step → Situation σ → List Event →
      EStateM.Result Failure (Situation σ) Unit → Prop where
  | noted {steps s happened result} (level : Level) (message : String) :
    Upkeep corpus source visit steps { s with world := s.world.record (.log level message) }
      happened result →
    Upkeep corpus source visit steps s happened result
  | exhausted {s} : Upkeep corpus source visit [] s [] (.ok () s)
  | request {page steps s happened result} :
    Upkeep corpus source visit steps
      { s with world := { s.world.record
          (.request source.credentials? source.query? page source.perPage?) with
        answers := s.world.answers.drop 1 } } happened result →
    Upkeep corpus source visit (.request page :: steps) s happened result
  | failed {page failure steps s} :
    Upkeep corpus source visit (.failed page failure :: steps) s []
      (.error (Failure.ofPage source.queryText page failure) s)
  | nameless {found steps s} :
    Repo.ofListed? found.listed = none →
    Upkeep corpus source visit (.found found :: steps) s [] (.error .wrongType s)
  | onward {found repo steps s t before later result} :
    Repo.ofListed? found.listed = some repo →
    (corpus.plan repo (s.world.files.exists? (corpus.pathTo repo))).Follows visit s before
      (.ok true t) →
    Upkeep corpus source visit steps t later result →
    Upkeep corpus source visit (.found found :: steps) s (before ++ later) result
  | ended {found repo steps s t happened} :
    Repo.ofListed? found.listed = some repo →
    (corpus.plan repo (s.world.files.exists? (corpus.pathTo repo))).Follows visit s happened
      (.ok false t) →
    Upkeep corpus source visit (.found found :: steps) s happened (.ok () t)
  | broken {found repo steps s t happened failure} :
    Repo.ofListed? found.listed = some repo →
    (corpus.plan repo (s.world.files.exists? (corpus.pathTo repo))).Follows visit s happened
      (.error failure t) →
    Upkeep corpus source visit (.found found :: steps) s happened (.error failure t)

/-- The steps of a discovery are taken as the upkeep does. -/
theorem upkeep_pursue (source : Source) (steps : List Discovery.Step) (s : Situation σ) :
    ∃ happened, corpus.Upkeep source visit steps s happened
      ((Discovery.pursue source (corpus.handle false visit) steps).run s) := by
  induction steps generalizing s with
  | nil => exact ⟨[], .exhausted⟩
  | cons step rest ih =>
    cases step with
    | failed page failure => exact ⟨[], .failed⟩
    | request page =>
      let noted : Situation σ := { s with world := s.world.record (.log .info ("Source \"" ++
        Source.name ++ "\" searching GitHub for repos (page " ++ toString page ++ ")")) }
      obtain ⟨happened, hrest⟩ := ih { noted with
        world := { noted.world.record
            (.request source.credentials? source.query? page source.perPage?) with
          answers := noted.world.answers.drop 1 } }
      exact ⟨happened, .noted _ _ (.request hrest)⟩
    | found repository =>
      rw [Discovery.pursue, EStateM.run_bind]
      cases hrepo : Repo.ofListed? repository.listed with
      | none =>
        have hhandle : (corpus.handle false visit repository).run s = .error .wrongType s := by
          rw [handle, hrepo]
          rfl
        rw [hhandle]
        exact ⟨[], .nameless hrepo⟩
      | some repo =>
        obtain ⟨before, hfollows⟩ := corpus.follows_handle repo visit hrepo s
        cases hhandle : (corpus.handle false visit repository).run s with
        | error failure t =>
          rw [hhandle] at hfollows
          exact ⟨before, .broken hrepo hfollows⟩
        | ok goOn t =>
          rw [hhandle] at hfollows
          cases goOn with
          | false => exact ⟨before, .ended hrepo hfollows⟩
          | true =>
            obtain ⟨later, hrest⟩ := ih t
            exact ⟨before ++ later, .onward hrepo hfollows hrest⟩

end Corpus

/-! ## Errands -/

/-- Whether version control runs, there is a pause or a copy is handed over. -/
def Event.isErrand : Event → Bool
  | git .. | pause _ | visit _ => true
  | _ => false

/-- The situation in which an action ends. -/
def Situation.endOf : EStateM.Result Failure (Situation σ) α → Situation σ
  | .ok _ t => t
  | .error _ t => t

/-- Whether a visitor lets it be known that a copy is handed over to it and does no other
errands. -/
def Announces (visit : String → Action σ Bool) : Prop :=
  ∀ path s, Situation.Adds Event.isErrand [.visit path] s (.endOf ((visit path).run s))

theorem Git.adds_verdict {command : Git.Command} {directory : String} {s : Situation σ}
    {result : Except Failure Int} {world : World}
    (h : Git.verdict command directory s.world = (result, world)) :
    Situation.Adds Event.isErrand [.git command.arguments directory] s { s with world } := by
  have hevents := Git.events_verdict command directory s.world
  simp only [h] at hevents
  exact ⟨[.git command.arguments directory], by simp [hevents], rfl⟩

section

variable {visit : String → Action σ Bool} {s : Situation σ} {happened : List Event}

/-- The errands of a plan are what happens. -/
theorem Plan.Follows.adds (hvisit : Announces visit) {plan : Plan}
    {result : EStateM.Result Failure (Situation σ) Bool}
    (h : plan.Follows visit s happened result) :
    Situation.Adds Event.isErrand happened s (.endOf result) := by
  induction h with
  | noted level message _ ih =>
    exact (Situation.adds_record Event.isErrand _ (.log level message)).trans ih
  | finish goOn => exact Situation.adds_self _ _
  | made _ _ ih => exact ih
  | notMade _ => exact Situation.adds_self _ _
  | ran hverdict _ ih => exact (Git.adds_verdict hverdict).trans ih
  | aborted hverdict => exact Git.adds_verdict hverdict
  | paused _ ih => exact (Situation.adds_record Event.isErrand _ (.pause _)).trans ih
  | handedOver path => exact hvisit path _

/-- The errands of the upkeep are what happens. -/
theorem Corpus.Upkeep.adds (hvisit : Announces visit) {corpus : Corpus} {source : Source}
    {steps : List Discovery.Step} {result : EStateM.Result Failure (Situation σ) Unit}
    (h : corpus.Upkeep source visit steps s happened result) :
    Situation.Adds Event.isErrand happened s (.endOf result) := by
  induction h with
  | noted level message _ ih =>
    exact (Situation.adds_record Event.isErrand _ (.log level message)).trans ih
  | exhausted => exact Situation.adds_self _ _
  | request _ ih =>
    exact (Situation.adds_record Event.isErrand _ (.request _ _ _ _)).trans ih
  | failed => exact Situation.adds_self _ _
  | nameless _ => exact Situation.adds_self _ _
  | onward _ hfollows _ ih => exact (hfollows.adds hvisit).trans ih
  | ended _ hfollows => exact hfollows.adds hvisit
  | broken _ hfollows => exact hfollows.adds hvisit

end

namespace Corpus

/-- Handing over the copies of all discovered repositories is the upkeep of the corpus: one run
of version control for each repository, whose copy is looked up when it is found, a pause unless
it could not be cloned, and then the handing over.  Nothing else is done: the errands that have
happened at the end are these, if the visitor does no others. -/
theorem visitAll_upkeep (corpus : Corpus) (source : Source) (visit : String → Action σ Bool)
    (s : Situation σ) :
    ∃ happened, corpus.Upkeep source visit (Discovery.steps source s.world.answers) s happened
        ((corpus.visitAll source false visit).run s) ∧
      (Announces visit → Situation.Adds Event.isErrand happened s
        (.endOf ((corpus.visitAll source false visit).run s))) := by
  obtain ⟨happened, hupkeep⟩ :=
    corpus.upkeep_pursue visit source (Discovery.steps source s.world.answers) s
  exact ⟨happened, hupkeep, fun hvisit => hupkeep.adds hvisit⟩

/-- A page that lists a repository twice, and one in between. -/
def returningPage : PageAnswer :=
  .response (some 200) "OK" ("\x7b\"total_count\":3,\"items\":[" ++
    "\x7b\"full_name\":\"o/a\",\"clone_url\":\"a\"\x7d," ++
    "\x7b\"full_name\":\"o/b\",\"clone_url\":\"b\"\x7d," ++
    "\x7b\"full_name\":\"o/a\",\"clone_url\":\"a\"\x7d]\x7d")

/-- The situation before a run of version control that succeeds, one that fails and one that
cannot be started. -/
def returningStart : Situation Unit where
  world := {
    answers := [returningPage]
    script := [("clone a", [{}]), ("clone b", [{ code := 128 }]),
      ("pull repos/o/a", [{ refused? := some "no git" }])] }
  own := ()

/-- A visitor that wants all copies. -/
def welcome (path : String) : Action Unit Bool := do
  Action.record (.visit path)
  return true

/-- An errand in words, with the length of a pause. -/
def errandText : Event → List String × Option Decimal
  | .git arguments directory => ("git" :: arguments.map (·.spoken) ++ [directory], none)
  | .pause seconds? => (["pause"], seconds?)
  | .visit path => (["visit", path], none)
  | _ => ([], none)

/-- The first repository is cloned and later updated, which fails, and the second one is skipped
as it cannot be cloned. -/
theorem visitAll_upkeep_returningPage :
    let corpus : Corpus := { base := "repos", continueOnFailure := true }
    let result := (corpus.visitAll {} false welcome).run returningStart
    ∃ happened,
      corpus.Upkeep {} welcome (Discovery.steps {} [returningPage]) returningStart happened result ∧
      happened.map errandText =
        [(["git", "clone", "a", "a", "repos/o"], none), (["pause"], some (.ofNat 15)),
          (["visit", "repos/o/a"], none), (["git", "clone", "b", "b", "repos/o"], none),
          (["git", "pull", "repos/o/a"], none), (["pause"], some (.ofNat 5)),
          (["visit", "repos/o/a"], none)] := by
  intro corpus result
  have hannounces : Announces welcome := fun path s => s.adds_record _ (.visit path)
  obtain ⟨happened, hupkeep, herrands⟩ := corpus.visitAll_upkeep {} welcome returningStart
  obtain ⟨all, hall, rfl⟩ := herrands hannounces
  refine ⟨_, hupkeep, ?_⟩
  have hevents : all = (Situation.endOf result).world.events.toList := hall.symm
  rw [hevents]
  decide +kernel

end Corpus
end FeatureCensus
