import FeatureCensus.Corpus.Git
import FeatureCensus.Proofs.World.Milestones

/-!
# Codes of runs

What comes of a run of version control follows from the outcome that is drawn for it and from the
files.  A run that cannot be started has failed with a code other than zero, and so has one whose
files are refused.  An interruption ends more than the run.

Main results:

- Theorem {lit}`Git.events_verdict`: a run happens once.
- Theorem {lit}`Git.amounts_run`: a run comes to its verdict, besides messages.
-/

namespace FeatureCensus

variable {σ α : Type}

/-! ## Messages -/

/-- The situation after some messages. -/
def Situation.noting (s : Situation σ) : List (Level × String) → Situation σ
  | [] => s
  | (level, message) :: rest =>
    noting { s with world := s.world.record (.log level message) } rest

/-- Drawing an outcome is no event. -/
@[simp]
theorem World.events_drawOutcome (w : World) (command : String) :
    (w.drawOutcome command).2.events = w.events := by
  unfold drawOutcome
  split <;> rfl

/-- Whether an action in a situation has a result and leaves a world behind, besides messages
where it does not fail. -/
def Action.Amounts (x : Action σ α) (s : Situation σ) : Except Failure α × World → Prop
  | (.ok a, world) => ∃ messages, x.run s = .ok a ({ s with world }.noting messages)
  | (.error failure, world) => x.run s = .error failure { s with world }

/-- An action that goes on as another one in another world comes to the same. -/
theorem Action.amounts_of_run_eq {x y : Action σ α} {s : Situation σ} {world : World}
    {outcome : Except Failure α × World} (hrun : x.run s = y.run { s with world })
    (h : y.Amounts { s with world } outcome) : x.Amounts s outcome := by
  rcases outcome with ⟨result, last⟩
  cases result with
  | ok a =>
    obtain ⟨messages, h⟩ := h
    exact ⟨messages, hrun.trans h⟩
  | error failure => exact hrun.trans h

namespace Git

open Text

/-! ## Verdicts -/

/-- How a run that would end with a code ends. -/
def exit (outcome : GitOutcome) (code : Int) : Except Failure Int :=
  if outcome.interrupted then .error .interrupted else .ok code

theorem exit_eq_ok {outcome : GitOutcome} {code ended : Int} :
    exit outcome code = .ok ended ↔ outcome.interrupted = false ∧ code = ended := by
  unfold exit
  split <;> simp_all

/-- What comes of a run with an outcome, which would leave files behind at a target. -/
def judge (target : String) (outcome : GitOutcome) (w : World) : Except Failure Int × World :=
  match outcome.refused? with
  | some _ => (.ok (-1), w)
  | none =>
    match (leaveBehind target outcome).run w.files with
    | .ok _ files => (exit outcome outcome.code, { w with files })
    | .error (.refused _ _) files => (exit outcome (-1), { w with files })
    | .error error files => (.error (.file error), { w with files })

/-- The outcome that is drawn for a run of a command in a directory, and the world after it. -/
def draw (command : Command) (directory : String) (w : World) : GitOutcome × World :=
  (w.record (.git command.arguments directory)).drawOutcome (command.label directory)

/-- What comes of a run of a command in a directory, for which an outcome is drawn if it can be
started at all. -/
def verdict (command : Command) (directory : String) (w : World) : Except Failure Int × World :=
  match command.unfit? directory w with
  | some failure => (.error failure, w.record (.git command.arguments directory))
  | none =>
    judge (command.target directory) (draw command directory w).1 (draw command directory w).2

@[simp]
theorem events_judge (target : String) (outcome : GitOutcome) (w : World) :
    (judge target outcome w).2.events = w.events := by
  unfold judge
  repeat' split
  all_goals rfl

@[simp]
theorem events_draw (command : Command) (directory : String) (w : World) :
    (draw command directory w).2.events =
      w.events.push (.git command.arguments directory) := by
  rw [draw, World.events_drawOutcome, World.events_record]

/-- A run happens once. -/
theorem events_verdict (command : Command) (directory : String) (w : World) :
    (verdict command directory w).2.events =
      w.events.push (.git command.arguments directory) := by
  unfold verdict
  split <;> simp

/-! ## Runs -/

theorem amounts_reportRefusal (command : Command) (directory reason : String)
    (s : Situation σ) :
    (reportRefusal command directory reason : Action σ Int).Amounts s (.ok (-1), s.world) :=
  ⟨[(.error, _)], rfl⟩

/-- What a failed run says is a message. -/
theorem amounts_report (command : Command) (directory : String) (outcome : GitOutcome)
    (s : Situation σ) :
    (report command directory outcome none : Action σ Int).Amounts s
      (.ok outcome.code, s.world) := by
  by_cases hsays : (outcome.code != 0 && !outcome.stderr.isEmpty) = true
  · refine ⟨[(.error, "> STDERR " ++ strip outcome.stderr)], ?_⟩
    rw [report, reportFailure, if_pos hsays]
    rfl
  · refine ⟨[], ?_⟩
    rw [report, reportFailure, if_neg hsays]
    rfl

/-- A run that the files say nothing, or something, against ends with its code or with -1, unless it
is interrupted. -/
theorem amounts_exit (command : Command) (directory : String) (outcome : GitOutcome)
    (reason? : Option String) (s : Situation σ) :
    (if outcome.interrupted then throw .interrupted
      else report command directory outcome reason? : Action σ Int).Amounts s
      (exit outcome (if reason?.isSome then -1 else outcome.code), s.world) := by
  by_cases hinterrupted : outcome.interrupted = true
  · rw [if_pos hinterrupted, exit, if_pos hinterrupted]
    rfl
  · rw [if_neg hinterrupted, exit, if_neg hinterrupted]
    cases reason? with
    | none => exact amounts_report command directory outcome s
    | some reason => exact amounts_reportRefusal command directory reason s

/-- What the files say against a run is told, unless they cannot be asked. -/
theorem run_tryLeaveBehind (target : String) (outcome : GitOutcome) (s : Situation σ) :
    (tryLeaveBehind target outcome : Action σ _).run s =
      match (leaveBehind target outcome).run s.world.files with
      | .ok _ files => .ok none { s with world := { s.world with files } }
      | .error (.refused fault path) files =>
        .ok (some ((FileError.refused fault path).message files.strays))
          { s with world := { s.world with files } }
      | .error error files => .error (.file error) { s with world := { s.world with files } } := by
  rw [tryLeaveBehind, Action.run_tryCatch, EStateM.run_bind, Action.run_changeFiles]
  rcases (leaveBehind target outcome).run s.world.files with ⟨_, files⟩ | ⟨error, files⟩
  · rfl
  · cases error <;> rfl

theorem amounts_finish (command : Command) (directory : String) (outcome : GitOutcome)
    (s : Situation σ) :
    (finish command directory outcome : Action σ Int).Amounts s
      (judge (command.target directory) outcome s.world) := by
  unfold finish judge
  cases outcome.refused? with
  | some reason => exact amounts_reportRefusal command directory reason s
  | none =>
    have hleave := run_tryLeaveBehind (command.target directory) outcome s
    dsimp only
    cases hchange : (leaveBehind (command.target directory) outcome).run s.world.files with
    | ok _ files =>
      rw [hchange] at hleave
      exact Action.amounts_of_run_eq (Action.run_bind_of_ok hleave _)
        (amounts_exit command directory outcome none { s with world := { s.world with files } })
    | error error files =>
      rw [hchange] at hleave
      cases error with
      | refused fault path =>
        exact Action.amounts_of_run_eq (Action.run_bind_of_ok hleave _)
          (amounts_exit command directory outcome (some _)
            { s with world := { s.world with files } })
      | embeddedNull => exact Action.run_bind_error hleave _

/-- A run comes to its verdict. -/
theorem amounts_run (command : Command) (directory : String) (s : Situation σ) :
    (run command directory : Action σ Int).Amounts s (verdict command directory s.world) := by
  let tried : Situation σ :=
    { s with world := s.world.record (.git command.arguments directory) }
  have hrun : (run command directory : Action σ Int).run s =
      (match command.unfit? directory s.world with
        | some failure => throw failure
        | none => do
          finish command directory (← Action.drawOutcome (command.label directory)) :
        Action σ Int).run tried := rfl
  unfold verdict
  cases hfit : command.unfit? directory s.world with
  | some failure =>
    rw [hfit] at hrun
    exact hrun
  | none =>
    rw [hfit] at hrun
    have hfinish := amounts_finish command directory (draw command directory s.world).1
      { s with world := (draw command directory s.world).2 }
    exact Action.amounts_of_run_eq hrun hfinish

end Git
end FeatureCensus
