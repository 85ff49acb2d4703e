import FeatureCensus.Proofs.World.Sealed

/-!
# Observing actions

Some actions only look around: they read the files, the coming answers and what the parser makes
of sources, use up answers, and change nothing else but the state of their own and the record of
what has happened.  Neither the coming outcomes of version control nor what has happened before
matter to them.  So what such an action does is found out from any situation that looks the same.

Main results:

- Theorem {lit}`Action.IsObserving.andThen`: an observing action that is followed by another one,
  whether it fails or not, is observing with it.
- Theorems {lit}`Action.IsObserving.bind`, {lit}`Action.IsObserving.tryCatch` and
  {lit}`Action.IsObserving.finallyDo`: so are observing actions put together.
- Theorem {lit}`Action.IsObserving.look`: a look at the world is observing if it uses nothing but
  what the outlook shows.
-/

namespace FeatureCensus

open Text Syntax

variable {σ α β : Type}

/-! ## Situations -/

/-- What observing actions look at. -/
structure Outlook (σ : Type) where
  files : FileTree Content
  answers : List PageAnswer
  parses : List (Bytes × ParseTree)
  own : σ

namespace Situation

/-- How a situation looks. -/
def outlook (s : Situation σ) : Outlook σ :=
  ⟨s.world.files, s.world.answers, s.world.parses, s.own⟩

/-- The situation after some events that have left other answers and another state of one's
own. -/
def following (s : Situation σ) (answers : List PageAnswer) (own : σ) (events : List Event) :
    Situation σ :=
  ⟨{ s.world with answers, events := s.world.events ++ events.toArray }, own⟩

theorem following_nil (s : Situation σ) (answers : List PageAnswer) (own : σ) :
    s.following answers own [] = ⟨{ s.world with answers }, own⟩ := by
  simp [following]

theorem following_following (s : Situation σ) (answers left : List PageAnswer) (own last : σ)
    (before later : List Event) :
    (s.following answers own before).following left last later =
      s.following left last (before ++ later) := by
  simp [following]

@[simp]
theorem eventsSince_following (s : Situation σ) (answers : List PageAnswer) (own : σ)
    (events : List Event) : (s.following answers own events).eventsSince s = events := by
  simp [following, eventsSince]

end Situation

/-! ## Courses -/

/-- What an observing action comes to: its result, the answers that are left, the state of one's
own then, and what happens meanwhile. -/
structure Course (σ α : Type) where
  result : Except Failure α
  answers : List PageAnswer
  own : σ
  events : List Event

namespace Course

/-- The situation that a course leads to. -/
def last (course : Course σ α) (s : Situation σ) : Situation σ :=
  s.following course.answers course.own course.events

/-- The end of an action in a situation. -/
def endIn (course : Course σ α) (s : Situation σ) : EStateM.Result Failure (Situation σ) α :=
  match course.result with
  | .ok a => .ok a (course.last s)
  | .error e => .error e (course.last s)

/-- The outlook that a course leads to. -/
def outlookAfter (course : Course σ α) (outlook : Outlook σ) : Outlook σ :=
  { outlook with answers := course.answers, own := course.own }

/-- A course with another one after it. -/
def append (course : Course σ α) (next : Course σ β) : Course σ β :=
  { next with events := course.events ++ next.events }

theorem endIn_append (course : Course σ α) (next : Course σ β) (s : Situation σ) :
    (course.append next).endIn s = next.endIn (course.last s) := by
  obtain ⟨result, answers, own, events⟩ := next
  simp only [endIn, append, last, Situation.following_following]

end Course

/-! ## Observing actions -/

namespace Action

/-- An action and what follows on its result, be that a failure or not. -/
def andThen (x : Action σ α) (next : Except Failure α → Action σ β) : Action σ β := fun s =>
  match x.run s with
  | .ok a t => (next (.ok a)).run t
  | .error e t => (next (.error e)).run t

theorem run_andThen (x : Action σ α) (next : Except Failure α → Action σ β)
    (s : Situation σ) :
    (x.andThen next).run s = match x.run s with
      | .ok a t => (next (.ok a)).run t
      | .error e t => (next (.error e)).run t := rfl

theorem bind_eq_andThen (x : Action σ α) (f : α → Action σ β) :
    x >>= f = x.andThen fun
      | .ok a => f a
      | .error e => throw e := by
  funext s
  simp only [bind, EStateM.bind, andThen, EStateM.run]
  cases x s <;> rfl

theorem tryCatch_eq_andThen (x : Action σ α) (handler : Failure → Action σ α) :
    (tryCatch x handler : Action σ α) = x.andThen fun
      | .ok a => pure a
      | .error e => handler e := by
  funext s
  have hrun := run_tryCatch x handler s
  simp only [EStateM.run] at hrun
  rw [hrun, andThen, EStateM.run]
  cases x s <;> rfl

theorem finallyDo_eq_andThen (x : Action σ α) (last : Action σ Unit) :
    finallyDo x last = x.andThen fun
      | .ok a => last >>= fun _ => pure a
      | .error e => last >>= fun _ => throw e := by
  funext s
  rw [finallyDo, andThen]
  cases x.run s <;> rfl

/-- Whether what an action comes to follows from the outlook, all events being of some class,
and the action changes nothing but the coming answers and the state of its own. -/
def IsObserving (allowed : Event → Prop) (x : Action σ α) : Prop :=
  ∀ outlook, ∃ course : Course σ α, (∀ event ∈ course.events, allowed event) ∧
    ∀ s : Situation σ, s.outlook = outlook → x.run s = course.endIn s

namespace IsObserving

variable {allowed : Event → Prop}

/-- An action without events is observing if its end can be told from the outlook. -/
theorem of_quiet {x : Action σ α} (result : Outlook σ → Except Failure α)
    (answers : Outlook σ → List PageAnswer) (own : Outlook σ → σ)
    (h : ∀ s : Situation σ, x.run s = match result s.outlook with
      | .ok a => .ok a ⟨{ s.world with answers := answers s.outlook }, own s.outlook⟩
      | .error e => .error e ⟨{ s.world with answers := answers s.outlook }, own s.outlook⟩) :
    IsObserving allowed x := by
  intro outlook
  refine ⟨⟨result outlook, answers outlook, own outlook, []⟩, by simp, ?_⟩
  rintro s rfl
  rw [h, Course.endIn, Course.last, Situation.following_nil]

theorem pure (a : α) : IsObserving allowed (Pure.pure a : Action σ α) :=
  of_quiet (fun _ => .ok a) (·.answers) (·.own) fun _ => rfl

theorem throw (e : Failure) : IsObserving allowed (MonadExcept.throw e : Action σ α) :=
  of_quiet (fun _ => .error e) (·.answers) (·.own) fun _ => rfl

theorem ofExcept {ε : Type} (failure : ε → Failure) (result : Except ε α) :
    IsObserving allowed (Action.ofExcept failure result : Action σ α) := by
  cases result with
  | ok a => exact pure a
  | error e => exact throw (failure e)

theorem own : IsObserving allowed (Action.own : Action σ σ) :=
  of_quiet (fun outlook => .ok outlook.own) (·.answers) (·.own) fun _ => rfl

theorem changeOwn (f : σ → σ) : IsObserving allowed (Action.changeOwn f) :=
  of_quiet (fun _ => .ok ()) (·.answers) (fun outlook => f outlook.own) fun _ => rfl

/-- Coming answers may be used up. -/
theorem changeAnswers (f : List PageAnswer → List PageAnswer) :
    IsObserving allowed
      (Action.changeWorld fun w => { w with answers := f w.answers } : Action σ Unit) :=
  of_quiet (fun _ => .ok ()) (fun outlook => f outlook.answers) (·.own) fun _ => rfl

theorem record {event : Event} (h : allowed event) :
    IsObserving allowed (Action.record event : Action σ Unit) := by
  intro outlook
  refine ⟨⟨.ok (), outlook.answers, outlook.own, [event]⟩, by simpa using h, ?_⟩
  rintro s rfl
  rw [run_record, Course.endIn]
  simp [Course.last, Situation.following, Situation.outlook, World.record]

/-- An observing action that is followed by another one, whether it fails or not, is observing
with it. -/
theorem andThen {x : Action σ α} {next : Except Failure α → Action σ β}
    (hx : IsObserving allowed x) (hnext : ∀ result, IsObserving allowed (next result)) :
    IsObserving allowed (x.andThen next) := by
  intro outlook
  obtain ⟨first, hbefore, hfirst⟩ := hx outlook
  obtain ⟨second, hlater, hsecond⟩ := hnext first.result (first.outlookAfter outlook)
  refine ⟨first.append second, fun event hevent => ?_, ?_⟩
  · exact (List.mem_append.1 hevent).elim (hbefore event) (hlater event)
  · rintro s rfl
    -- The second course is that of the outlook which the first one leads to.
    have hrun : (x.andThen next).run s = (next first.result).run (first.last s) := by
      rw [run_andThen, hfirst s rfl, Course.endIn]
      cases first.result <;> rfl
    rw [hrun, hsecond (first.last s) rfl, Course.endIn_append]

theorem bind {x : Action σ α} {f : α → Action σ β} (hx : IsObserving allowed x)
    (hf : ∀ a, IsObserving allowed (f a)) : IsObserving allowed (x >>= f) := by
  rw [bind_eq_andThen]
  refine hx.andThen fun result => ?_
  cases result with
  | ok a => exact hf a
  | error e => exact throw e

theorem tryCatch {x : Action σ α} {handler : Failure → Action σ α} (hx : IsObserving allowed x)
    (hhandler : ∀ e, IsObserving allowed (handler e)) :
    IsObserving allowed (MonadExcept.tryCatch x handler : Action σ α) := by
  rw [tryCatch_eq_andThen]
  refine hx.andThen fun result => ?_
  cases result with
  | ok a => exact pure a
  | error e => exact hhandler e

theorem finallyDo {x : Action σ α} {last : Action σ Unit} (hx : IsObserving allowed x)
    (hlast : IsObserving allowed last) : IsObserving allowed (Action.finallyDo x last) := by
  rw [finallyDo_eq_andThen]
  refine hx.andThen fun result => ?_
  cases result with
  | ok a => exact hlast.bind fun _ => pure a
  | error e => exact hlast.bind fun _ => throw e

/-- A look at the world that uses nothing but what the outlook shows. -/
theorem look {next : World → Action σ α} (h : ∀ w, IsObserving allowed (next w))
    (hsame : ∀ w v : World, w.files = v.files → w.answers = v.answers → w.parses = v.parses →
      next w = next v) : IsObserving allowed (world >>= next) := by
  intro outlook
  let shown : World :=
    { files := outlook.files, answers := outlook.answers, parses := outlook.parses }
  obtain ⟨course, hevents, hrun⟩ := h shown outlook
  refine ⟨course, hevents, ?_⟩
  rintro s rfl
  rw [run_world_bind, ← hsame shown s.world rfl rfl rfl]
  exact hrun s rfl

end IsObserving
end Action
end FeatureCensus
