import FeatureCensus.World.Failure
import FeatureCensus.World.World

/-!
# Actions

An action changes the world and a state of its own and ends with a result or a failure;
what it did before a failure stays done.

Main results:

- Theorem {lit}`Action.world_apply`: looking at the world changes nothing.
- Theorem {lit}`Action.run_record`: recording an event does nothing else.
- Theorem {lit}`Action.run_bind_error`: after a failure nothing more is done.
-/

namespace FeatureCensus

/-- The world together with a state of one's own. -/
structure Situation (σ : Type) where
  world : World
  own : σ
  deriving Inhabited

/-- An action, which keeps what it did even where it fails. -/
abbrev Action (σ α : Type) := EStateM Failure (Situation σ) α

namespace Action

variable {σ α β : Type}

/-! ## The world -/

/-- The world as it is. -/
def world : Action σ World := do
  return (← get).world

/-- Looking at the world changes nothing. -/
theorem world_apply (s : Situation σ) : (world : Action σ World) s = .ok s.world s := rfl

/-- Changes the world. -/
def changeWorld (f : World → World) : Action σ Unit :=
  modify fun s => { s with world := f s.world }

/-- Lets an event happen. -/
def record (event : Event) : Action σ Unit :=
  changeWorld (·.record event)

/-- Logs a message. -/
def log (level : Level) (message : String) : Action σ Unit :=
  record (.log level message)

/-- Recording an event does nothing else. -/
theorem run_record (event : Event) (s : Situation σ) :
    (record event).run s = .ok () { s with world := s.world.record event } := rfl

/-- Changes the files. -/
def changeFiles (change : FileTree.Change Content α) : Action σ α := fun s =>
  match change.run s.world.files with
  | .ok a files => .ok a { s with world := { s.world with files } }
  | .error e files => .error (.file e) { s with world := { s.world with files } }

/-- Draws the outcome of a command. -/
def drawOutcome (command : String) : Action σ GitOutcome := fun s =>
  .ok (s.world.drawOutcome command).1 { s with world := (s.world.drawOutcome command).2 }

/-! ## The state of one's own -/

/-- The state of one's own. -/
def own : Action σ σ := do
  return (← get).own

/-- Changes the state of one's own. -/
def changeOwn (f : σ → σ) : Action σ Unit :=
  modify fun s => { s with own := f s.own }

/-! ## Failures -/

/-- A result that is there or not. -/
def ofExcept {ε : Type} (failure : ε → Failure) : Except ε α → Action σ α
  | .ok a => pure a
  | .error e => throw (failure e)

/-- Does something at the end, whether or not an action fails. -/
def finallyDo (action : Action σ α) (last : Action σ Unit) : Action σ α := fun s =>
  match action.run s with
  | .ok a s => (last *> pure a).run s
  | .error e s => (last *> throw e).run s

/-- After a failure nothing more is done. -/
theorem run_bind_error {x : Action σ α} {s t : Situation σ} {e : Failure}
    (h : x.run s = .error e t) (f : α → Action σ β) : (x >>= f).run s = .error e t := by
  simp only [EStateM.run] at h
  simp only [EStateM.run, bind, EStateM.bind, h]

end Action
end FeatureCensus
