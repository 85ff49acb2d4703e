import FeatureCensus.Json.Value
import FeatureCensus.Search.Source

/-!
# Events

What a census does to the world around it, besides changing files: it logs, requests
pages, runs version control, pauses, hands over local copies and shows its progress.

Main definitions:

- Definition {lit}`Event`: the events.
-/

namespace FeatureCensus

/-- The level of a log message. -/
inductive Level where
  | info
  | error
  deriving DecidableEq, Repr, Inhabited

/-- The name of a level. -/
def Level.name : Level → String
  | info => "INFO"
  | error => "ERROR"

/-- Something that happens. -/
inductive Event where
  | log (level : Level) (message : String)
  /-- A page of a size is requested. -/
  | request (credentials? : Option Credentials) (query? : Option String) (page : Nat)
      (perPage? : Option Int)
  /-- Version control runs with arguments in a directory. -/
  | git (arguments : List Json) (directory : String)
  /-- A pause, whose length may be left out. -/
  | pause (seconds? : Option Decimal)
  /-- A local copy is handed over. -/
  | visit (path : String)
  | progressOpened (total? : Option Int) (hidden? : Option Bool)
  | progressAdvanced
  | progressClosed
  deriving Inhabited

namespace Event

/-- Whether an event is a log message. -/
def isLog : Event → Bool
  | log _ _ => true
  | _ => false

/-- Whether an event is a run of version control. -/
def isGit : Event → Bool
  | git _ _ => true
  | _ => false

end Event
end FeatureCensus
