import FeatureCensus.World.Action

/-!
# Pursuing a discovery

The steps of a discovery are taken in the world: pages are requested, and each
repository is handed to a visitor as soon as it is found, until the visitor has had
enough.

Main definitions:

- Definition {lit}`Discovery.pursue`: takes the steps of a discovery.
-/

namespace FeatureCensus
namespace Discovery

variable {σ : Type}

/-- Requests a page, which uses up an answer. -/
def requestPage (source : Source) (page : Nat) : Action σ Unit := do
  Action.log .info ("Source \"" ++ Source.name ++ "\" searching GitHub for repos (page " ++
    toString page ++ ")")
  Action.record (.request source.credentials? source.query? page source.perPage?)
  Action.changeWorld fun w => { w with answers := w.answers.drop 1 }

/-- Takes steps while the visitor wants more. -/
def pursue (source : Source) (visit : Found → Action σ Bool) : List Step → Action σ Unit
  | [] => pure ()
  | .request page :: rest => do
    requestPage source page
    pursue source visit rest
  | .found repository :: rest => do
    if ← visit repository then pursue source visit rest
  | .failed page failure :: _ => throw (Failure.ofPage source.queryText page failure)

/-- Hands the repositories that a source discovers to a visitor. -/
def visitAll (source : Source) (visit : Found → Action σ Bool) : Action σ Unit := do
  pursue source visit (steps source (← Action.world).answers)

end Discovery
end FeatureCensus
