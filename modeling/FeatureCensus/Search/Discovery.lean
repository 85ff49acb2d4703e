import FeatureCensus.Search.Page

/-!
# Discovery

The repositories that a source discovers: page after page is requested until as many
repositories were found as the latest page says there are in total, or a page has none.

Main results:

- Theorem {lit}`Discovery.steps_of_failure`: a failing request is the last step.
-/

namespace FeatureCensus

/-- A discovered repository, its place among all of them, and their total number. -/
structure Found where
  listed : Listed
  index : Nat
  total : Int
  deriving Inhabited

namespace Discovery

/-- A step of a discovery. -/
inductive Step where
  /-- The page of this number is requested. -/
  | request (page : Nat)
  | found (repository : Found)
  /-- The request for the page of this number has failed. -/
  | failed (page : Nat) (failure : PageFailure)
  deriving Inhabited

/-- What is said when the answers have run out. -/
def noMorePages : String := "no more pages"

/-- The items of a page as they are found, after a number of earlier ones. -/
def finds (total : Int) (before : Nat) : List Listed → List Found
  | [] => []
  | item :: rest => ⟨item, before + 1, total⟩ :: finds total (before + 1) rest

/-- The steps from the request for a page on, where a number of repositories were found
before it and the answers are given. -/
def stepsFrom (source : Source) (page before : Nat) : List PageAnswer → List Step
  | [] => [.request page, .failed page (.fault (.unreachable .request noMorePages))]
  | answer :: rest =>
    .request page ::
      match Page.ofAnswer source page answer with
      | .error failure => [.failed page failure]
      | .ok result =>
        (finds result.total before result.items).map .found ++
          if result.items.isEmpty then []
          else if result.total ≤ before + result.items.length then []
          else stepsFrom source (page + 1) (before + result.items.length) rest

/-- The steps of a discovery with the given answers. -/
def steps (source : Source) (answers : List PageAnswer) : List Step :=
  stepsFrom source 1 0 answers

/-- A failing request is the last step. -/
theorem steps_of_failure {source : Source} {page before : Nat} {answer : PageAnswer}
    {failure : PageFailure} (h : Page.ofAnswer source page answer = .error failure)
    (rest : List PageAnswer) :
    stepsFrom source page before (answer :: rest) = [.request page, .failed page failure] := by
  rw [stepsFrom, h]

end Discovery
end FeatureCensus
