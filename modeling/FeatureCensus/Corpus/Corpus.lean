import FeatureCensus.Corpus.Git
import FeatureCensus.Corpus.Repo
import FeatureCensus.Search.Pursuit

/-!
# Corpora

A corpus keeps a local copy of every repository below a base directory, in a directory
of its own within one for its owner.  Where there is no copy yet the repository is
cloned, and otherwise the copy is updated; after each run there is a pause.

Main results:

- Theorem {lit}`Corpus.ensureLocal_of_exists`: an existing copy is updated.
-/

namespace FeatureCensus

variable {σ : Type}

/-- The local copies of repositories.  The lengths of the pauses may be left out. -/
structure Corpus where
  base : String
  clonePause? : Option Decimal := some (.ofNat 15)
  updatePause? : Option Decimal := some (.ofNat 5)
  continueOnFailure : Bool := false
  deriving DecidableEq, Repr, Inhabited

namespace Corpus

/-! ## Places -/

/-- The directory of the owner of a repository. -/
def ownerDirectory (corpus : Corpus) (repo : Repo) : String :=
  Path.join corpus.base repo.owner

/-- The directory of the local copy of a repository. -/
def pathTo (corpus : Corpus) (repo : Repo) : String :=
  Path.join (corpus.ownerDirectory repo) repo.name

/-! ## Single copies -/

/-- Updates the copy of a repository.  A failed update leaves the copy as it was. -/
def update (corpus : Corpus) (repo : Repo) : Action σ Unit := do
  Action.log .info ("Updating repo " ++ repo.fullName)
  let code ← Git.run .pull (corpus.pathTo repo)
  if code != 0 then
    Action.log .error ("Repo update failed: exit code " ++ toString code)
  Action.record (.pause corpus.updatePause?)

/-- Clones a repository and tells whether that succeeded. -/
def clone (corpus : Corpus) (repo : Repo) : Action σ Bool := do
  Action.changeFiles (FileTree.makeDirectories (corpus.ownerDirectory repo))
  Action.log .info ("Cloning repo " ++ repo.fullName)
  let code ← Git.run (.clone repo.cloneAddress repo.name) (corpus.ownerDirectory repo)
  if code != 0 then
    Action.log .error ("Repo clone failed: exit code " ++ toString code)
    return false
  else
    Action.record (.pause corpus.clonePause?)
    return true

/-- Updates the copy of a repository, or clones it where there is none.  Tells whether
there is a copy now. -/
def ensureLocal (corpus : Corpus) (repo : Repo) : Action σ Bool := do
  if (← Action.world).files.exists? (corpus.pathTo repo) then
    corpus.update repo
    return true
  else corpus.clone repo

/-- Makes sure of the copy of a repository, unless only existing copies are wanted. -/
def provide (corpus : Corpus) (localOnly : Bool) (repo : Repo) : Action σ Bool :=
  if localOnly then pure true else corpus.ensureLocal repo

/-- An existing copy is updated. -/
theorem ensureLocal_of_exists (corpus : Corpus) (repo : Repo) {s : Situation σ}
    (h : s.world.files.exists? (corpus.pathTo repo) = true) :
    (corpus.ensureLocal repo).run s =
      (do corpus.update repo; return true : Action σ Bool).run s := by
  simp only [ensureLocal, EStateM.run, bind, EStateM.bind, Action.world_apply, h, if_true]

/-! ## All copies -/

/-- Provides the copy of a discovered repository and hands it over.  Tells whether to go
on. -/
def handle (corpus : Corpus) (localOnly : Bool) (visit : String → Action σ Bool)
    (found : Found) : Action σ Bool := do
  match Repo.ofListed? found.listed with
  | none => throw .wrongType
  | some repo =>
    Action.log .info ("[" ++ toString found.index ++ "/" ++ toString found.total ++ "] " ++
      repo.fullName)
    if ← corpus.provide localOnly repo then visit (corpus.pathTo repo)
    else if corpus.continueOnFailure then
      Action.log .info ("Skipping repo \"" ++ repo.fullName ++ "\"")
      return true
    else
      Action.log .error ("Stopping discovery after failing to clone \"" ++ repo.fullName ++ "\"")
      return false

/-- Hands the local copies of all discovered repositories to a visitor. -/
def visitAll (corpus : Corpus) (source : Source) (localOnly : Bool)
    (visit : String → Action σ Bool) : Action σ Unit :=
  Discovery.visitAll source (corpus.handle localOnly visit)

end Corpus
end FeatureCensus
