import FeatureCensus.Proofs.Corpus.Handovers
import FeatureCensus.Proofs.Files.Contents

/-!
# Files that runs spare

The files that a run of version control leaves behind are those of an outcome that is still to
come, and outcomes are only used up.  So if no outcome that is to come for a discovered repository
would write a file, its content stays as it was whatever is done with these repositories.

Main results:

- Theorem {lit}`World.usesUp_drawOutcome`: what is left after drawing was there before.
- Theorem {lit}`Corpus.Sparing.run`: a run that spares a file leaves its content as it was.
- Theorem {lit}`Corpus.Sparing.pursue`: so do all steps of a discovery.
-/

namespace FeatureCensus

variable {σ : Type}

/-! ## Coming outcomes -/

namespace World

variable {w v u : World}

/-- The outcomes of coming runs that are known under a name. -/
def outcomes (w : World) (label : String) : List GitOutcome :=
  (w.script.lookup label).getD []

/-- Whether coming outcomes are only used up from one world to a later one. -/
def UsesUp (w v : World) : Prop :=
  ∀ label, v.outcomes label ⊆ w.outcomes label

theorem UsesUp.of_script (h : v.script = w.script) : w.UsesUp v := by
  intro label
  rw [outcomes, outcomes, h]
  exact List.Subset.refl _

theorem UsesUp.trans (h : w.UsesUp v) (hnext : v.UsesUp u) : w.UsesUp u :=
  fun label => List.Subset.trans (hnext label) (h label)

theorem takeOutcome_subset (outcomes : List GitOutcome) :
    (takeOutcome outcomes).2 ⊆ outcomes := by
  match outcomes with
  | [] => exact List.Subset.refl _
  | [last] => exact List.Subset.refl _
  | next :: second :: rest => exact List.subset_cons_self next (second :: rest)

theorem mem_takeOutcome (outcomes : List GitOutcome) :
    (takeOutcome outcomes).1 ∈ outcomes ∨ (takeOutcome outcomes).1.files = [] := by
  match outcomes with
  | [] => exact .inr rfl
  | [last] => exact .inl List.mem_cons_self
  | next :: second :: rest => exact .inl List.mem_cons_self

/-- What is left after an outcome is drawn was there before. -/
theorem usesUp_drawOutcome (w : World) (command : String) :
    w.UsesUp (w.drawOutcome command).2 := by
  intro label
  unfold drawOutcome
  cases hlookup : w.script.lookup command with
  | none => exact List.Subset.refl _
  | some coming =>
    rw [outcomes, outcomes, Association.lookup_put]
    by_cases hsame : label = command
    · rw [if_pos hsame, hsame, hlookup]
      exact takeOutcome_subset coming
    · rw [if_neg hsame]
      exact List.Subset.refl _

/-- So was the drawn outcome, unless it leaves nothing behind. -/
theorem mem_drawOutcome (w : World) (command : String) :
    (w.drawOutcome command).1 ∈ w.outcomes command ∨ (w.drawOutcome command).1.files = [] := by
  unfold drawOutcome
  rw [outcomes]
  cases w.script.lookup command with
  | none => exact .inr rfl
  | some coming => exact mem_takeOutcome coming

end World

/-! ## Commands that spare a file -/

/-- Whether no run of a command in a directory that is still to come would write the file at a
place; runs that do not start leave nothing behind. -/
def Git.Command.Spares (command : Git.Command) (directory : String) (w : World)
    (place : Location) : Prop :=
  ∀ outcome ∈ w.outcomes (command.label directory), outcome.refused? = none →
    ∀ file ∈ outcome.files, Path.resolve (Path.join (command.target directory) file.1) ≠ place

instance (command : Git.Command) (directory : String) (w : World) (place : Location) :
    Decidable (command.Spares directory w place) :=
  inferInstanceAs (Decidable (∀ outcome ∈ w.outcomes (command.label directory),
    outcome.refused? = none → ∀ file ∈ outcome.files,
      Path.resolve (Path.join (command.target directory) file.1) ≠ place))

/-- What spares a file goes on sparing it. -/
theorem Git.Command.Spares.of_usesUp {command : Git.Command} {directory : String} {w v : World}
    {place : Location} (h : command.Spares directory w place) (huses : w.UsesUp v) :
    command.Spares directory v place :=
  fun outcome houtcome => h outcome (huses _ houtcome)

/-- The content that a sparing run leaves at a place is the one that was there. -/
theorem Git.content?_verdict {command : Git.Command} {directory : String} {w : World}
    {place : Location} (h : command.Spares directory w place) :
    (verdict command directory w).2.files.content? place = w.files.content? place := by
  refine verdict_cases (motive := fun u => u.files.content? place = w.files.content? place)
    (fun _ => rfl) ?_
  rw [← files_draw command directory w]
  refine content?_judge (fun hstarts file hfile => ?_) _
  rcases World.mem_drawOutcome (w.record (.git command.arguments directory))
    (command.label directory) with hmem | hnothing
  · exact h _ hmem hstarts file hfile
  · rw [draw, hnothing] at hfile
    cases hfile

theorem Git.usesUp_verdict (command : Git.Command) (directory : String) (w : World) :
    w.UsesUp (verdict command directory w).2 := by
  refine verdict_cases (fun _ => .of_script rfl) ?_
  exact (World.usesUp_drawOutcome (w.record (.git command.arguments directory)) _).trans
    (.of_script (script_judge _ _ _))

namespace Corpus

/-- Whether neither cloning a repository nor updating its copy would write the file at a place. -/
structure Spares (corpus : Corpus) (w : World) (repo : Repo) (place : Location) : Prop where
  clone : (Git.Command.clone repo.cloneAddress repo.name).Spares (corpus.ownerDirectory repo) w
    place
  pull : Git.Command.pull.Spares (corpus.pathTo repo) w place

theorem spares_iff {corpus : Corpus} {w : World} {repo : Repo} {place : Location} :
    corpus.Spares w repo place ↔
      (Git.Command.clone repo.cloneAddress repo.name).Spares (corpus.ownerDirectory repo) w place ∧
        Git.Command.pull.Spares (corpus.pathTo repo) w place :=
  ⟨fun h => ⟨h.clone, h.pull⟩, fun h => ⟨h.1, h.2⟩⟩

instance (corpus : Corpus) (w : World) (repo : Repo) (place : Location) :
    Decidable (corpus.Spares w repo place) :=
  decidable_of_iff _ spares_iff.symm

/-! ## Sparing actions -/

/-- Whether the content at a place stays as it was, from one situation to a later one, if all that
may still be done with some repositories spares it. -/
structure Sparing (corpus : Corpus) (repos : List Repo) (place : Location)
    (s t : Situation σ) : Prop where
  usesUp : s.world.UsesUp t.world
  content : (∀ repo ∈ repos, corpus.Spares s.world repo place) →
    t.world.files.content? place = s.world.files.content? place

variable {corpus : Corpus} {repos : List Repo} {place : Location}

instance : IsPreorder (Situation σ) (corpus.Sparing repos place) where
  refl s := ⟨.of_script rfl, fun _ => rfl⟩
  trans s t u hst htu := by
    refine ⟨hst.usesUp.trans htu.usesUp, fun hspares => ?_⟩
    have hlater : ∀ repo ∈ repos, corpus.Spares t.world repo place := fun repo hrepo =>
      ⟨(hspares repo hrepo).clone.of_usesUp hst.usesUp,
        (hspares repo hrepo).pull.of_usesUp hst.usesUp⟩
    exact (htu.content hlater).trans (hst.content hspares)

namespace Sparing

variable {s t : Situation σ} {repo : Repo} {localOnly : Bool} {visit : String → Action σ Bool}

theorem of_basis (h : t.basis = s.basis) : corpus.Sparing repos place s t := by
  obtain ⟨hfiles, hscript, -⟩ := Basis.mk.inj h
  exact ⟨.of_script hscript, fun _ => by rw [hfiles]⟩

theorem record (event : Event) :
    Action.Respects (corpus.Sparing repos place) (Action.record event : Action σ Unit) :=
  fun _ => of_basis rfl

theorem makeDirectories (path : String) :
    Action.Respects (corpus.Sparing repos place)
      (Action.changeFiles (FileTree.makeDirectories path) : Action σ Unit) := by
  intro s
  have hspares : FileTree.Spares place
      (FileTree.makeDirectories path : FileTree.Change Content Unit) := .makeDirectories path
  rw [Action.run_changeFiles]
  cases hrun : (FileTree.makeDirectories path).run s.world.files with
  | ok _ files => exact ⟨.of_script rfl, fun _ => hspares.of_run hrun⟩
  | error error files => exact ⟨.of_script rfl, fun _ => hspares.of_run_error hrun⟩

/-- A run of version control that spares a file leaves its content as it was. -/
theorem run {command : Git.Command} {directory : String}
    (h : ∀ w, (∀ repo ∈ repos, corpus.Spares w repo place) → command.Spares directory w place) :
    Action.Respects (corpus.Sparing repos place)
      (Git.run command directory : Action σ Int) := by
  intro s
  obtain ⟨t, hran, hrun⟩ := Git.exists_ran_run command directory s
  obtain ⟨hfiles, hscript, -⟩ := Basis.mk.inj hran.basis
  have hsparing : corpus.Sparing repos place s t := by
    refine ⟨(Git.usesUp_verdict command directory s.world).trans (.of_script hscript), ?_⟩
    intro hspares
    rw [hfiles]
    exact Git.content?_verdict (h s.world hspares)
  rw [hrun]
  cases (Git.verdict command directory s.world).1 with
  | ok code => exact hsparing
  | error failure => exact hsparing

theorem update (hrepo : repo ∈ repos) :
    Action.Respects (corpus.Sparing repos place) (corpus.update repo : Action σ Unit) := by
  refine .bind (record _) fun _ => .bind (run fun w h => (h repo hrepo).pull) fun code => ?_
  dsimp only
  split
  · exact .bind (record _) fun _ => record _
  · exact record _

theorem clone (hrepo : repo ∈ repos) :
    Action.Respects (corpus.Sparing repos place) (corpus.clone repo : Action σ Bool) := by
  have hcloned : Action.Respects (corpus.Sparing repos place)
      (Git.run (.clone repo.cloneAddress repo.name) (corpus.ownerDirectory repo) : Action σ Int) :=
    run fun w h => (h repo hrepo).clone
  refine .bind (makeDirectories _) fun _ => .bind (record _) fun _ => .bind hcloned fun code => ?_
  split
  · exact .bind (record _) fun _ => .pure _
  · exact .bind (record _) fun _ => .pure _

theorem provide (hrepo : repo ∈ repos) :
    Action.Respects (corpus.Sparing repos place)
      (corpus.provide localOnly repo : Action σ Bool) := by
  unfold Corpus.provide Corpus.ensureLocal
  split
  · exact .pure _
  · refine @Action.Respects.look _ _ _ _ fun w => ?_
    split
    · exact .bind (update hrepo) fun _ => .pure _
    · exact clone hrepo

/-- What is done with a discovered repository spares what the visitor spares. -/
theorem handle {found : Found} (hrepo : ∀ repo, Repo.ofListed? found.listed = some repo →
      repo ∈ repos) (hvisit : ∀ path, Action.Respects (corpus.Sparing repos place) (visit path)) :
    Action.Respects (corpus.Sparing repos place) (corpus.handle localOnly visit found) := by
  unfold Corpus.handle
  split
  · exact .throw _
  · rename_i repo hfound
    refine .bind (record _) fun _ => .bind (provide (hrepo repo hfound)) fun available => ?_
    split
    · exact hvisit _
    · split
      · exact .bind (record _) fun _ => .pure _
      · exact .bind (record _) fun _ => .pure _

theorem requestPage (source : Source) (page : Nat) :
    Action.Respects (corpus.Sparing repos place)
      (Discovery.requestPage source page : Action σ Unit) :=
  fun _ => of_basis rfl

/-- All steps of a discovery spare what the visitor spares. -/
theorem pursue (source : Source) (localOnly : Bool) {steps : List Discovery.Step}
    (hrepos : Discovery.repos steps ⊆ repos)
    (hvisit : ∀ path, Action.Respects (corpus.Sparing repos place) (visit path)) :
    Action.Respects (corpus.Sparing repos place)
      (Discovery.pursue source (corpus.handle localOnly visit) steps) := by
  refine Discovery.respects_pursue (requestPage source) steps fun found hfound => ?_
  refine handle (fun repo hrepo => hrepos ?_) hvisit
  exact List.mem_filterMap.2 ⟨.found found, hfound, hrepo⟩

end Sparing
end Corpus
end FeatureCensus
