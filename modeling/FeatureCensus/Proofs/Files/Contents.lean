import FeatureCensus.Proofs.Analysis.Sources
import FeatureCensus.Proofs.Corpus.Remains

/-!
# Contents that stay

Directories are made only where nothing stands, and so the contents of all files stay as they were.
A file that is written changes no content but that of the place where its path comes to.  What a
run of version control leaves behind therefore spares every file that is none of its own.

Main results:

- Theorem {lit}`FileTree.Spares.makeDirectories`: making directories spares all files.
- Theorem {lit}`FileTree.Spares.writeBelow`: writing a file spares all others.
- Theorem {lit}`Git.content?_judge`: what a run leaves behind spares all other files.
-/

namespace FeatureCensus

variable {γ α β : Type}

namespace FileTree

variable {t : FileTree γ} {place : Location}

/-! ## Changes that spare a place -/

/-- Whether a change, successful or not, leaves the content of the file at a place as it was. -/
def Spares (place : Location) (x : Change γ α) : Prop :=
  ∀ t, (treeAfter x t).content? place = t.content? place

theorem content?_put_of_ne (t : FileTree γ) {other : Location} (h : place ≠ other)
    (node : FileNode γ) : (t.put other node).content? place = t.content? place := by
  rw [content?, content?, node?_put_of_ne t h]

/-- A directory in a place where nothing stood holds as little as nothing. -/
theorem content?_put_directory {other : Location} (h : t.node? other = none) :
    (t.put other .directory).content? place = t.content? place := by
  by_cases hsame : place = other
  · have hne : other ≠ [] := by
      rintro rfl
      cases h
    rw [hsame, content?, content?, node?_put_self t hne, h]
  · exact content?_put_of_ne t hsame _

namespace Spares

theorem of_run {x : Change γ α} (h : Spares place x) {a : α} {u : FileTree γ}
    (hrun : x.run t = .ok a u) : u.content? place = t.content? place := by
  have ht := h t
  rwa [treeAfter, hrun] at ht

theorem of_run_error {x : Change γ α} (h : Spares place x) {error : FileError} {u : FileTree γ}
    (hrun : x.run t = .error error u) : u.content? place = t.content? place := by
  have ht := h t
  rwa [treeAfter, hrun] at ht

theorem pure (a : α) : Spares place (Pure.pure a : Change γ α) :=
  fun _ => rfl

theorem throw (error : FileError) : Spares place (MonadExcept.throw error : Change γ α) :=
  fun _ => rfl

theorem look {next : FileTree γ → Change γ α} (h : ∀ t, Spares place (next t)) :
    Spares place (get >>= next) :=
  fun t => h t t

theorem bind {x : Change γ α} {f : α → Change γ β} (hx : Spares place x)
    (hf : ∀ a, Spares place (f a)) : Spares place (x >>= f) := by
  intro t
  rw [treeAfter, EStateM.run_bind]
  cases hrun : x.run t with
  | error error u => exact hx.of_run_error hrun
  | ok a u => exact (hf a u).trans (hx.of_run hrun)

theorem tryCatch {x : Change γ α} {handler : FileError → Change γ α} (hx : Spares place x)
    (hhandler : ∀ error, Spares place (handler error)) :
    Spares place (MonadExcept.tryCatch x handler) := by
  intro t
  rw [treeAfter, run_tryCatch]
  cases hrun : x.run t with
  | ok a u => exact hx.of_run hrun
  | error error u => exact (hhandler error u).trans (hx.of_run_error hrun)

/-! ## Directories -/

theorem makeDirectory (path : String) :
    Spares place (makeDirectory path : Change γ Unit) := by
  intro t
  rw [treeAfter, run_makeDirectory]
  cases t.locateParent path with
  | error error => rfl
  | ok parent =>
    obtain ⟨above, name⟩ := parent
    dsimp only
    cases t.enter above name with
    | error fault => rfl
    | ok next =>
      dsimp only
      by_cases hstands : (t.node? next).isSome = true
      · rw [if_pos hstands]
      · rw [if_neg hstands]
        exact content?_put_directory (Option.not_isSome_iff_eq_none.1 hstands)

theorem ensureDirectory (path : String) :
    Spares place (ensureDirectory path : Change γ Unit) := by
  refine .tryCatch (.makeDirectory path) fun error => .look fun t => ?_
  split
  · exact .pure ()
  · exact .throw error

theorem ensureDirectories (cs : List Char) :
    Spares place (ensureDirectories cs : Change γ Unit) := by
  induction hlength : cs.length using Nat.strong_induction_on generalizing cs with
  | _ n ih =>
    rw [FileTree.ensureDirectories]
    split
    · exact .ensureDirectory _
    · rename_i hname
      have habove := ih _ (hlength ▸ Path.length_parent_lt hname) _ rfl
      refine .look fun t => ?_
      split
      · exact .ensureDirectory _
      · refine .bind (.tryCatch habove fun error => ?_) fun _ => ?_
        · split
          · exact .pure ()
          · exact .throw error
        · split
          · exact .pure ()
          · exact .ensureDirectory _

/-- Making directories spares all files. -/
theorem makeDirectories (path : String) :
    Spares place (makeDirectories path : Change γ Unit) :=
  .ensureDirectories path.toList

/-! ## Files -/

theorem write {path : String} (h : Path.resolve path ≠ place) (content : γ) :
    Spares place (write path content) := by
  intro t
  rw [treeAfter, run_write]
  cases hparent : t.locateParent path with
  | error error => rfl
  | ok parent =>
    obtain ⟨above, name⟩ := parent
    dsimp only
    cases henter : t.enter above name with
    | error fault => rfl
    | ok next =>
      rw [← eq_resolve_of_enter hparent henter] at h
      dsimp only
      by_cases hdirectory : t.holdsDirectory next = true
      · rw [if_pos hdirectory]
      · rw [if_neg hdirectory]
        by_cases hslash : (path.toList.getLast? == some '/') = true
        · rw [if_pos hslash]
        · rw [if_neg hslash]
          exact content?_put_of_ne t h.symm _

/-- Writing a file, with the directories above it, spares all others. -/
theorem writeBelow {path : String} (h : Path.resolve path ≠ place) (content : γ) :
    Spares place (writeBelow path content) := by
  rw [FileTree.writeBelow]
  split
  · exact .write h content
  · exact .bind (.makeDirectories _) fun _ => .write h content

end Spares
end FileTree

/-! ## What runs leave behind -/

namespace Git

open FileTree (Spares)

variable {target : String} {outcome : GitOutcome} {place : Location}

theorem spares_writeFiles {files : List (String × Text.Bytes)}
    (h : ∀ file ∈ files, Path.resolve (Path.join target file.1) ≠ place) :
    Spares place (writeFiles target files) := by
  induction files with
  | nil => exact .pure ()
  | cons file rest ih =>
    rw [writeFiles]
    exact .bind (.writeBelow (h file List.mem_cons_self) _) fun _ =>
      ih fun other hother => h other (List.mem_cons_of_mem _ hother)

theorem spares_leaveBehind
    (h : ∀ file ∈ outcome.files, Path.resolve (Path.join target file.1) ≠ place) :
    Spares place (leaveBehind target outcome) := by
  have hwritten := spares_writeFiles h
  unfold leaveBehind
  split
  · exact .bind (.makeDirectories target) fun _ => hwritten
  · exact hwritten

/-- What a run leaves behind, if it starts at all, spares all files that are none of its own. -/
theorem content?_judge (h : outcome.refused? = none →
      ∀ file ∈ outcome.files, Path.resolve (Path.join target file.1) ≠ place) (w : World) :
    (judge target outcome w).2.files.content? place = w.files.content? place := by
  cases hrefused : outcome.refused? with
  | some reason => rw [files_judge_of_isFruitless (.inl (by rw [hrefused]; rfl))]
  | none =>
    have hspares := spares_leaveBehind (h hrefused)
    exact files_judge (motive := fun files => files.content? place = w.files.content? place)
      (fun _ => rfl) (fun _ hrun => hspares.of_run hrun) fun _ _ hrun => hspares.of_run_error hrun

end Git
end FeatureCensus
