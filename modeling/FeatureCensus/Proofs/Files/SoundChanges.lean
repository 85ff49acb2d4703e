import FeatureCensus.Corpus.Git
import FeatureCensus.Proofs.Files.SoundTrees
import FeatureCensus.Snapshot.Surroundings

/-!
# Sound changes

Directories that are made and files that are written stand by their names in directories, so
changes of files keep a tree sound, whether they succeed or fail on the way.  All trees that
changes make of the one with an empty working directory are sound.

Main results:

- Theorem {lit}`FileTree.isSound_empty`: the tree with an empty working directory is sound.
- Theorem {lit}`FileTree.IsSound.put_of_enter`: what is put where a name leads to keeps a tree
  sound.
- Theorem {lit}`FileTree.KeepsSound.makeDirectories`: so do directories that are made.
- Theorem {lit}`FileTree.KeepsSound.writeBelow`: so does a file with the directories above it.
- Theorem {lit}`Git.keepsSound_leaveBehind`: so do the files that a run leaves behind.
- Theorem {lit}`Snapshot.isSound_filesOf`: the files of a snapshot are sound.
-/

namespace FeatureCensus

namespace Association

variable {κ α : Type} [BEq κ] [LawfulBEq κ]

theorem mem_of_mem_put {key : κ} {value : α} {entries : List (κ × α)} {entry : κ × α}
    (h : entry ∈ put key value entries) : entry = (key, value) ∨ entry ∈ entries := by
  induction entries with
  | nil => exact .inl (List.mem_singleton.1 h)
  | cons first rest ih =>
    obtain ⟨other, old⟩ := first
    rw [put] at h
    split at h
    · rename_i hsame
      rcases List.mem_cons.1 h with rfl | hrest
      · exact .inl (by rw [eq_of_beq hsame])
      · exact .inr (List.mem_cons_of_mem _ hrest)
    · rcases List.mem_cons.1 h with rfl | hrest
      · exact .inr List.mem_cons_self
      · exact (ih hrest).imp_right (List.mem_cons_of_mem _)

/-- No key is there twice after a value is put. -/
theorem nodup_keys_put (key : κ) (value : α) {entries : List (κ × α)}
    (h : (entries.map (·.1)).Nodup) : ((put key value entries).map (·.1)).Nodup := by
  induction entries with
  | nil => exact List.nodup_singleton key
  | cons first rest ih =>
    obtain ⟨other, old⟩ := first
    rw [List.map_cons, List.nodup_cons] at h
    rw [put]
    split
    · exact List.nodup_cons.2 h
    · rename_i hne
      refine List.nodup_cons.2 ⟨fun hmem => ?_, ih h.2⟩
      obtain ⟨entry, hentry, hsame⟩ := List.mem_map.1 hmem
      rcases mem_of_mem_put hentry with rfl | hold
      · exact hne (beq_iff_eq.2 hsame)
      · exact h.1 (List.mem_map.2 ⟨entry, hold, hsame⟩)

end Association

namespace FileTree

open FeatureCensus.Path (IsName)
open Text (Strays)

variable {γ α β : Type} {t : FileTree γ} {place next : Location} {name path : String}

/-! ## What is put -/

/-- The tree with an empty working directory is sound. -/
theorem isSound_empty {strays : Strays} {order : SearchOrder} :
    (FileTree.empty strays order : FileTree γ).IsSound where
  distinct := List.nodup_singleton _
  named := by
    intro entry hentry name hname
    rw [List.mem_singleton.1 hentry] at hname
    rw [List.mem_singleton.1 hname]
    exact ⟨by decide, Nat.le_trans (strays.byteSize_le "work") (by decide)⟩
  housed := by
    intro entry hentry
    rw [List.mem_singleton.1 hentry]
    rfl

/-- Directories stay unless something is put in their place. -/
theorem isDirectoryAt_put {other : Location} (hnew : t.isDirectoryAt place = false)
    (h : t.isDirectoryAt other = true) (node : FileNode γ) :
    (t.put place node).isDirectoryAt other = true := by
  have hne : other ≠ place := by
    rintro rfl
    rw [hnew] at h
    cases h
  rwa [isDirectoryAt, node?_put_of_ne t hne]

/-- What is put by a name in a directory, and not over another directory, keeps a tree sound. -/
theorem IsSound.put (h : t.IsSound) (hplace : t.isDirectoryAt place = true) (hname : IsName name)
    (hsize : t.strays.byteSize name ≤ nameLimit) (hnew : t.isDirectoryAt (place ++ [name]) = false)
    (node : FileNode γ) : (t.put (place ++ [name]) node).IsSound where
  distinct := Association.nodup_keys_put _ node h.distinct
  named := by
    intro entry hentry other hother
    rcases Association.mem_of_mem_put hentry with rfl | hold
    · rcases List.mem_append.1 hother with hother | hother
      · exact h.isName_of_isSome (isSome_node?_of_isDirectoryAt hplace) other hother
      · rw [List.mem_singleton.1 hother]
        exact ⟨hname, hsize⟩
    · exact h.named entry hold other hother
  housed := by
    intro entry hentry
    rcases Association.mem_of_mem_put hentry with rfl | hold
    · rw [List.dropLast_concat]
      exact isDirectoryAt_put hnew hplace node
    · exact isDirectoryAt_put hnew (h.housed entry hold) node

/-- What is put where a name leads to keeps a tree sound, if there is no directory. -/
theorem IsSound.put_of_enter (h : t.IsSound) (henter : t.enter place name = .ok next)
    (hslash : '/' ∉ name.toList) (hnull : '\x00' ∉ name.toList)
    (hnew : t.isDirectoryAt next = false) (node : FileNode γ) : (t.put next node).IsSound := by
  obtain ⟨hplace, hsize, rfl⟩ := enter_eq_ok_iff.1 henter
  have habove := h.isDirectoryAt_dropLast (isSome_node?_of_isDirectoryAt hplace)
  -- The names that lead to no new place lead to directories.
  have hname : IsName name := by
    refine ⟨?_, ?_, ?_, hslash, hnull⟩
    · rintro rfl
      exact Bool.false_ne_true (hnew.symm.trans hplace)
    · rintro rfl
      exact Bool.false_ne_true (hnew.symm.trans hplace)
    · rintro rfl
      exact Bool.false_ne_true (hnew.symm.trans habove)
  rw [Path.resolveName_of_isName hname] at hnew ⊢
  exact h.put hplace hname hsize hnew node

/-- The last component of a path has no slash in it and no character that no path can hold. -/
theorem not_mem_of_locateParent (h : t.locateParent path = .ok (place, name)) :
    '/' ∉ name.toList ∧ '\x00' ∉ name.toList := by
  unfold locateParent at h
  split at h
  · cases h
  · rename_i hcheck
    have hnull := (checkPath_eq_ok_iff.1 hcheck).1
    dsimp only at h
    split at h
    · cases h
    · obtain ⟨-, rfl⟩ := Prod.mk.inj (Except.ok.inj h)
      rcases List.eq_nil_or_concat' (Path.components (String.ofList
        (Path.dropTrailingSlashes path.toList))) with hnil | ⟨init, last, hlast⟩
      · rw [hnil]
        exact ⟨by decide, by decide⟩
      · have hmem : last ∈ Path.components (String.ofList
            (Path.dropTrailingSlashes path.toList)) := by simp [hlast]
        rw [hlast, List.getLastD_concat]
        refine ⟨Path.noSlash_of_mem_components hmem, fun hc => hnull ?_⟩
        have hkept := Path.mem_of_mem_component hmem hc
        rw [String.toList_ofList] at hkept
        exact Path.mem_of_mem_dropTrailingSlashes hkept

/-! ## Changes -/

/-- Whether a change, successful or not, keeps a tree sound. -/
def KeepsSound (x : Change γ α) : Prop :=
  ∀ t, t.IsSound → match x.run t with
    | .ok _ u => u.IsSound
    | .error _ u => u.IsSound

namespace KeepsSound

theorem pure (a : α) : KeepsSound (Pure.pure a : Change γ α) :=
  fun _ h => h

theorem throw (error : FileError) : KeepsSound (MonadExcept.throw error : Change γ α) :=
  fun _ h => h

/-- Nothing happens after a failure. -/
theorem throw_bind (error : FileError) (next : β → Change γ α) :
    KeepsSound (MonadExcept.throw error >>= next) :=
  fun _ h => h

theorem set (h : t.IsSound) : KeepsSound (MonadStateOf.set t : Change γ PUnit) :=
  fun _ _ => h

/-- A look at the tree finds it sound. -/
theorem look {next : FileTree γ → Change γ α} (h : ∀ t, t.IsSound → KeepsSound (next t)) :
    KeepsSound (get >>= next) :=
  fun t ht => h t ht t ht

theorem bind {x : Change γ α} {f : α → Change γ β} (hx : KeepsSound x)
    (hf : ∀ a, KeepsSound (f a)) : KeepsSound (x >>= f) := by
  intro t ht
  have hfirst := hx t ht
  simp only [EStateM.run, Bind.bind, EStateM.bind] at hfirst ⊢
  cases hrun : x t with
  | error error u => simpa [hrun] using hfirst
  | ok a u =>
    rw [hrun] at hfirst
    exact hf a u hfirst

theorem tryCatch {x : Change γ α} {handler : FileError → Change γ α} (hx : KeepsSound x)
    (hhandler : ∀ error, KeepsSound (handler error)) :
    KeepsSound (MonadExcept.tryCatch x handler) := by
  intro t ht
  have hfirst := hx t ht
  have hcatch : (MonadExcept.tryCatch x handler : Change γ α).run t = match x.run t with
      | .ok a u => .ok a u
      | .error error u => (handler error).run u := by
    change EStateM.tryCatch x handler t = _
    unfold EStateM.tryCatch EStateM.run
    cases x t <;> rfl
  rw [hcatch]
  cases hrun : x.run t with
  | ok a u =>
    rw [hrun] at hfirst
    exact hfirst
  | error error u =>
    rw [hrun] at hfirst
    exact hhandler error u hfirst

/-! ## Directories -/

theorem makeDirectory (path : String) : KeepsSound (makeDirectory path : Change γ Unit) := by
  refine .look fun t ht => ?_
  cases hparent : t.locateParent path with
  | error error => exact .throw error
  | ok parent =>
    obtain ⟨place, name⟩ := parent
    obtain ⟨hslash, hnull⟩ := not_mem_of_locateParent hparent
    simp only
    cases henter : t.enter place name with
    | error fault => exact .throw _
    | ok next =>
      simp only
      split
      · exact .throw_bind _ _
      · rename_i hnothing
        have hnew : t.isDirectoryAt next = false := by
          rw [Bool.eq_false_iff]
          exact fun hdirectory => hnothing (isSome_node?_of_isDirectoryAt hdirectory)
        exact .set (ht.put_of_enter henter hslash hnull hnew _)

theorem ensureDirectory (path : String) : KeepsSound (ensureDirectory path : Change γ Unit) := by
  refine .tryCatch (.makeDirectory path) fun error => .look fun t _ => ?_
  split
  · exact .pure ()
  · exact .throw error

theorem ensureDirectories (cs : List Char) : KeepsSound (ensureDirectories cs : Change γ Unit) := by
  induction hlength : cs.length using Nat.strong_induction_on generalizing cs with
  | _ n ih =>
    rw [FileTree.ensureDirectories]
    split
    · exact .ensureDirectory _
    · rename_i hname
      have habove := ih _ (hlength ▸ Path.length_parent_lt hname) _ rfl
      refine .look fun t _ => ?_
      split
      · exact .ensureDirectory _
      · refine .bind (.tryCatch habove fun error => ?_) fun _ => ?_
        · split
          · exact .pure ()
          · exact .throw error
        · split
          · exact .pure ()
          · exact .ensureDirectory _

/-- Directories that are made keep a tree sound. -/
theorem makeDirectories (path : String) : KeepsSound (makeDirectories path : Change γ Unit) :=
  .ensureDirectories path.toList

/-! ## Files -/

theorem write (path : String) (content : γ) : KeepsSound (write path content) := by
  refine .look fun t ht => ?_
  cases hparent : t.locateParent path with
  | error error => exact .throw error
  | ok parent =>
    obtain ⟨place, name⟩ := parent
    obtain ⟨hslash, hnull⟩ := not_mem_of_locateParent hparent
    simp only
    cases henter : t.enter place name with
    | error fault => exact .throw _
    | ok next =>
      simp only
      split
      · exact .throw _
      · rename_i hnew
        split
        · exact .throw _
        · refine .set (ht.put_of_enter henter hslash hnull (Bool.eq_false_iff.2 fun hplace => ?_) _)
          exact hnew (holdsDirectory_of_isDirectoryAt hplace)

/-- A file that is written after the directories above it keeps a tree sound. -/
theorem writeBelow (path : String) (content : γ) : KeepsSound (writeBelow path content) := by
  rw [FileTree.writeBelow]
  split
  · exact .write path content
  · exact .bind (.makeDirectories _) fun _ => .write path content

end KeepsSound
end FileTree

/-! ## Trees that arise -/

open FileTree

theorem Git.keepsSound_writeFiles (target : String) (files : List (String × Text.Bytes)) :
    KeepsSound (Git.writeFiles target files) := by
  induction files with
  | nil => exact .pure ()
  | cons file rest ih =>
    rw [Git.writeFiles]
    exact .bind (.writeBelow _ _) fun _ => ih

/-- The files that a run of version control leaves behind keep a tree sound. -/
theorem Git.keepsSound_leaveBehind (target : String) (outcome : GitOutcome) :
    KeepsSound (Git.leaveBehind target outcome) := by
  have hfiles := Git.keepsSound_writeFiles target outcome.files
  unfold Git.leaveBehind
  split
  · exact .bind (.makeDirectories target) fun _ => hfiles
  · exact hfiles

/-- The files of a snapshot are sound. -/
theorem Snapshot.isSound_filesOf {directories : List String} {files : List Snapshot.RecordedFile}
    {t : FileTree Content} (h : Snapshot.filesOf directories files = .ok t) : t.IsSound := by
  have hmade : ∀ directories, KeepsSound (Snapshot.makeAll directories) := by
    intro directories
    induction directories with
    | nil => exact .pure ()
    | cons path rest ih => exact .bind (.makeDirectories path) fun _ => ih
  have hwritten : ∀ files, KeepsSound (Snapshot.writeAll files) := by
    intro files
    induction files with
    | nil => exact .pure ()
    | cons file rest ih => exact .bind (.writeBelow _ _) fun _ => ih
  have hkept := (KeepsSound.bind (hmade directories) fun _ => hwritten files)
    (.empty Snapshot.strays .byPath) isSound_empty
  unfold Snapshot.filesOf at h
  split at h
  · rename_i u hrun
    obtain rfl := Except.ok.inj h
    rw [hrun] at hkept
    exact hkept
  · cases h

end FeatureCensus
