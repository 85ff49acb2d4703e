import FeatureCensus.Proofs.Files.Clearance
import FeatureCensus.Proofs.Files.SoundChanges

/-!
# Growing file trees

Directories that are made and files that are written only add to a tree: whatever stands somewhere
goes on standing there, and what is a directory stays one.  So what a path finds it goes on
finding.  All that is added is what is missing on the way of the path of a directory or a file, and
everything elsewhere is as before.

Main results:

- Theorem {lit}`FileTree.Grows.exists_of_exists`: a path that exists goes on existing.
- Theorem {lit}`FileTree.GrowsBy.makeDirectories`: directories are made on the way of their path.
- Theorem {lit}`FileTree.GrowsBy.writeBelow`: so is a file with the directories above it.
- Theorem {lit}`FileTree.isDirectory_of_makeDirectories`: a directory that is made is there.
-/

namespace FeatureCensus
namespace FileTree

open FeatureCensus.Path (isPlain)

variable {γ α β : Type} {r t u v : FileTree γ} {kind other : Location → Prop}
  {place reached : Location} {names : List String} {path : String}

/-! ## Growth -/

/-- Whether a tree has become another one by growing at places of a kind only. -/
structure Grows (kind : Location → Prop) (t u : FileTree γ) : Prop where
  elsewhere : ∀ place, ¬ kind place → u.node? place = t.node? place
  directory : ∀ place, t.isDirectoryAt place = true → u.isDirectoryAt place = true
  held : ∀ place, t.holdsDirectory place = true → u.holdsDirectory place = true
  standing : ∀ place, (t.node? place).isSome = true → (u.node? place).isSome = true
  strays : u.strays = t.strays

namespace Grows

theorem refl (t : FileTree γ) : Grows kind t t :=
  ⟨fun _ _ => rfl, fun _ => id, fun _ => id, fun _ => id, rfl⟩

theorem trans (h : Grows kind t u) (hnext : Grows kind u v) : Grows kind t v where
  elsewhere place hplace := (hnext.elsewhere place hplace).trans (h.elsewhere place hplace)
  directory place hplace := hnext.directory place (h.directory place hplace)
  held place hplace := hnext.held place (h.held place hplace)
  standing place hplace := hnext.standing place (h.standing place hplace)
  strays := hnext.strays.trans h.strays

theorem mono (h : Grows kind t u) (hkind : ∀ place, kind place → other place) :
    Grows other t u :=
  ⟨fun place hplace => h.elsewhere place fun hthere => hplace (hkind place hthere),
    h.directory, h.held, h.standing, h.strays⟩

/-- A tree grows by what is put at a place where there is no directory. -/
theorem put (hnew : t.holdsDirectory place = false) (hplace : kind place) (node : FileNode γ) :
    Grows kind t (t.put place node) where
  elsewhere where_ hwhere := by
    refine node?_put_of_ne t ?_ node
    rintro rfl
    exact hwhere hplace
  directory where_ hwhere := by
    refine isDirectoryAt_put (Bool.eq_false_iff.2 fun hplace => ?_) hwhere node
    exact Bool.false_ne_true (hnew.symm.trans (holdsDirectory_of_isDirectoryAt hplace))
  held where_ hwhere := by
    have hne : where_ ≠ place := by
      rintro rfl
      exact Bool.false_ne_true (hnew.symm.trans hwhere)
    rwa [holdsDirectory, node?_put_of_ne t hne]
  standing where_ hwhere := by
    by_cases hsame : where_ = place
    · have hne : place ≠ [] := by
        rintro rfl
        cases hnew
      rw [hsame, node?_put_self t hne]
      rfl
    · rwa [node?_put_of_ne t hsame]
  strays := rfl

theorem step (h : Grows kind t u) {name : String} (hstep : t.step place name = .ok reached) :
    u.step place name = .ok reached := by
  rw [FileTree.step] at hstep ⊢
  cases henter : t.enter place name with
  | error fault => rw [henter] at hstep; cases hstep
  | ok next =>
    rw [henter] at hstep
    obtain ⟨hplace, hsize, hnext⟩ := enter_eq_ok_iff.1 henter
    rw [enter_eq_ok_iff.2 ⟨h.directory place hplace, h.strays ▸ hsize, hnext⟩]
    dsimp only at hstep ⊢
    split at hstep
    · rename_i hstands
      rw [if_pos (h.standing next hstands), hstep]
    · cases hstep

/-- Names go on leading where they have led. -/
theorem follow (h : Grows kind t u) (hfollow : t.follow names place = .ok reached) :
    u.follow names place = .ok reached := by
  induction names generalizing place with
  | nil => exact hfollow
  | cons name rest ih =>
    rw [follow_cons] at hfollow ⊢
    cases hstep : t.step place name with
    | error fault => rw [hstep] at hfollow; cases hfollow
    | ok next =>
      rw [hstep] at hfollow
      rw [h.step hstep]
      exact ih hfollow

theorem checkPath (h : Grows kind t u) (path : String) : u.checkPath path = t.checkPath path := by
  rw [FileTree.checkPath, FileTree.checkPath, h.strays]

theorem locate (h : Grows kind t u) (hlocate : t.locate path = .ok place) :
    u.locate path = .ok place := by
  rw [locate_eq_ok_iff] at hlocate ⊢
  exact ⟨(h.checkPath path).trans hlocate.1, h.follow hlocate.2⟩

/-- A path that exists goes on existing. -/
theorem exists_of_exists (h : Grows kind t u) (hexists : t.exists? path = true) :
    u.exists? path = true := by
  obtain ⟨place, hplace⟩ := (t.exists_eq_true_iff path).1 hexists
  exact (u.exists_eq_true_iff path).2 ⟨place, h.locate hplace⟩

/-- What a path can be followed to as far as it leads up it can be followed to from then on. -/
theorem clears (h : Grows kind t u) (hclears : t.Clears path) : u.Clears path :=
  fun names hnames => (hclears names hnames).imp fun _ => h.follow

/-- Where there is no directory there has been none. -/
theorem holdsDirectory_eq_false (h : Grows kind t u) (hnone : u.holdsDirectory place = false) :
    t.holdsDirectory place = false := by
  rw [Bool.eq_false_iff] at hnone ⊢
  exact fun hthere => hnone (h.held place hthere)

end Grows

theorem isDirectory_iff :
    t.isDirectory path = true ↔
      ∃ place, t.locate path = .ok place ∧ t.holdsDirectory place = true := by
  unfold isDirectory
  cases t.locate path with
  | error error => simp
  | ok place => simp

theorem exists_of_isDirectory (h : t.isDirectory path = true) : t.exists? path = true := by
  obtain ⟨place, hplace, -⟩ := isDirectory_iff.1 h
  exact (t.exists_eq_true_iff path).2 ⟨place, hplace⟩

theorem Grows.isDirectory (h : Grows kind t u) (hpath : t.isDirectory path = true) :
    u.isDirectory path = true := by
  obtain ⟨place, hplace, hdirectory⟩ := isDirectory_iff.1 hpath
  exact isDirectory_iff.2 ⟨place, h.locate hplace, h.held place hdirectory⟩

/-! ## Changes that grow -/

/-- The tree after a change, successful or not. -/
def treeAfter (x : Change γ α) (t : FileTree γ) : FileTree γ :=
  match x.run t with
  | .ok _ u => u
  | .error _ u => u

/-- Whether a change, successful or not, makes every tree that a given one has grown to grow further
at places of a kind only. -/
structure GrowsBy (r : FileTree γ) (kind : Location → Prop) (x : Change γ α) : Prop where
  grows : ∀ t, Grows (fun _ => True) r t → Grows kind t (treeAfter x t)

theorem run_tryCatch (x : Change γ α) (handler : FileError → Change γ α) (t : FileTree γ) :
    (MonadExcept.tryCatch x handler : Change γ α).run t = match x.run t with
      | .ok a u => .ok a u
      | .error error u => (handler error).run u := by
  change EStateM.tryCatch x handler t = _
  unfold EStateM.tryCatch EStateM.run
  cases x t <;> rfl

theorem run_bind_eq_ok {x : Change γ α} {f : α → Change γ β} {b : β} :
    (x >>= f).run t = .ok b v ↔ ∃ a u, x.run t = .ok a u ∧ (f a).run u = .ok b v := by
  rw [EStateM.run_bind]
  cases x.run t with
  | error error u => simp
  | ok a u => simp

theorem run_makeDirectory (path : String) (t : FileTree γ) :
    (makeDirectory path).run t = match t.locateParent path with
      | .error error => .error error t
      | .ok (place, name) =>
        match t.enter place name with
        | .error fault => .error (.refused fault path) t
        | .ok next =>
          if (t.node? next).isSome then .error (.refused .alreadyExists path) t
          else .ok () (t.put next .directory) := by
  rw [makeDirectory, EStateM.run_bind, EStateM.run_get]
  dsimp only
  cases t.locateParent path with
  | error error => rfl
  | ok parent =>
    obtain ⟨place, name⟩ := parent
    dsimp only
    cases t.enter place name with
    | error fault => rfl
    | ok next =>
      dsimp only
      split <;> rfl

theorem run_write (path : String) (content : γ) (t : FileTree γ) :
    (write path content).run t = match t.locateParent path with
      | .error error => .error error t
      | .ok (place, name) =>
        match t.enter place name with
        | .error fault => .error (.refused fault path) t
        | .ok next =>
          if t.holdsDirectory next then .error (.refused .isADirectory path) t
          else if path.toList.getLast? == some '/' then
            .error (.refused (if (t.node? next).isSome then .notADirectory else .isADirectory)
              path) t
          else .ok () (t.put next (.file content)) := by
  rw [write, EStateM.run_bind, EStateM.run_get]
  dsimp only
  cases t.locateParent path with
  | error error => rfl
  | ok parent =>
    obtain ⟨place, name⟩ := parent
    dsimp only
    cases t.enter place name with
    | error fault => rfl
    | ok next =>
      dsimp only
      split
      · rfl
      · split <;> rfl

/-- A path leads to its last component in the directory that this would be made in. -/
theorem locateParent_eq_ok {name : String} (h : t.locateParent path = .ok (place, name)) :
    t.checkPath path = .ok () ∧ ∃ init,
      Path.components (String.ofList (Path.dropTrailingSlashes path.toList)) = init ++ [name] ∧
      t.follow init (Path.origin path) = .ok place := by
  unfold locateParent at h
  split at h
  · cases h
  · rename_i hcheck
    refine ⟨hcheck, ?_⟩
    dsimp only at h
    split at h
    · cases h
    · rename_i hfollow
      obtain ⟨rfl, rfl⟩ := Prod.mk.inj (Except.ok.inj h)
      obtain ⟨init, last, hlast⟩ := (List.eq_nil_or_concat' (Path.components (String.ofList
        (Path.dropTrailingSlashes path.toList)))).resolve_left
          fun hnil => Text.fields_ne_nil _ _ (List.map_eq_nil_iff.1 hnil)
      rw [hlast, List.dropLast_concat] at hfollow
      exact ⟨init, by rw [hlast, List.getLastD_concat], hfollow⟩

/-- What a path would make is where it comes to. -/
theorem eq_resolve_of_enter {name : String} (h : t.locateParent path = .ok (place, name))
    (henter : t.enter place name = .ok reached) : reached = Path.resolve path := by
  obtain ⟨-, init, hnames, hfollow⟩ := locateParent_eq_ok h
  obtain ⟨-, -, rfl⟩ := enter_eq_ok_iff.1 henter
  have hplain : Path.plain path = (init ++ [name]).filter isPlain := by
    have hsame := (Path.dropTrailingSlashes_same path.toList).2
    rw [String.ofList_toList] at hsame
    rw [← hsame, Path.plain, hnames]
  rw [Path.resolve_eq, hplain, Path.resolveFrom_filter, Path.resolveFrom_append,
    ← eq_resolveFrom_of_follow hfollow]
  rfl

namespace GrowsBy

theorem of_run {x : Change γ α} (h : GrowsBy r kind x) (hr : Grows (fun _ => True) r t) {a : α}
    (hrun : x.run t = .ok a u) : Grows kind t u := by
  have ht := h.grows t hr
  rwa [treeAfter, hrun] at ht

theorem of_run_error {x : Change γ α} (h : GrowsBy r kind x) (hr : Grows (fun _ => True) r t)
    {error : FileError} (hrun : x.run t = .error error u) : Grows kind t u := by
  have ht := h.grows t hr
  rwa [treeAfter, hrun] at ht

theorem mono {x : Change γ α} (h : GrowsBy r kind x) (hkind : ∀ place, kind place → other place) :
    GrowsBy r other x :=
  ⟨fun t hr => (h.grows t hr).mono hkind⟩

theorem pure (a : α) : GrowsBy r kind (Pure.pure a : Change γ α) :=
  ⟨fun t _ => .refl t⟩

theorem throw (error : FileError) : GrowsBy r kind (MonadExcept.throw error : Change γ α) :=
  ⟨fun t _ => .refl t⟩

theorem look {next : FileTree γ → Change γ α} (h : ∀ t, GrowsBy r kind (next t)) :
    GrowsBy r kind (get >>= next) :=
  ⟨fun t => (h t).grows t⟩

/-- What the parts of a change add one after the other, all of it adds. -/
theorem bind {x : Change γ α} {f : α → Change γ β} (hx : GrowsBy r kind x)
    (hf : ∀ a, GrowsBy r kind (f a)) : GrowsBy r kind (x >>= f) := by
  refine ⟨fun t hr => ?_⟩
  rw [treeAfter, EStateM.run_bind]
  cases hrun : x.run t with
  | error error u => exact hx.of_run_error hr hrun
  | ok a u =>
    have hfirst := hx.of_run hr hrun
    exact hfirst.trans ((hf a).grows u (hr.trans (hfirst.mono fun _ _ => trivial)))

theorem tryCatch {x : Change γ α} {handler : FileError → Change γ α} (hx : GrowsBy r kind x)
    (hhandler : ∀ error, GrowsBy r kind (handler error)) :
    GrowsBy r kind (MonadExcept.tryCatch x handler) := by
  refine ⟨fun t hr => ?_⟩
  rw [treeAfter, run_tryCatch]
  cases hrun : x.run t with
  | ok a u => exact hx.of_run hr hrun
  | error error u =>
    have hfirst := hx.of_run_error hr hrun
    exact hfirst.trans ((hhandler error).grows u (hr.trans (hfirst.mono fun _ _ => trivial)))

/-- What is put where a path comes to, if there is no directory yet, is put on its way. -/
theorem put_of_enter (hr : Grows (fun _ => True) r t) {name : String}
    (hparent : t.locateParent path = .ok (place, name)) (henter : t.enter place name = .ok reached)
    (hnew : t.holdsDirectory reached = false) (node : FileNode γ) :
    Grows (r.IsOnWay path) t (t.put reached node) := by
  refine .put hnew ?_ node
  rw [eq_resolve_of_enter hparent henter] at hnew ⊢
  exact isOnWay_resolve (hr.holdsDirectory_eq_false hnew)

/-! ## Directories -/

theorem makeDirectory (path : String) :
    GrowsBy r (r.IsOnWay path) (makeDirectory path : Change γ Unit) := by
  refine ⟨fun t hr => ?_⟩
  rw [treeAfter, run_makeDirectory]
  cases hparent : t.locateParent path with
  | error error => exact .refl t
  | ok parent =>
    obtain ⟨place, name⟩ := parent
    dsimp only
    cases henter : t.enter place name with
    | error fault => exact .refl t
    | ok next =>
      dsimp only
      by_cases hstands : (t.node? next).isSome = true
      · rw [if_pos hstands]
        exact .refl t
      · rw [if_neg hstands]
        refine put_of_enter hr hparent henter ?_ _
        rw [Bool.eq_false_iff]
        exact fun hdirectory => hstands (isSome_node?_of_holdsDirectory hdirectory)

theorem ensureDirectory (path : String) :
    GrowsBy r (r.IsOnWay path) (ensureDirectory path : Change γ Unit) := by
  refine .tryCatch (.makeDirectory path) fun error => .look fun t => ?_
  split
  · exact .pure ()
  · exact .throw error

theorem ensureDirectories (cs : List Char) :
    GrowsBy r (r.IsOnWay (String.ofList cs)) (ensureDirectories cs : Change γ Unit) := by
  induction hlength : cs.length using Nat.strong_induction_on generalizing cs with
  | _ n ih =>
    rw [FileTree.ensureDirectories]
    split
    · exact .ensureDirectory _
    · rename_i hname
      have habove := (ih _ (hlength ▸ Path.length_parent_lt hname) _ rfl).mono
        fun place hplace => hplace.of_parent
      refine .look fun t => ?_
      split
      · exact .ensureDirectory _
      · refine .bind (.tryCatch habove fun error => ?_) fun _ => ?_
        · split
          · exact .pure ()
          · exact .throw error
        · split
          · exact .pure ()
          · exact .ensureDirectory _

/-- Directories are made on the way of their path. -/
theorem makeDirectories (path : String) :
    GrowsBy r (r.IsOnWay path) (makeDirectories path : Change γ Unit) := by
  have hmade : GrowsBy r (r.IsOnWay (String.ofList path.toList))
      (FileTree.makeDirectories path : Change γ Unit) := .ensureDirectories path.toList
  rwa [String.ofList_toList] at hmade

/-! ## Files -/

theorem write (path : String) (content : γ) :
    GrowsBy r (r.IsOnWay path) (write path content) := by
  refine ⟨fun t hr => ?_⟩
  rw [treeAfter, run_write]
  cases hparent : t.locateParent path with
  | error error => exact .refl t
  | ok parent =>
    obtain ⟨place, name⟩ := parent
    dsimp only
    cases henter : t.enter place name with
    | error fault => exact .refl t
    | ok next =>
      dsimp only
      by_cases hdirectory : t.holdsDirectory next = true
      · rw [if_pos hdirectory]
        exact .refl t
      · rw [if_neg hdirectory]
        by_cases hslash : (path.toList.getLast? == some '/') = true
        · rw [if_pos hslash]
          exact .refl t
        · rw [if_neg hslash]
          exact put_of_enter hr hparent henter (Bool.eq_false_iff.2 hdirectory) _

/-- A file and the directories above it are made on the way of its path. -/
theorem writeBelow (path : String) (content : γ) :
    GrowsBy r (r.IsOnWay path) (writeBelow path content) := by
  rw [FileTree.writeBelow]
  split
  · exact .write path content
  · have habove : ∀ place,
        r.IsOnWay (String.ofList (Path.split path.toList).1) place → r.IsOnWay path place := by
      intro place hplace
      have hbelow := hplace.of_split
      rwa [String.ofList_toList] at hbelow
    exact .bind ((GrowsBy.makeDirectories _).mono habove) fun _ => .write path content

end GrowsBy

/-! ## Directories that are made -/

/-- A directory that is made is there; the path must not end with a slash. -/
theorem isDirectory_of_makeDirectory
    (hslash : Path.dropTrailingSlashes path.toList = path.toList)
    (h : (makeDirectory path).run t = .ok () u) : u.isDirectory path = true := by
  have hgrows := (GrowsBy.makeDirectory path).of_run (.refl t) h
  rw [run_makeDirectory] at h
  cases hparent : t.locateParent path with
  | error error => rw [hparent] at h; cases h
  | ok parent =>
    obtain ⟨place, name⟩ := parent
    rw [hparent] at h
    dsimp only at h
    cases henter : t.enter place name with
    | error fault => rw [henter] at h; cases h
    | ok next =>
      rw [henter] at h
      dsimp only at h
      split at h
      · cases h
      · rename_i hnothing
        cases h
        obtain ⟨hcheck, init, hnames, hfollow⟩ := locateParent_eq_ok hparent
        rw [hslash, String.ofList_toList] at hnames
        have hne : next ≠ [] := by
          rintro rfl
          exact hnothing rfl
        have hmade : (t.put next .directory).isDirectoryAt next = true := by
          rw [isDirectoryAt, node?_put_self t hne]
        have hstep : (t.put next .directory).step place name = .ok next := by
          obtain ⟨hplace, hsize, hnext⟩ := enter_eq_ok_iff.1 henter
          rw [step, enter_eq_ok_iff.2 ⟨hgrows.directory place hplace, hgrows.strays ▸ hsize, hnext⟩]
          dsimp only
          rw [if_pos (isSome_node?_of_isDirectoryAt hmade)]
        refine isDirectory_iff.2 ⟨next, locate_eq_ok_iff.2
          ⟨(hgrows.checkPath path).trans hcheck, ?_⟩, holdsDirectory_of_isDirectoryAt hmade⟩
        rw [hnames, follow_append, hgrows.follow hfollow]
        change FileTree.follow _ [name] place = _
        rw [follow_cons, hstep]
        rfl

theorem isDirectory_of_ensureDirectory
    (hslash : Path.dropTrailingSlashes path.toList = path.toList)
    (h : (ensureDirectory path).run t = .ok () u) : u.isDirectory path = true := by
  rw [ensureDirectory, run_tryCatch] at h
  cases hmake : (makeDirectory path).run t with
  | ok _ made =>
    rw [hmake] at h
    cases h
    exact isDirectory_of_makeDirectory hslash hmake
  | error error left =>
    rw [hmake] at h
    obtain ⟨found, same, hget, h⟩ := run_bind_eq_ok.1 h
    cases hget
    split at h
    · cases h
      assumption
    · cases h

/-- A directory that is made after those above it is there, if it has a name. -/
theorem isDirectory_of_makeDirectories {init : List String} {last : String}
    (hpath : Path.components path = init ++ [last]) (hlast : isPlain last = true)
    (h : (makeDirectories path).run t = .ok () u) : u.isDirectory path = true := by
  rw [isPlain, Bool.and_eq_true, bne_iff_ne, bne_iff_ne] at hlast
  obtain ⟨hname, hslash⟩ := Path.parentAndName_of_components hpath hlast.1
  have hdot : (Path.parentAndName path.toList).2 ≠ ['.'] := by
    rw [hname]
    exact fun hdot => hlast.2 (String.toList_inj.1 hdot)
  -- Whatever is made before, the directory itself is made last.
  have hend : ∃ t, (ensureDirectory path).run t = .ok () u := by
    rw [makeDirectories, ensureDirectories] at h
    rw [String.ofList_toList] at h
    split at h
    · exact ⟨t, h⟩
    · obtain ⟨found, same, hget, h⟩ := run_bind_eq_ok.1 h
      cases hget
      split at h
      · exact ⟨t, h⟩
      · obtain ⟨_, mid, -, h⟩ := run_bind_eq_ok.1 h
        rw [if_neg (by simpa using hdot)] at h
        exact ⟨mid, h⟩
  obtain ⟨mid, hmid⟩ := hend
  exact isDirectory_of_ensureDirectory hslash hmid

end FileTree
end FeatureCensus
