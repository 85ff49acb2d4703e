import FeatureCensus.Proofs.Corpus.Commands
import FeatureCensus.Proofs.Files.Growth

/-!
# Remains of runs

A run of version control leaves files behind on the way to its target and in it, if the paths of
these lead on and never up, and that of the target can be followed as far as it leads up.  One that
fails by itself leaves nothing behind, and one that exits with zero leaves its target behind.  What
comes of a run depends on the files and the coming outcomes alone.

Main results:

- Theorem {lit}`Git.grows_verdict_of_isTidy`: where the files grow by a run.
- Theorem {lit}`Git.isTidy_verdict`: files stay those of a file system.
- Theorem {lit}`Git.isDirectory_judge`: a run that exits with zero leaves its target behind.
- Theorem {lit}`Git.verdict_congr`: what comes of a run depends on little.
-/

namespace FeatureCensus

open FeatureCensus.FileTree (Grows GrowsBy KeepsSound)
open FeatureCensus.Path (IsStraight isPlain)

/-! ## Tidy worlds -/

/-- Whether an outcome leaves files behind below the target of its run only. -/
def GitOutcome.IsConfined (outcome : GitOutcome) : Prop :=
  ∀ file ∈ outcome.files, Path.isAbsolute file.1 = false ∧ IsStraight file.1

instance (outcome : GitOutcome) : Decidable outcome.IsConfined :=
  inferInstanceAs (Decidable (∀ file ∈ outcome.files, _ ∧ _))

/-- Whether an outcome is that of a run that leaves nothing behind: it does not start, or it is not
successful and writes nothing. -/
def GitOutcome.IsFruitless (outcome : GitOutcome) : Prop :=
  outcome.refused?.isSome = true ∨ outcome.succeeds = false ∧ outcome.files = []

instance (outcome : GitOutcome) : Decidable outcome.IsFruitless :=
  inferInstanceAs (Decidable (_ ∨ _ ∧ _))

/-- Whether the files are those of a file system and all coming runs of version control leave
files behind below their targets only. -/
structure World.IsTidy (w : World) : Prop where
  sound : w.files.IsSound
  confined : ∀ entry ∈ w.script, ∀ outcome ∈ entry.2, outcome.IsConfined

/-- A world with other files. -/
def World.holding (w : World) (files : FileTree Content) : World :=
  { w with files }

/-- The files, the outcomes of coming runs, and whether these take any arguments. -/
def World.basis (w : World) : Basis :=
  ⟨w.files, w.script, w.anyArguments⟩

theorem World.IsTidy.of_basis {w v : World} (h : w.IsTidy) (hbasis : v.basis = w.basis) :
    v.IsTidy := by
  obtain ⟨hfiles, hscript, -⟩ := Basis.mk.inj hbasis
  exact ⟨hfiles ▸ h.sound, hscript ▸ h.confined⟩

theorem World.IsTidy.holding_of_made {w : World} (h : w.IsTidy) {path : String}
    {files : FileTree Content}
    (hmade : (FileTree.makeDirectories path).run w.files = .ok () files) :
    (w.holding files).IsTidy := by
  have hkept := KeepsSound.makeDirectories path w.files h.sound
  rw [hmade] at hkept
  exact ⟨hkept, h.confined⟩

/-- What is drawn of outcomes that leave files behind below their targets is such an outcome. -/
theorem World.IsTidy.drawOutcome {w : World} (h : w.IsTidy) (command : String) :
    (w.drawOutcome command).1.IsConfined ∧ (w.drawOutcome command).2.IsTidy := by
  have hnone : (({} : GitOutcome)).IsConfined := fun file hfile => nomatch hfile
  unfold World.drawOutcome
  cases hlookup : w.script.lookup command with
  | none => exact ⟨hnone, h⟩
  | some outcomes =>
    have hall := h.confined _ (Association.mem_of_lookup hlookup)
    have htaken : (takeOutcome outcomes).1.IsConfined ∧
        ∀ outcome ∈ (takeOutcome outcomes).2, outcome.IsConfined := by
      match outcomes, hall with
      | [], _ => exact ⟨hnone, fun outcome hmem => nomatch hmem⟩
      | [last], hall => exact ⟨hall last List.mem_cons_self, hall⟩
      | next :: second :: rest, hall =>
        exact ⟨hall next List.mem_cons_self,
          fun outcome hmem => hall outcome (List.mem_cons_of_mem _ hmem)⟩
    refine ⟨htaken.1, h.sound, fun entry hentry => ?_⟩
    rcases Association.mem_of_mem_put hentry with rfl | hold
    · exact htaken.2
    · exact h.confined entry hold

/-! ## What runs leave behind -/

namespace Git

variable {command : Command} {directory target : String} {outcome : GitOutcome} {w v : World}

theorem growsBy_writeFiles {r : FileTree Content} {kind : Location → Prop}
    {files : List (String × Text.Bytes)}
    (h : ∀ file ∈ files, ∀ place, r.IsOnWay (Path.join target file.1) place → kind place) :
    GrowsBy r kind (writeFiles target files) := by
  induction files with
  | nil => exact .pure ()
  | cons file rest ih =>
    obtain ⟨path, bytes⟩ := file
    have hfirst := (GrowsBy.writeBelow (Path.join target path) (Content.bytes bytes)).mono
      (h (path, bytes) List.mem_cons_self)
    have hrest := ih fun other hother => h other (List.mem_cons_of_mem _ hother)
    rw [writeFiles]
    exact .bind hfirst fun _ => hrest

/-- Files are left behind on the ways to a target and to them. -/
theorem growsBy_leaveBehind {r : FileTree Content} {kind : Location → Prop}
    (h : ∀ place, (r.IsOnWay target place ∨
      ∃ file ∈ outcome.files, r.IsOnWay (Path.join target file.1) place) → kind place) :
    GrowsBy r kind (leaveBehind target outcome) := by
  have hmade : GrowsBy r kind (FileTree.makeDirectories target : FileTree.Change Content Unit) :=
    (GrowsBy.makeDirectories target).mono fun place hplace => h place (.inl hplace)
  have hwritten : GrowsBy r kind (writeFiles target outcome.files) :=
    growsBy_writeFiles fun file hfile place hplace => h place (.inr ⟨file, hfile, hplace⟩)
  unfold leaveBehind
  split
  · exact .bind hmade fun _ => hwritten
  · exact hwritten

/-- What a successful run leaves behind includes its target. -/
theorem isDirectory_of_leaveBehind {init : List String} {last : String} {t u : FileTree Content}
    (htarget : Path.components target = init ++ [last]) (hlast : isPlain last = true)
    (hsucceeds : outcome.succeeds = true)
    (h : (leaveBehind target outcome).run t = .ok () u) : u.isDirectory target = true := by
  rw [leaveBehind, if_pos hsucceeds] at h
  obtain ⟨_, made, hmake, hwrite⟩ := FileTree.run_bind_eq_ok.1 h
  have hgrows : Grows (fun _ => True) made u :=
    (growsBy_writeFiles fun _ _ _ _ => trivial).of_run (.refl made) hwrite
  exact hgrows.isDirectory (FileTree.isDirectory_of_makeDirectories htarget hlast hmake)

/-- What a confined outcome leaves behind is on the way to the target or in it. -/
theorem isOnWay_of_isConfined {r : FileTree Content} (hr : r.IsSound) (htarget : r.Clears target)
    (h : outcome.IsConfined) {place : Location}
    (hplace : r.IsOnWay target place ∨
      ∃ file ∈ outcome.files, r.IsOnWay (Path.join target file.1) place) :
    place <+: Path.resolve target ∨ Path.resolve target <+: place := by
  rcases hplace with hplace | ⟨file, hfile, hplace⟩
  · exact .inl (hplace hr htarget).2
  · obtain ⟨hrelative, hstraight⟩ := h file hfile
    obtain ⟨-, hbegins⟩ := hplace hr (htarget.join hrelative hstraight)
    rw [Path.resolve_join _ hrelative hstraight] at hbegins
    exact List.prefix_or_prefix_of_prefix hbegins (List.prefix_append _ _)

/-- The files after a run are those before it if it does not start, and otherwise those that what it
leaves behind leads to, be it refused or not. -/
theorem files_judge {motive : FileTree Content → Prop}
    (hrefused : outcome.refused?.isSome = true → motive w.files)
    (hdone : ∀ files, (leaveBehind target outcome).run w.files = .ok () files → motive files)
    (hfailed : ∀ error files, (leaveBehind target outcome).run w.files = .error error files →
      motive files) : motive (judge target outcome w).2.files := by
  unfold judge
  cases hreason : outcome.refused? with
  | some reason => exact hrefused (by rw [hreason]; rfl)
  | none =>
    dsimp only
    cases hrun : (leaveBehind target outcome).run w.files with
    | ok _ files => exact hdone files hrun
    | error error files =>
      have hfiles := hfailed error files hrun
      cases error <;> exact hfiles

/-- The files grow by what a run leaves behind. -/
theorem grows_judge {kind : Location → Prop}
    (hkind : ∀ place, (w.files.IsOnWay target place ∨
      ∃ file ∈ outcome.files, w.files.IsOnWay (Path.join target file.1) place) → kind place) :
    Grows kind w.files (judge target outcome w).2.files := by
  have hleft := growsBy_leaveBehind hkind
  exact files_judge (fun _ => .refl _) (fun _ hrun => hleft.of_run (.refl _) hrun)
    fun _ _ hrun => hleft.of_run_error (.refl _) hrun

theorem isSound_judge (h : w.files.IsSound) : (judge target outcome w).2.files.IsSound := by
  have hkept := keepsSound_leaveBehind target outcome w.files h
  refine files_judge (fun _ => h) (fun files hrun => ?_) fun error files hrun => ?_
  · rwa [hrun] at hkept
  · rwa [hrun] at hkept

theorem script_judge (target : String) (outcome : GitOutcome) (w : World) :
    (judge target outcome w).2.script = w.script := by
  unfold judge
  repeat' split
  all_goals rfl

/-- A run that leaves nothing behind keeps the files as they are. -/
theorem files_judge_of_isFruitless (h : outcome.IsFruitless) :
    (judge target outcome w).2.files = w.files := by
  rcases h with hrefused | ⟨hfails, hnothing⟩
  · unfold judge
    cases hreason : outcome.refused? with
    | some reason => rfl
    | none =>
      rw [hreason] at hrefused
      cases hrefused
  · have hleft : (leaveBehind target outcome).run w.files = .ok () w.files := by
      rw [leaveBehind, hfails, hnothing]
      rfl
    refine files_judge (motive := (· = w.files)) (fun _ => rfl) (fun files hrun => ?_)
      fun error files hrun => ?_
    · rw [hleft] at hrun
      cases hrun
      rfl
    · rw [hleft] at hrun
      cases hrun

/-- A run that exits with zero leaves its target behind. -/
theorem isDirectory_judge {init : List String} {last : String}
    (htarget : Path.components target = init ++ [last]) (hlast : isPlain last = true)
    (h : (judge target outcome w).1 = .ok 0) :
    (judge target outcome w).2.files.isDirectory target = true := by
  unfold judge at h ⊢
  cases hreason : outcome.refused? with
  | some reason =>
    rw [hreason] at h
    cases h
  | none =>
    rw [hreason] at h
    dsimp only at h ⊢
    cases hrun : (leaveBehind target outcome).run w.files with
    | ok _ files =>
      rw [hrun] at h
      refine isDirectory_of_leaveBehind htarget hlast ?_ hrun
      simpa [GitOutcome.succeeds] using exit_eq_ok.1 h
    | error error files =>
      rw [hrun] at h
      cases error with
      | embeddedNull => cases h
      | refused fault path => cases (exit_eq_ok.1 h).2

/-! ## Verdicts -/

theorem files_draw (command : Command) (directory : String) (w : World) :
    (draw command directory w).2.files = w.files := by
  unfold draw World.drawOutcome
  split <;> rfl

theorem anyArguments_draw (command : Command) (directory : String) (w : World) :
    (draw command directory w).2.anyArguments = w.anyArguments := by
  unfold draw World.drawOutcome
  split <;> rfl

theorem isTidy_draw (h : w.IsTidy) (command : Command) (directory : String) :
    (draw command directory w).1.IsConfined ∧ (draw command directory w).2.IsTidy :=
  (h.of_basis (v := w.record (.git command.arguments directory)) rfl).drawOutcome _

/-- What is drawn depends on the coming outcomes alone. -/
theorem draw_congr (command : Command) (directory : String) (h : w.script = v.script) :
    (draw command directory w).1 = (draw command directory v).1 ∧
      (draw command directory w).2.script = (draw command directory v).2.script := by
  have hrecorded : (w.record (.git command.arguments directory)).script =
      (v.record (.git command.arguments directory)).script := h
  unfold draw World.drawOutcome
  rw [hrecorded]
  split
  · exact ⟨rfl, h⟩
  · exact ⟨rfl, rfl⟩

theorem judge_congr (target : String) (outcome : GitOutcome) (h : w.basis = v.basis) :
    (judge target outcome w).1 = (judge target outcome v).1 ∧
      (judge target outcome w).2.basis = (judge target outcome v).2.basis := by
  obtain ⟨hfiles, hscript, harguments⟩ := Basis.mk.inj h
  unfold judge
  rw [hfiles]
  repeat' split
  all_goals first | exact ⟨rfl, h⟩ | exact ⟨rfl, by simp only [World.basis, hscript, harguments]⟩

/-- What comes of a run depends on the files, the coming outcomes and what arguments are taken. -/
theorem verdict_congr (command : Command) (directory : String) (h : w.basis = v.basis) :
    (verdict command directory w).1 = (verdict command directory v).1 ∧
      (verdict command directory w).2.basis = (verdict command directory v).2.basis := by
  obtain ⟨hfiles, hscript, harguments⟩ := Basis.mk.inj h
  have hunfit : command.unfit? directory w = command.unfit? directory v := by
    rw [Command.unfit?, Command.unfit?, harguments]
  unfold verdict
  rw [hunfit]
  split
  · exact ⟨rfl, h⟩
  · obtain ⟨houtcome, hleft⟩ := draw_congr command directory hscript
    rw [houtcome]
    refine judge_congr _ _ ?_
    simp only [World.basis, hleft, files_draw, anyArguments_draw, hfiles, harguments]

/-- The files after a run are those before it if it cannot be started, and otherwise those of its
judgement. -/
theorem verdict_cases {motive : World → Prop}
    (hunfit : (command.unfit? directory w).isSome = true →
      motive (w.record (.git command.arguments directory)))
    (hjudged : motive (judge (command.target directory) (draw command directory w).1
      (draw command directory w).2).2) : motive (verdict command directory w).2 := by
  unfold verdict
  cases hfit : command.unfit? directory w with
  | some failure => exact hunfit (by rw [hfit]; rfl)
  | none => exact hjudged

/-- A run of a command that exits with zero leaves its target behind. -/
theorem isDirectory_verdict {init : List String} {last : String}
    (htarget : Path.components (command.target directory) = init ++ [last])
    (hlast : isPlain last = true) (h : (verdict command directory w).1 = .ok 0) :
    (verdict command directory w).2.files.isDirectory (command.target directory) = true := by
  unfold verdict at h ⊢
  cases hfit : command.unfit? directory w with
  | some failure =>
    rw [hfit] at h
    cases h
  | none =>
    rw [hfit] at h
    exact isDirectory_judge htarget hlast h

/-- What comes of a run in a tidy world is tidy. -/
theorem isTidy_verdict (command : Command) (directory : String) (h : w.IsTidy) :
    (verdict command directory w).2.IsTidy := by
  have hdrawn := (isTidy_draw h command directory).2
  refine verdict_cases (fun _ => h.of_basis rfl) ⟨isSound_judge hdrawn.sound, ?_⟩
  rw [script_judge]
  exact hdrawn.confined

/-- The files grow by what a run leaves behind. -/
theorem grows_verdict (command : Command) (directory : String) (w : World) :
    Grows (fun _ => True) w.files (verdict command directory w).2.files := by
  refine verdict_cases (motive := fun u => Grows _ w.files u.files) (fun _ => .refl _) ?_
  rw [← files_draw command directory w]
  exact grows_judge fun _ _ => trivial

/-- In a tidy world they do so on the way to the target and in it. -/
theorem grows_verdict_of_isTidy (command : Command) (directory : String)
    (htarget : w.files.Clears (command.target directory)) (h : w.IsTidy) :
    Grows (fun place => place <+: Path.resolve (command.target directory) ∨
      Path.resolve (command.target directory) <+: place)
      w.files (verdict command directory w).2.files := by
  refine verdict_cases (motive := fun u => Grows _ w.files u.files) (fun _ => .refl _) ?_
  obtain ⟨hconfined, hdrawn⟩ := isTidy_draw h command directory
  rw [← files_draw command directory w] at htarget ⊢
  exact grows_judge fun place => isOnWay_of_isConfined hdrawn.sound htarget hconfined

/-- A run that cannot be started, or leaves nothing behind, keeps the files as they are. -/
theorem files_verdict_of_isFruitless
    (h : (command.unfit? directory w).isSome = true ∨ (draw command directory w).1.IsFruitless) :
    (verdict command directory w).2.files = w.files := by
  unfold verdict
  cases hfit : command.unfit? directory w with
  | some failure => rfl
  | none =>
    rcases h with hunfit | hfruitless
    · rw [hfit] at hunfit
      cases hunfit
    · exact (files_judge_of_isFruitless hfruitless).trans (files_draw command directory w)

end Git

end FeatureCensus
