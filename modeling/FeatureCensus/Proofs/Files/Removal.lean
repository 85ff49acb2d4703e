import FeatureCensus.Proofs.Files.Searching

/-!
# Files that are taken away

Whoever takes away a file changes nothing else.  A path finds in the tree without the file what it
found before, unless that was the file: a file is only ever the end of a path, since no name leads
on from it.  So a search finds the same paths to other files, whatever its pattern is.

Main results:

- Theorem {lit}`FileTree.IsSound.remove`: the tree without a file is sound.
- Theorem {lit}`FileTree.locate_remove_eq_ok_iff`: what a path finds in the tree without a file.
- Theorem {lit}`Glob.expand_remove`: steps that are followed in both trees come to the same.
- Theorem {lit}`Glob.search_remove`: a search finds the same other files.
-/

namespace FeatureCensus

open FeatureCensus.Path (IsName ofNames isAbsolute)

namespace FileTree

variable {γ : Type} {t : FileTree γ} {gone place reached : Location} {names : List String}
  {name path rest : String}

/-! ## The tree without a file -/

theorem ne_nil_of_holdsDirectory (h : t.holdsDirectory gone = false) : gone ≠ [] := by
  rintro rfl
  cases h

theorem isDirectoryAt_eq_false_of_holdsDirectory (h : t.holdsDirectory gone = false) :
    t.isDirectoryAt gone = false :=
  Bool.eq_false_iff.2 fun hdirectory =>
    Bool.false_ne_true (h.symm.trans (holdsDirectory_of_isDirectoryAt hdirectory))

theorem node?_remove_of_ne (t : FileTree γ) (h : place ≠ gone) :
    (t.remove gone).node? place = t.node? place := by
  by_cases hne : place = []
  · rw [hne]
    rfl
  · rw [node?_eq_lookup hne, node?_eq_lookup hne, remove]
    induction t.nodes with
    | nil => rfl
    | cons entry later ih =>
      obtain ⟨other, node⟩ := entry
      by_cases hother : other = gone
      · have hskip : (place == other) = false := by simpa [hother] using h
        rw [List.filter_cons_of_neg (by simpa using hother), ih, List.lookup_cons, hskip]
      · rw [List.filter_cons_of_pos (by simpa using hother), List.lookup_cons, List.lookup_cons, ih]

/-- There are the same directories as before. -/
theorem holdsDirectory_remove (h : t.holdsDirectory gone = false) (place : Location) :
    (t.remove gone).holdsDirectory place = t.holdsDirectory place := by
  by_cases hplace : place = gone
  · rw [hplace, h, holdsDirectory, node?_remove_self t (ne_nil_of_holdsDirectory h)]
  · rw [holdsDirectory, holdsDirectory, node?_remove_of_ne t hplace]

theorem isDirectoryAt_remove (h : t.holdsDirectory gone = false) (place : Location) :
    (t.remove gone).isDirectoryAt place = t.isDirectoryAt place := by
  by_cases hplace : place = gone
  · rw [hplace, isDirectoryAt_eq_false_of_holdsDirectory h, isDirectoryAt,
      node?_remove_self t (ne_nil_of_holdsDirectory h)]
  · rw [isDirectoryAt, isDirectoryAt, node?_remove_of_ne t hplace]

theorem listsAt_eq_false_of_holdsDirectory (h : t.holdsDirectory gone = false) :
    t.listsAt gone = false := by
  rw [Bool.eq_false_iff]
  intro hlists
  have hdirectory := Glob.isDirectoryAt_of_listsAt hlists
  rw [isDirectoryAt_eq_false_of_holdsDirectory h] at hdirectory
  cases hdirectory

theorem listsAt_remove (h : t.holdsDirectory gone = false) (place : Location) :
    (t.remove gone).listsAt place = t.listsAt place := by
  by_cases hplace : place = gone
  · rw [hplace, listsAt_eq_false_of_holdsDirectory h, listsAt,
      node?_remove_self t (ne_nil_of_holdsDirectory h)]
  · rw [listsAt, listsAt, node?_remove_of_ne t hplace]

theorem isSome_node?_remove_iff (h : t.holdsDirectory gone = false) (place : Location) :
    ((t.remove gone).node? place).isSome = true ↔
      (t.node? place).isSome = true ∧ place ≠ gone := by
  by_cases hplace : place = gone
  · simp [hplace, node?_remove_self t (ne_nil_of_holdsDirectory h)]
  · simp [hplace, node?_remove_of_ne t hplace]

/-- The tree without a file is sound. -/
theorem IsSound.remove (hsound : t.IsSound) (h : t.holdsDirectory gone = false) :
    (t.remove gone).IsSound where
  distinct := hsound.distinct.sublist (List.filter_sublist.map _)
  named entry hentry := hsound.named entry (List.mem_filter.1 hentry).1
  housed entry hentry := by
    rw [isDirectoryAt_remove h]
    exact hsound.housed entry (List.mem_filter.1 hentry).1

/-! ## Following paths -/

theorem step_remove_eq_ok_iff (h : t.holdsDirectory gone = false) {next : Location} :
    (t.remove gone).step place name = .ok next ↔ t.step place name = .ok next ∧ next ≠ gone := by
  have henter : (t.remove gone).enter place name = t.enter place name := by
    rw [enter, enter, isDirectoryAt_remove h, holdsDirectory_remove h]
    rfl
  rw [step, step, henter]
  cases t.enter place name with
  | error fault => simp
  | ok entered =>
    have hstands := isSome_node?_remove_iff h entered
    by_cases hthere : ((t.remove gone).node? entered).isSome = true
    · obtain ⟨hbefore, hne⟩ := hstands.1 hthere
      simp only [hthere, hbefore, if_true, Except.ok.injEq]
      exact ⟨fun heq => ⟨heq, heq ▸ hne⟩, And.left⟩
    · constructor
      · intro hfound
        simp only [hthere, if_false, Bool.false_eq_true] at hfound
        cases hfound
      · rintro ⟨hbefore, hne⟩
        dsimp only at hbefore
        split at hbefore
        · rename_i hsome
          exact absurd (hstands.2 ⟨hsome, Except.ok.inj hbefore ▸ hne⟩) hthere
        · cases hbefore

/-- Names lead where they have led, unless that was the file: from a file no name leads on. -/
theorem follow_remove_eq_ok_iff (h : t.holdsDirectory gone = false) (hne : names ≠ []) :
    (t.remove gone).follow names place = .ok reached ↔
      t.follow names place = .ok reached ∧ reached ≠ gone := by
  induction names generalizing place with
  | nil => exact absurd rfl hne
  | cons name later ih =>
    by_cases hlater : later = []
    · rw [hlater, follow_singleton, follow_singleton]
      exact step_remove_eq_ok_iff h
    · rw [follow_cons, follow_cons]
      constructor
      · intro hfollow
        cases hstep : (t.remove gone).step place name with
        | error fault => rw [hstep] at hfollow; cases hfollow
        | ok next =>
          rw [hstep] at hfollow
          rw [((step_remove_eq_ok_iff h).1 hstep).1]
          exact (ih hlater).1 hfollow
      · rintro ⟨hfollow, hreached⟩
        cases hstep : t.step place name with
        | error fault => rw [hstep] at hfollow; cases hfollow
        | ok next =>
          rw [hstep] at hfollow
          have hnext : next ≠ gone := by
            rintro rfl
            have hdirectory := isDirectoryAt_of_follow hlater hfollow
            rw [isDirectoryAt_eq_false_of_holdsDirectory h] at hdirectory
            cases hdirectory
          rw [(step_remove_eq_ok_iff h).2 ⟨hstep, hnext⟩]
          exact (ih hlater).2 ⟨hfollow, hreached⟩

/-- A path finds in the tree without a file what it found before, unless that was the file. -/
theorem locate_remove_eq_ok_iff (h : t.holdsDirectory gone = false) :
    (t.remove gone).locate path = .ok place ↔ t.locate path = .ok place ∧ place ≠ gone := by
  rw [locate_eq_ok_iff, locate_eq_ok_iff, follow_remove_eq_ok_iff h (Path.components_ne_nil path),
    ← and_assoc]
  rfl

/-- Only the file is not found any more. -/
theorem eq_of_locate_remove {error : FileError} (h : t.holdsDirectory gone = false)
    (hbefore : t.locate path = .ok place) (hremoved : (t.remove gone).locate path = .error error) :
    place = gone := by
  by_contra hne
  rw [(locate_remove_eq_ok_iff h).2 ⟨hbefore, hne⟩] at hremoved
  cases hremoved

theorem isDirectory_remove (h : t.holdsDirectory gone = false) (path : String) :
    (t.remove gone).isDirectory path = t.isDirectory path := by
  rw [Bool.eq_iff_iff, isDirectory, isDirectory]
  cases hlocate : (t.remove gone).locate path with
  | ok place =>
    rw [((locate_remove_eq_ok_iff h).1 hlocate).1]
    simp only [holdsDirectory_remove h]
  | error error =>
    cases hbefore : t.locate path with
    | error fault => simp
    | ok place => simp [eq_of_locate_remove h hbefore hlocate, h]

theorem isFile_remove_iff (h : t.holdsDirectory gone = false) :
    (t.remove gone).isFile path = true ↔ t.isFile path = true ∧ t.locate path ≠ .ok gone := by
  rw [isFile, isFile]
  cases hlocate : (t.remove gone).locate path with
  | ok place =>
    obtain ⟨hbefore, hne⟩ := (locate_remove_eq_ok_iff h).1 hlocate
    simp only [hbefore, holdsDirectory_remove h, Except.ok.injEq, ne_eq, hne, not_false_eq_true,
      and_true]
  | error error =>
    cases hbefore : t.locate path with
    | error fault => simp
    | ok place => simp [eq_of_locate_remove h hbefore hlocate]

/-! ## Leading on -/

/-- Only paths that find something lead on. -/
theorem exists_of_join (hpath : path ≠ "") (hrest : isAbsolute rest = false)
    (h : t.exists? (Path.join path rest) = true) : t.exists? path = true := by
  obtain ⟨reached, hreached⟩ := (t.exists_eq_true_iff _).1 h
  obtain ⟨hcheck, hfollow⟩ := locate_eq_ok_iff.1 hreached
  obtain ⟨hnull, -, hsize⟩ := checkPath_eq_ok_iff.1 hcheck
  obtain ⟨trunk, htrunk, hcomponents⟩ := Path.exists_trunk path
  have hjoin := Path.join_eq hpath (Path.head?_ne_of_isAbsolute hrest)
  rw [Path.origin_join path hrest, hjoin, hcomponents, follow_append] at hfollow
  rw [hjoin] at hnull hsize
  have hplain : '\x00' ∉ path.toList ∧
      t.strays.byteSize path ≤ t.strays.byteSize (Path.slashed path ++ rest) := by
    rw [String.toList_append, List.mem_append, not_or] at hnull
    rw [Text.Strays.byteSize_append]
    by_cases hlast : path.toList.getLast? = some '/'
    · rw [Path.slashed_of_getLast? hlast] at hnull ⊢
      exact ⟨hnull.1, Nat.le_add_right _ _⟩
    · rw [Path.slashed_of_ne hlast, String.toList_append, List.mem_append, not_or] at hnull
      rw [Path.slashed_of_ne hlast, Text.Strays.byteSize_append]
      exact ⟨hnull.1.1, by omega⟩
  cases hmiddle : t.follow trunk (Path.origin path) with
  | error fault => rw [hmiddle] at hfollow; cases hfollow
  | ok middle =>
    rw [hmiddle] at hfollow
    have hdirectory := isDirectoryAt_of_follow (Path.components_ne_nil rest) hfollow
    refine (t.exists_eq_true_iff path).2 ⟨middle, locate_eq_ok_iff.2
      ⟨checkPath_eq_ok_iff.2 ⟨hplain.1, hpath, Nat.le_trans hplain.2 hsize⟩, ?_⟩⟩
    rcases htrunk with htrunk | htrunk
    · rw [htrunk, hmiddle]
    · rw [htrunk, follow_append, hmiddle]
      exact follow_empty hdirectory

end FileTree

/-! ## Steps of a search -/

namespace Glob

open FileTree NamePattern

variable {γ : Type} {t : FileTree γ} {gone : Location} {path text : String}

/-- Whether a path is empty, as where a search starts, or finds something.  From other paths a
search leads nowhere. -/
def isPresent (t : FileTree γ) (path : String) : Bool :=
  path.isEmpty || t.exists? path

theorem isPresent_iff : isPresent t path = true ↔ path = "" ∨ t.exists? path = true := by
  rw [isPresent, Bool.or_eq_true, String.isEmpty_iff]

theorem isPresent_of_join {rest : String} (hrest : isAbsolute rest = false)
    (h : isPresent t (Path.join path rest) = true) : isPresent t path = true := by
  rw [isPresent_iff] at h ⊢
  by_cases hpath : path = ""
  · exact .inl hpath
  · refine .inr (exists_of_join hpath hrest (h.resolve_left fun hempty => ?_))
    rw [Path.join_eq hpath (Path.head?_ne_of_isAbsolute hrest),
      String.append_eq_empty_iff] at hempty
    exact Path.slashed_ne_empty path hempty.1

/-- What a path finds in the tree without a file is not that file. -/
theorem resolve_ne_of_isPresent (h : t.holdsDirectory gone = false) (hpath : path ≠ "")
    (hpresent : isPresent (t.remove gone) path = true) : Path.resolve path ≠ gone := by
  obtain ⟨place, hplace⟩ :=
    ((t.remove gone).exists_eq_true_iff path).1 ((isPresent_iff.1 hpresent).resolve_left hpath)
  rw [resolve_of_locate hplace]
  exact ((locate_remove_eq_ok_iff h).1 hplace).2

/-- Whether a step does not lead away from the directory where it is made. -/
def Step.StaysBelow : Step → Prop
  | entry name => isAbsolute name = false
  | _ => True

theorem isAbsolute_of_isName {name : String} (h : IsName name) : isAbsolute name = false := by
  rw [isAbsolute, beq_eq_false_iff_ne]
  exact Path.head?_of_isName h

theorem isName_of_mem_wildNames (h : t.IsSound) {directoriesOnly : Bool} {pattern name : String}
    (hname : name ∈ wildNames t directoriesOnly pattern path) : IsName name := by
  rw [wildNames] at hname
  split at hname
  · cases hname
  · obtain ⟨-, hstands, -⟩ := (mem_entriesAt_iff h).1 (List.mem_filter.1 hname).1
    exact h.isName_below hstands name (List.mem_singleton_self name)

theorem exists_of_mem_descendants (h : t.IsSound) {directoriesOnly : Bool} {name : String}
    (hname : name ∈ descendants t directoriesOnly path) :
    ∃ names, name = ofNames names ∧ ∀ other ∈ names, IsName other := by
  rw [descendants] at hname
  split at hname
  · cases hname
  · obtain ⟨names, hnames, rfl⟩ := List.mem_map.1 hname
    obtain ⟨-, -, -, -, hstands, -⟩ := (mem_namesBelow_iff h).1 hnames
    exact ⟨names, rfl, h.isName_below hstands⟩

/-- What a step finds is found below the directory. -/
theorem isAbsolute_of_mem_find (h : t.IsSound) {step : Step} (hstep : step.StaysBelow)
    {directoriesOnly : Bool} {name : String} (hname : name ∈ step.find t directoriesOnly path) :
    isAbsolute name = false := by
  cases step with
  | entry other =>
    simp only [Step.find, List.mem_ite_nil_right, List.mem_singleton] at hname
    rw [hname.2]
    exact hstep
  | wild pattern => exact isAbsolute_of_isName (isName_of_mem_wildNames h hname)
  | deep =>
    rcases List.mem_cons.1 hname with rfl | hbelow
    · rfl
    · obtain ⟨names, rfl, hnames⟩ := exists_of_mem_descendants h hbelow
      rw [isAbsolute, beq_eq_false_iff_ne]
      exact Path.head?_ofNames hnames
  | self =>
    simp only [Step.find, List.mem_ite_nil_right, List.mem_singleton] at hname
    rw [hname.2]
    rfl

/-! ## Searching without a file -/

/-- Before a test, a selection is of no account that only drops what the test drops anyway. -/
theorem filter_map_filter {α β : Type} {f : α → β} {kept : α → Bool} {test : β → Bool}
    {l : List α} (h : ∀ a ∈ l, test (f a) = true → kept a = true) :
    ((l.filter kept).map f).filter test = (l.map f).filter test := by
  rw [List.filter_map, List.filter_map, List.filter_filter]
  refine congrArg (List.map f) (List.filter_congr fun a ha => ?_)
  rw [Function.comp_apply, Bool.and_eq_left_iff_imp]
  exact h a ha

/-- A directory lists the same entries, but for the file. -/
theorem entriesAt_remove (h : t.holdsDirectory gone = false) (directoriesOnly : Bool)
    (place : Location) :
    entriesAt (t.remove gone) directoriesOnly place =
      (entriesAt t directoriesOnly place).filter fun name => place ++ [name] != gone := by
  have hnames : (t.remove gone).namesAt place =
      (t.namesAt place).filter fun name => place ++ [name] != gone := by
    rw [namesAt, namesAt, remove, List.filterMap_filter, List.filter_filterMap]
    refine List.filterMap_congr fun entry _ => ?_
    by_cases hbelow : entry.1.dropLast = place
    · cases hlast : entry.1.getLast? with
      | none => simp
      | some name =>
        have hentry : entry.1 = place ++ [name] := by
          rw [← hbelow]
          exact (List.dropLast_append_getLast? name hlast).symm
        rw [hentry]
        simp only [List.dropLast_concat, beq_self_eq_true, if_true,
          Option.filter_some]
    · simp [hbelow]
  rw [entriesAt, entriesAt, listedAt, listedAt, listsAt_remove h, hnames]
  simp only [holdsDirectory_remove h]
  split
  · exact List.filter_comm _ _ _
  · rfl

/-- Below a place are the same names, but for those that lead to the file. -/
theorem namesBelow_remove (h : t.holdsDirectory gone = false) (directoriesOnly : Bool)
    (levels : Nat) (place : Location) :
    namesBelow (t.remove gone) directoriesOnly levels place =
      (namesBelow t directoriesOnly levels place).filter fun names => place ++ names != gone := by
  induction levels generalizing place with
  | zero => rfl
  | succ levels ih =>
    -- Nothing is below the file.
    have hleaf := namesBelow_eq_nil (listsAt_eq_false_of_holdsDirectory h) directoriesOnly levels
    rw [namesBelow, namesBelow, entriesAt_remove h, List.filter_flatMap, List.filter_comm]
    induction (entriesAt t directoriesOnly place).filter (!isHidden ·) with
    | nil => rfl
    | cons name rest ihRest =>
      rw [List.flatMap_cons, ← ihRest, List.filter_cons]
      by_cases hname : place ++ [name] = gone
      · simp [hname, hleaf]
      · have hkept : (place ++ [name] != gone) = true := by simpa using hname
        rw [if_pos hkept, List.flatMap_cons, ih, List.filter_cons, if_pos hkept, List.filter_map]
        simp only [Function.comp_def, List.append_assoc, List.singleton_append]

/-- Everything below a directory is the same, but for the file. -/
theorem namesBelow_height_remove (hsound : t.IsSound) (h : t.holdsDirectory gone = false)
    (directoriesOnly : Bool) (place : Location) :
    namesBelow (t.remove gone) directoriesOnly (t.remove gone).height place =
      (namesBelow t directoriesOnly t.height place).filter fun names => place ++ names != gone := by
  have hheight : (t.remove gone).height ≤ t.height := by
    rw [height, height, remove]
    induction t.nodes with
    | nil => exact Nat.le_refl 0
    | cons entry rest ih =>
      rw [List.filter_cons]
      split
      · exact Nat.max_le.2 ⟨Nat.le_max_left _ _, Nat.le_trans ih (Nat.le_max_right _ _)⟩
      · exact Nat.le_trans ih (Nat.le_max_right _ _)
  obtain ⟨more, hmore⟩ := Nat.exists_eq_add_of_le hheight
  have hlowest : ∀ names, ((t.remove gone).node? (place ++ names)).isSome = true →
      names.length ≤ (t.remove gone).height := by
    intro names hstands
    have hlow := length_le_height hstands
    rw [List.length_append] at hlow
    omega
  rw [← namesBelow_remove h, hmore, namesBelow_add (hsound.remove h) directoriesOnly hlowest]

/-- Where a step starts is the same directory in the tree without a file, or none in both. -/
theorem locate_directoryPath_remove (h : t.holdsDirectory gone = false)
    (hpresent : isPresent (t.remove gone) path = true) :
    (∃ place, t.locate (directoryPath path) = .ok place ∧
        (t.remove gone).locate (directoryPath path) = .ok place) ∨
      (∃ error, t.locate (directoryPath path) = .error error) ∧
        ∃ error, (t.remove gone).locate (directoryPath path) = .error error := by
  cases hlocate : (t.remove gone).locate (directoryPath path) with
  | ok place => exact .inl ⟨place, ((locate_remove_eq_ok_iff h).1 hlocate).1, rfl⟩
  | error error =>
    refine .inr ⟨?_, error, rfl⟩
    rcases isPresent_iff.1 hpresent with rfl | hexists
    · -- The working directory is no file.
      cases hbefore : t.locate (directoryPath "") with
      | error fault => exact ⟨fault, rfl⟩
      | ok place =>
        have hfollow := (locate_eq_ok_iff.1 hbefore).2
        have hdirectory : t.isDirectoryAt workingDirectory = true :=
          isDirectoryAt_of_follow (Path.components_ne_nil _) hfollow
        have hplace : place = workingDirectory := eq_resolveFrom_of_follow hfollow
        rw [← hplace, eq_of_locate_remove h hbefore hlocate,
          isDirectoryAt_eq_false_of_holdsDirectory h] at hdirectory
        cases hdirectory
    · obtain ⟨place, hplace⟩ := ((t.remove gone).exists_eq_true_iff path).1 hexists
      have hne := (checkPath_eq_ok_iff.1 (locate_eq_ok_iff.1 hplace).1).2.1
      rw [directoryPath_of_ne hne, hplace] at hlocate
      cases hlocate

/-- Names that a step finds in the tree without a file do not lead to the file. -/
theorem append_ne_of_isPresent (h : t.holdsDirectory gone = false) {place : Location}
    (hplace : t.locate (directoryPath path) = .ok place) {names : List String} (hne : names ≠ [])
    (hnames : ∀ name ∈ names, IsName name)
    (hpresent : isPresent (t.remove gone) (Path.join path (ofNames names)) = true) :
    place ++ names ≠ gone := by
  have habsolute : isAbsolute (ofNames names) = false := by
    rw [isAbsolute, beq_eq_false_iff_ne]
    exact Path.head?_ofNames hnames
  have hresolve : Path.resolve (Path.join path (ofNames names)) = place ++ names := by
    rw [Path.resolve_join_eq path habsolute, ← resolve_directoryPath path,
      resolve_of_locate hplace, Path.components_ofNames hne fun name hname =>
        (hnames name hname).noSlash, Path.resolveFrom_of_isName hnames]
  have hjoin : Path.join path (ofNames names) ≠ "" := by
    by_cases hpath : path = ""
    · rw [hpath, Path.join, Path.joinChars, if_neg (by simpa [isAbsolute] using habsolute)]
      simpa using Path.ofNames_ne_empty hne hnames
    · rw [Path.join_ofNames hpath hnames, Ne, String.append_eq_empty_iff]
      exact fun hempty => Path.slashed_ne_empty path hempty.1
  rw [← hresolve]
  exact resolve_ne_of_isPresent h hjoin hpresent

theorem filter_wildNames_remove (hsound : t.IsSound) (h : t.holdsDirectory gone = false)
    (hpath : isPresent (t.remove gone) path = true) (directoriesOnly : Bool) (pattern : String) :
    (wildNames (t.remove gone) directoriesOnly pattern path).filter
        (fun name => isPresent (t.remove gone) (Path.join path name)) =
      (wildNames t directoriesOnly pattern path).filter
        (fun name => isPresent (t.remove gone) (Path.join path name)) := by
  rw [wildNames, wildNames]
  rcases locate_directoryPath_remove h hpath with
    ⟨place, hplace, hremoved⟩ | ⟨⟨fault, hplace⟩, error, hremoved⟩
  · simp only [hplace, hremoved, entriesAt_remove h, List.filter_filter]
    refine List.filter_congr fun name hname => ?_
    by_cases hpresent : isPresent (t.remove gone) (Path.join path name) = true
    · obtain ⟨-, hstands, -⟩ := (mem_entriesAt_iff hsound).1 hname
      have hne := append_ne_of_isPresent h hplace (by simp) (hsound.isName_below hstands)
        (by rwa [Path.ofNames_singleton])
      rw [bne_iff_ne.2 hne, Bool.and_true]
    · simp [hpresent]
  · simp only [hplace, hremoved]

theorem filter_descendants_remove (hsound : t.IsSound) (h : t.holdsDirectory gone = false)
    (hpath : isPresent (t.remove gone) path = true) (directoriesOnly : Bool) :
    (descendants (t.remove gone) directoriesOnly path).filter
        (fun name => isPresent (t.remove gone) (Path.join path name)) =
      (descendants t directoriesOnly path).filter
        (fun name => isPresent (t.remove gone) (Path.join path name)) := by
  rw [descendants, descendants]
  rcases locate_directoryPath_remove h hpath with
    ⟨place, hplace, hremoved⟩ | ⟨⟨fault, hplace⟩, error, hremoved⟩
  · simp only [hplace, hremoved, namesBelow_height_remove hsound h]
    refine filter_map_filter fun names hnames hpresent => ?_
    obtain ⟨hne, -, -, -, hstands, -⟩ := (mem_namesBelow_iff hsound).1 hnames
    rw [bne_iff_ne]
    exact append_ne_of_isPresent h hplace hne (hsound.isName_below hstands) hpresent
  · simp only [hplace, hremoved]

/-- From a path that finds nothing a step leads to nothing, whichever tree it looks at. -/
theorem filter_find_of_absent {u : FileTree γ} (h : u.IsSound) {step : Step}
    (hstep : step.StaysBelow) (directoriesOnly : Bool) (hpath : isPresent t path = false) :
    ((step.find u directoriesOnly path).map (Path.join path)).filter (isPresent t) = [] := by
  rw [List.filter_eq_nil_iff]
  intro found hfound hpresent
  obtain ⟨name, hname, rfl⟩ := List.mem_map.1 hfound
  rw [isPresent_of_join (isAbsolute_of_mem_find h hstep hname) hpresent] at hpath
  cases hpath

/-- A step finds the same in the tree without a file, but for paths that find nothing there. -/
theorem find_remove (hsound : t.IsSound) (h : t.holdsDirectory gone = false) {step : Step}
    (hstep : step.StaysBelow) (directoriesOnly : Bool) (path : String) :
    ((step.find (t.remove gone) directoriesOnly path).map (Path.join path)).filter
        (isPresent (t.remove gone)) =
      ((step.find t directoriesOnly path).map (Path.join path)).filter
        (isPresent (t.remove gone)) := by
  by_cases hpath : isPresent (t.remove gone) path = true
  · rw [List.filter_map, List.filter_map]
    refine congrArg (List.map (Path.join path)) ?_
    cases step with
    | entry name =>
      have hexists : (t.remove gone).exists? (Path.join path name) = true →
          t.exists? (Path.join path name) = true := by
        rw [exists_eq_true_iff, exists_eq_true_iff]
        exact fun ⟨place, hplace⟩ => ⟨place, ((locate_remove_eq_ok_iff h).1 hplace).1⟩
      by_cases hthere : (t.remove gone).exists? (Path.join path name) = true
      · rw [Step.find, Step.find, if_pos hthere, if_pos (hexists hthere)]
      · rw [Step.find, Step.find, if_neg hthere]
        split
        · rename_i hbefore
          have hne : Path.join path name ≠ "" := by
            intro hempty
            rw [hempty] at hbefore
            cases hbefore
          have habsent : isPresent (t.remove gone) (Path.join path name) = false := by
            rw [Bool.eq_false_iff, Ne, isPresent_iff]
            exact fun hpresent => hpresent.elim hne hthere
          rw [List.filter_cons_of_neg (by simp [habsent])]
        · rfl
    | wild pattern => exact filter_wildNames_remove hsound h hpath directoriesOnly pattern
    | deep =>
      have hbelow := filter_descendants_remove hsound h hpath directoriesOnly
      simp only [Step.find, List.filter_cons, Function.comp_def, hbelow]
    | self => rw [Step.find, Step.find, isDirectory_remove h]
  · rw [filter_find_of_absent (hsound.remove h) hstep _ (Bool.eq_false_iff.2 hpath),
      filter_find_of_absent hsound hstep _ (Bool.eq_false_iff.2 hpath)]

/-- Steps that are followed in the tree with and without a file, from the same paths but for those
that find nothing in the latter, come to the same paths but for such. -/
theorem expand_remove (hsound : t.IsSound) (h : t.holdsDirectory gone = false) {steps : List Step}
    (hsteps : ∀ step ∈ steps, step.StaysBelow) {paths others : List String}
    (hpaths : others.filter (isPresent (t.remove gone)) =
      paths.filter (isPresent (t.remove gone))) :
    (expand (t.remove gone) steps others).filter (isPresent (t.remove gone)) =
      (expand t steps paths).filter (isPresent (t.remove gone)) := by
  induction steps generalizing paths others with
  | nil => exact hpaths
  | cons step rest ih =>
    obtain ⟨hstep, hrest⟩ := List.forall_mem_cons.1 hsteps
    rw [expand, expand]
    refine ih hrest ?_
    have hpresent : ∀ starts : List String,
        (starts.filter (isPresent (t.remove gone))).flatMap (fun path =>
            ((step.find t (!rest.isEmpty) path).map (Path.join path)).filter
              (isPresent (t.remove gone))) =
          starts.flatMap fun path => ((step.find t (!rest.isEmpty) path).map
            (Path.join path)).filter (isPresent (t.remove gone)) := by
      intro starts
      induction starts with
      | nil => rfl
      | cons path later ihLater =>
        by_cases hpath : isPresent (t.remove gone) path = true
        · rw [List.filter_cons_of_pos hpath, List.flatMap_cons, List.flatMap_cons, ihLater]
        · rw [List.filter_cons_of_neg hpath, List.flatMap_cons, ihLater,
            filter_find_of_absent hsound hstep _ (Bool.eq_false_iff.2 hpath), List.nil_append]
    simp only [List.filter_flatMap, find_remove hsound h hstep]
    rw [← hpresent others, hpaths, hpresent paths]

/-! ## The search -/

theorem staysBelow_of_mem_steps {step : Step} (h : step ∈ (Pattern.ofText text).steps) :
    step.StaysBelow := by
  obtain ⟨component, hcomponent, rfl⟩ := List.mem_map.1 h
  have hmem : component ∈ Path.components text := by
    rcases List.mem_append.1 hcomponent with hinit | hlast
    · exact List.mem_of_mem_drop ((List.dropLast_sublist _).subset (List.mem_filter.1 hinit).1)
    · exact List.mem_of_mem_drop (List.mem_of_getLast? (Option.mem_toList.1 hlast))
  have hrelative : isAbsolute component = false := by
    rw [isAbsolute, beq_eq_false_iff_ne]
    exact fun hhead => Path.noSlash_of_mem_components hmem (List.mem_of_head? hhead)
  unfold Step.ofComponent
  split
  · trivial
  · split
    · trivial
    · split
      · trivial
      · exact hrelative

/-- Of paths that are found those that pass a test are in the same order if they are the same. -/
theorem filter_arrange_congr (order : SearchOrder) {texts others : List String}
    {test : String → Bool} (h : others.filter test = texts.filter test) :
    (arrange id order others).filter test = (arrange id order texts).filter test := by
  rw [filter_arrange id order fun _ _ _ _ _ _ => id,
    filter_arrange id order fun _ _ _ _ _ _ => id, h]

theorem not_mem_start {c : Char} (hc : c ≠ '/') (h : c ∉ text.toList) :
    c ∉ (Pattern.ofText text).start.toList := by
  intro hmem
  change c ∈ (String.ofList _).toList at hmem
  rw [String.toList_ofList] at hmem
  rcases Path.mem_ofNames (Path.mem_of_mem_dropTrailingSlashes hmem) with
    hslash | ⟨component, hcomponent, hmem⟩
  · exact hc hslash
  · rcases List.mem_append.1 hcomponent with hbefore | hlast
    · exact h (Path.mem_of_mem_component ((List.takeWhile_sublist _).subset hbefore) hmem)
    · rw [List.mem_singleton.1 hlast] at hmem
      cases hmem

/-- A search comes to an end, and in the tree without a file it finds the same, but for paths that
find nothing there. -/
theorem search_remove (hsound : t.IsSound) (h : t.holdsDirectory gone = false)
    (hnull : '\x00' ∉ text.toList) :
    ∃ paths others, search t text = .ok paths ∧ search (t.remove gone) text = .ok others ∧
      others.filter (t.remove gone).isFile = paths.filter (t.remove gone).isFile := by
  have hfiles : ∀ paths others : List String,
      others.filter (isPresent (t.remove gone)) = paths.filter (isPresent (t.remove gone)) →
      others.filter (t.remove gone).isFile = paths.filter (t.remove gone).isFile := by
    intro paths others hpresent
    have hfile : ∀ path, (t.remove gone).isFile path =
        ((t.remove gone).isFile path && isPresent (t.remove gone) path) := by
      intro path
      rw [isFile, isPresent, exists?]
      cases (t.remove gone).locate path <;> simp
    rw [funext hfile, ← List.filter_filter, ← List.filter_filter, hpresent]
  rw [search, search]
  by_cases hwild : hasWildcard text = true
  · have hstart : (Pattern.ofText text).start.toList.contains '\x00' = false := by
      simpa using not_mem_start (by decide) hnull
    simp only [hwild, hstart, Bool.not_true, Bool.false_eq_true, if_false]
    refine ⟨_, _, rfl, rfl, hfiles _ _ (filter_arrange_congr t.order ?_)⟩
    exact expand_remove hsound h (fun step => staysBelow_of_mem_steps) rfl
  · simp only [hwild, Bool.not_false, if_true]
    refine ⟨_, _, rfl, rfl, ?_⟩
    by_cases hfile : (t.remove gone).isFile text = true
    · have hexists : ∀ u : FileTree γ, u.isFile text = true → searchLiteral u text = [text] := by
        intro u hu
        rw [isFile] at hu
        rw [searchLiteral, exists?]
        cases hlocate : u.locate text with
        | error error => rw [hlocate] at hu; cases hu
        | ok place => rfl
      rw [hexists _ hfile, hexists t ((isFile_remove_iff h).1 hfile).1]
    · have hnone : ∀ u : FileTree γ,
          (searchLiteral u text).filter (t.remove gone).isFile = [] := by
        intro u
        rw [searchLiteral]
        split <;> simp [hfile]
      rw [hnone, hnone]

end Glob
end FeatureCensus
