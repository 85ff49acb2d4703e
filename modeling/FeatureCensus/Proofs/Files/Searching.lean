import FeatureCensus.Proofs.Files.Patterns
import FeatureCensus.Proofs.Files.SoundTrees
import FeatureCensus.Proofs.Files.Ways
import Mathlib.Data.String.Basic

/-!
# Searching below a directory

In a sound tree a pattern below a directory finds everything there that no dot hides and whose
name matches, in every directory that may be listed and has a path to be followed, and finds it
once.  What is found comes in the order of the search.

Main results:

- Theorem {lit}`FileTree.locate_trimmed`: the trimmed path of a directory finds it.
- Theorem {lit}`Glob.namesBelow_add`: levels below the lowest places hold nothing.
- Theorem {lit}`Glob.mem_foundNames_iff`: what a pattern finds below a directory.
- Theorem {lit}`Glob.nodup_foundNames`: it is found once.
- Theorem {lit}`Glob.search_join`: it is found in the order of the search.
-/

namespace FeatureCensus

open FeatureCensus.Path (IsName ofNames)

variable {γ : Type} {t : FileTree γ} {place : Location} {path : String}

namespace FileTree

/-! ## Trimmed paths -/

theorem components_append_slashes (path : String) (k : Nat) :
    Path.components (path ++ String.ofList (List.replicate k '/')) =
      Path.components path ++ List.replicate k "" := by
  induction k generalizing path with
  | zero => simp
  | succ k ih =>
    have hsplit : path ++ String.ofList (List.replicate (k + 1) '/') =
        path ++ "/" ++ String.ofList (List.replicate k '/') := by
      rw [← String.toList_inj]
      simp [List.replicate_succ]
    have hempty := ih ""
    rw [String.empty_append] at hempty
    rw [hsplit, Path.components_append_slash, hempty, List.replicate_succ]
    rfl

theorem resolveFrom_replicate_empty (place : Location) (k : Nat) :
    Path.resolveFrom place (List.replicate k "") = place := by
  induction k with
  | zero => rfl
  | succ k ih =>
    rw [List.replicate_succ, ← List.singleton_append, Path.resolveFrom_append]
    exact ih

/-- The trimmed path of a directory finds it. -/
theorem locate_trimmed (h : t.locate path = .ok place) :
    t.locate (Path.trimmed path) = .ok place := by
  obtain ⟨hcheck, hfollow⟩ := locate_eq_ok_iff.1 h
  obtain ⟨hnull, hempty, hsize⟩ := checkPath_eq_ok_iff.1 hcheck
  obtain ⟨htrimmed, k, hk⟩ := Path.exists_trimmed hempty
  have horigin : Path.origin path = Path.origin (Path.trimmed path) := by
    obtain ⟨c, cs, hcs⟩ := List.exists_cons_of_ne_nil
      (fun hnil => htrimmed (String.toList_eq_nil_iff.1 hnil))
    rw [hk, Path.origin, Path.origin, Path.isAbsolute, Path.isAbsolute, String.toList_append, ← hk,
      hcs]
    rfl
  rw [hk, components_append_slashes, ← hk, follow_append, horigin] at hfollow
  refine locate_eq_ok_iff.2 ⟨checkPath_eq_ok_iff.2 ⟨fun hmem => hnull ?_, htrimmed, ?_⟩, ?_⟩
  · rw [hk, String.toList_append]
    exact List.mem_append_left _ hmem
  · rw [hk, Text.Strays.byteSize_append] at hsize
    exact Nat.le_trans (Nat.le_add_right _ _) hsize
  · cases hreached : t.follow (Path.components (Path.trimmed path))
        (Path.origin (Path.trimmed path)) with
    | error fault => rw [hreached] at hfollow; cases hfollow
    | ok reached =>
      rw [hreached] at hfollow
      rw [eq_resolveFrom_of_follow hfollow, resolveFrom_replicate_empty]

end FileTree

namespace Glob

open NamePattern FileTree

variable {names : List String}

/-- Whether no dot hides what names lead to. -/
def IsVisible (names : List String) : Prop :=
  ∀ name ∈ names, isHidden name = false

instance (names : List String) : Decidable (IsVisible names) :=
  inferInstanceAs (Decidable (∀ name ∈ names, isHidden name = false))

/-- Whether all directories may be listed that names lead through, the first one included. -/
def IsListed (t : FileTree γ) (place : Location) (names : List String) : Prop :=
  ∀ k < names.length, t.listsAt (place ++ names.take k) = true

instance (t : FileTree γ) (place : Location) (names : List String) :
    Decidable (IsListed t place names) :=
  inferInstanceAs (Decidable (∀ k < names.length, t.listsAt (place ++ names.take k) = true))

theorem isListed_cons_iff {name : String} :
    IsListed t place (name :: names) ↔
      t.listsAt place = true ∧ IsListed t (place ++ [name]) names := by
  constructor
  · intro h
    refine ⟨by simpa using h 0 (Nat.succ_pos _), fun k hk => ?_⟩
    simpa using h (k + 1) (Nat.succ_lt_succ hk)
  · rintro ⟨hfirst, hrest⟩ (_ | k) hk
    · simpa using hfirst
    · simpa using hrest k (Nat.lt_of_succ_lt_succ hk)

theorem isListed_concat_iff {name : String} :
    IsListed t place (names ++ [name]) ↔
      IsListed t place names ∧ t.listsAt (place ++ names) = true := by
  constructor
  · intro h
    refine ⟨fun k hk => ?_, ?_⟩
    · have hbefore := h k (by simp; omega)
      rwa [List.take_append_of_le_length (Nat.le_of_lt hk)] at hbefore
    · have hlast := h names.length (by simp)
      rwa [List.take_left] at hlast
  · rintro ⟨hinit, hlast⟩ k hk
    rw [List.length_append, List.length_singleton] at hk
    rcases Nat.lt_succ_iff_lt_or_eq.1 hk with hless | rfl
    · rw [List.take_append_of_le_length (Nat.le_of_lt hless)]
      exact hinit k hless
    · rwa [List.take_left]

theorem isDirectoryAt_of_listsAt (h : t.listsAt place = true) : t.isDirectoryAt place = true := by
  unfold listsAt at h
  split at h
  · rename_i hnode
    rw [isDirectoryAt, hnode]
  · cases h

/-- Names only lead on from a directory that may be listed. -/
theorem IsListed.isDirectoryAt (h : IsListed t place names) (hne : names ≠ []) :
    t.isDirectoryAt place = true := by
  obtain ⟨name, rest, rfl⟩ := List.exists_cons_of_ne_nil hne
  exact isDirectoryAt_of_listsAt (isListed_cons_iff.1 h).1

/-! ## Names in a directory -/

theorem mem_namesAt_iff (h : t.IsSound) {name : String} :
    name ∈ t.namesAt place ↔ (t.node? (place ++ [name])).isSome = true := by
  rw [namesAt, List.mem_filterMap, Option.isSome_iff_exists]
  constructor
  · rintro ⟨⟨other, node⟩, hmem, hname⟩
    rw [Option.ite_none_right_eq_some, beq_iff_eq] at hname
    obtain ⟨rfl, hlast⟩ := hname
    have hother : other.dropLast ++ [name] = other := List.dropLast_append_getLast? name hlast
    exact ⟨node, (h.mem_nodes_iff (by simp)).1 (hother.symm ▸ hmem)⟩
  · rintro ⟨node, hnode⟩
    exact ⟨_, (h.mem_nodes_iff (by simp)).2 hnode, by simp⟩

theorem nodup_namesAt (h : t.IsSound) : (t.namesAt place).Nodup := by
  have hmap : t.namesAt place = (t.nodes.map (·.1)).filterMap fun other =>
      if other.dropLast == place then other.getLast? else none := by
    rw [namesAt, List.filterMap_map]
    rfl
  rw [hmap]
  refine h.distinct.filterMap fun first second name hfirst hsecond => ?_
  simp only [Option.mem_def, Option.ite_none_right_eq_some, beq_iff_eq] at hfirst hsecond
  rw [← List.dropLast_append_getLast? name hfirst.2, ← List.dropLast_append_getLast? name hsecond.2,
    hfirst.1, hsecond.1]

theorem mem_listedAt_iff (h : t.IsSound) {name : String} :
    name ∈ t.listedAt place ↔
      t.listsAt place = true ∧ (t.node? (place ++ [name])).isSome = true := by
  rw [listedAt, ← mem_namesAt_iff h]
  split <;> simp_all

theorem nodup_listedAt (h : t.IsSound) : (t.listedAt place).Nodup := by
  rw [listedAt]
  split
  · exact nodup_namesAt h
  · exact List.nodup_nil

theorem mem_entriesAt_iff (h : t.IsSound) {directoriesOnly : Bool} {name : String} :
    name ∈ entriesAt t directoriesOnly place ↔
      t.listsAt place = true ∧ (t.node? (place ++ [name])).isSome = true ∧
        (directoriesOnly = true → t.holdsDirectory (place ++ [name]) = true) := by
  rw [entriesAt, List.mem_filter, mem_listedAt_iff h, and_assoc]
  cases directoriesOnly <;> simp

/-! ## Everything below a directory -/

/-- No place is lower than the levels of a tree. -/
theorem length_le_height (h : (t.node? place).isSome = true) : place.length ≤ t.height := by
  have hmem : ∀ entry ∈ t.nodes, entry.1.length ≤ t.height := by
    rw [height]
    induction t.nodes with
    | nil => simp
    | cons first rest ih =>
      refine List.forall_mem_cons.2 ⟨Nat.le_max_left _ _, fun entry hentry => ?_⟩
      exact Nat.le_trans (ih entry hentry) (Nat.le_max_right _ _)
  by_cases hne : place = []
  · simp [hne]
  · obtain ⟨node, hnode⟩ := Option.isSome_iff_exists.1 h
    rw [node?_eq_lookup hne] at hnode
    exact hmem _ (Association.mem_of_lookup hnode)

/-- Below a place that lists nothing nothing is found. -/
theorem namesBelow_eq_nil (h : t.listsAt place = false) (directoriesOnly : Bool) (levels : Nat) :
    namesBelow t directoriesOnly levels place = [] := by
  cases levels with
  | zero => rfl
  | succ levels => simp [namesBelow, entriesAt, listedAt, h]

/-- What is below a place and not hidden is what names lead to through directories that may be
listed. -/
theorem mem_namesBelow_iff (h : t.IsSound) {directoriesOnly : Bool} {levels : Nat} :
    names ∈ namesBelow t directoriesOnly levels place ↔
      names ≠ [] ∧ names.length ≤ levels ∧ IsVisible names ∧ IsListed t place names ∧
        (t.node? (place ++ names)).isSome = true ∧
        (directoriesOnly = true → t.holdsDirectory (place ++ names) = true) := by
  induction levels generalizing place names with
  | zero =>
    rw [namesBelow, Nat.le_zero, List.length_eq_zero_iff]
    exact iff_of_false List.not_mem_nil fun h => h.1 h.2.1
  | succ levels ih =>
    simp only [namesBelow, List.mem_flatMap, List.mem_filter, mem_entriesAt_iff h,
      Bool.not_eq_true', List.mem_cons, List.mem_map, ih]
    constructor
    · rintro ⟨name, ⟨⟨hlists, hstands, hkind⟩, hshown⟩, rfl | ⟨rest, hrest, rfl⟩⟩
      · refine ⟨by simp, by simp, by simpa [IsVisible] using hshown, ?_, hstands, hkind⟩
        exact isListed_cons_iff.2 ⟨hlists, by simp [IsListed]⟩
      · obtain ⟨-, hlength, hvisible, hlisted, hthere, hdirectory⟩ := hrest
        rw [List.append_assoc] at hthere hdirectory
        exact ⟨by simp, by simpa using hlength, List.forall_mem_cons.2 ⟨hshown, hvisible⟩,
          isListed_cons_iff.2 ⟨hlists, hlisted⟩, hthere, hdirectory⟩
    · rintro ⟨hne, hlength, hvisible, hlisted, hstands, hkind⟩
      obtain ⟨name, rest, rfl⟩ := List.exists_cons_of_ne_nil hne
      obtain ⟨hshown, hrest⟩ := List.forall_mem_cons.1 hvisible
      obtain ⟨hlists, hlater⟩ := isListed_cons_iff.1 hlisted
      by_cases hnil : rest = []
      · subst hnil
        exact ⟨name, ⟨⟨hlists, hstands, hkind⟩, hshown⟩, .inl rfl⟩
      · have hnext := hlater.isDirectoryAt hnil
        rw [← List.singleton_append, ← List.append_assoc] at hstands hkind
        refine ⟨name, ⟨⟨hlists, isSome_node?_of_isDirectoryAt hnext,
          fun _ => holdsDirectory_of_isDirectoryAt hnext⟩, hshown⟩, .inr ⟨rest, ?_, rfl⟩⟩
        exact ⟨hnil, by simpa using hlength, hrest, hlater, hstands, hkind⟩

theorem nodup_namesBelow (h : t.IsSound) (directoriesOnly : Bool) (levels : Nat) :
    (namesBelow t directoriesOnly levels place).Nodup := by
  induction levels generalizing place with
  | zero => exact List.nodup_nil
  | succ levels ih =>
    rw [namesBelow]
    refine List.nodup_flatMap.2 ⟨fun name _ => ?_, ?_⟩
    · refine List.nodup_cons.2 ⟨fun hmem => ?_, ih.map fun first second hsame => ?_⟩
      · obtain ⟨rest, hrest, hsame⟩ := List.mem_map.1 hmem
        exact ((mem_namesBelow_iff h).1 hrest).1 (List.cons.inj hsame).2
      · exact (List.cons.inj hsame).2
    · refine (((nodup_listedAt h).filter _).filter _).imp fun {first second} hne names => ?_
      have hhead : ∀ name, names ∈ [name] ::
          (namesBelow t directoriesOnly levels (place ++ [name])).map (name :: ·) →
          names.head? = some name := by
        intro name hmem
        rcases List.mem_cons.1 hmem with rfl | hlater
        · rfl
        · obtain ⟨rest, -, rfl⟩ := List.mem_map.1 hlater
          rfl
      intro hfirst hsecond
      exact hne (Option.some.inj ((hhead first hfirst).symm.trans (hhead second hsecond)))

/-- Levels below the lowest places hold nothing. -/
theorem namesBelow_add (h : t.IsSound) (directoriesOnly : Bool) {levels : Nat}
    (hlowest : ∀ names, (t.node? (place ++ names)).isSome = true → names.length ≤ levels)
    (more : Nat) :
    namesBelow t directoriesOnly (levels + more) place =
      namesBelow t directoriesOnly levels place := by
  induction levels generalizing place with
  | zero =>
    rw [namesBelow, List.eq_nil_iff_forall_not_mem]
    intro names hnames
    obtain ⟨hne, -, -, -, hstands, -⟩ := (mem_namesBelow_iff h).1 hnames
    exact hne (List.length_eq_zero_iff.1 (Nat.le_zero.1 (hlowest names hstands)))
  | succ levels ih =>
    rw [Nat.add_right_comm, namesBelow, namesBelow]
    refine List.flatMap_congr fun name _ => ?_
    rw [ih fun names hstands => ?_]
    rw [List.append_assoc] at hstands
    simpa using hlowest (name :: names) hstands

/-- The names from a place to the directories below it that are not hidden and, first of all, to
the directory there itself. -/
def directoryNames (t : FileTree γ) (place : Location) : List (List String) :=
  [] :: namesBelow t true t.height place

theorem directoryPath_of_ne (h : path ≠ "") : directoryPath path = path := by
  rw [directoryPath, if_neg (by simpa using h)]

theorem resolve_directoryPath (path : String) :
    Path.resolve (directoryPath path) = Path.resolve path := by
  by_cases hpath : path = ""
  · rw [hpath]
    rfl
  · rw [directoryPath_of_ne hpath]

/-- The paths that the step for all directories finds are those through these names. -/
theorem find_deep (hpath : path ≠ "") (h : t.locate path = .ok place) :
    Step.find t true path .deep = (directoryNames t place).map ofNames := by
  rw [Step.find, directoryNames, List.map_cons, descendants, directoryPath_of_ne hpath, h]
  rfl

theorem mem_directoryNames_iff (h : t.IsSound) (hplace : t.holdsDirectory place = true) :
    names ∈ directoryNames t place ↔
      t.holdsDirectory (place ++ names) = true ∧ IsVisible names ∧ IsListed t place names := by
  rw [directoryNames, List.mem_cons, mem_namesBelow_iff h]
  constructor
  · rintro (rfl | ⟨-, -, hvisible, hlisted, -, hdirectory⟩)
    · exact ⟨by rwa [List.append_nil], by simp [IsVisible], by simp [IsListed]⟩
    · exact ⟨hdirectory rfl, hvisible, hlisted⟩
  · rintro ⟨hdirectory, hvisible, hlisted⟩
    by_cases hne : names = []
    · exact .inl hne
    · have hstands := isSome_node?_of_holdsDirectory hdirectory
      have hlow := length_le_height hstands
      rw [List.length_append] at hlow
      exact .inr ⟨hne, by omega, hvisible, hlisted, hstands, fun _ => hdirectory⟩

theorem nodup_directoryNames (h : t.IsSound) : (directoryNames t place).Nodup :=
  List.nodup_cons.2 ⟨fun hmem => ((mem_namesBelow_iff h).1 hmem).1 rfl, nodup_namesBelow h _ _⟩

/-! ## Matching names -/

/-- The names in the directory at a place that match a pattern. -/
def matchingAt (t : FileTree γ) (pattern : String) (place : Location) : List String :=
  (t.listedAt place).filter fun name =>
    (isHidden pattern || !isHidden name) && nameMatches pattern name

/-- A directory with a path to be followed that finds nothing in it lists nothing. -/
theorem wildNames_of_not_lists (h : t.listsAt (Path.resolve path) = false)
    (directoriesOnly : Bool) (pattern : String) :
    wildNames t directoriesOnly pattern path = [] := by
  rw [wildNames]
  split
  · rfl
  · rename_i reached hreached
    rw [← resolve_directoryPath path, resolve_of_locate hreached] at h
    simp [entriesAt, listedAt, h]

/-- What the step for names finds in a directory below that of a path, which is nothing if the path
is too long to be followed. -/
theorem wildNames_join (h : t.IsSound) (hpath : t.locate path = .ok place)
    (hstands : (t.node? (place ++ names)).isSome = true) (pattern : String) :
    wildNames t false pattern (Path.join path (ofNames names)) =
      if pathLimit < t.strays.byteSize (Path.join path (ofNames names)) then []
      else matchingAt t pattern (place ++ names) := by
  have hempty := (checkPath_eq_ok_iff.1 (locate_eq_ok_iff.1 hpath).1).2.1
  by_cases hplace : t.isDirectoryAt place = true
  · have hne : Path.join path (ofNames names) ≠ "" := by
      rw [Path.join_ofNames hempty (h.isName_below hstands), Ne, String.append_eq_empty_iff]
      exact fun hboth => Path.slashed_ne_empty path hboth.1
    rw [wildNames, directoryPath_of_ne hne, h.locate_join hpath hplace hstands]
    by_cases hsize : pathLimit < t.strays.byteSize (Path.join path (ofNames names))
    · rw [if_pos hsize, if_pos hsize]
    · rw [if_neg hsize, if_neg hsize]
      simp [matchingAt, entriesAt]
  · -- From what may not be entered no names lead on.
    obtain rfl : names = [] := by
      by_contra hne
      exact hplace (h.isDirectoryAt_above hne hstands)
    have hlists : t.listsAt place = false :=
      Bool.eq_false_iff.2 fun hlists => hplace (isDirectoryAt_of_listsAt hlists)
    have hresolve : Path.resolve (Path.join path (ofNames [])) = place := by
      rw [Path.resolve_join_eq path rfl, resolve_of_locate hpath]
      rfl
    rw [List.append_nil, wildNames_of_not_lists (by rwa [hresolve]), matchingAt, listedAt, hlists]
    simp

theorem mem_matchingAt_iff (h : t.IsSound) {pattern name : String}
    (hpattern : isHidden pattern = false) :
    name ∈ matchingAt t pattern place ↔
      t.listsAt place = true ∧ (t.node? (place ++ [name])).isSome = true ∧
        isHidden name = false ∧ nameMatches pattern name = true := by
  rw [matchingAt, List.mem_filter, mem_listedAt_iff h, hpattern, and_assoc]
  simp

/-- The names from a directory to what a pattern finds in it and in the directories below it. -/
def foundNames (t : FileTree γ) (path : String) (place : Location) (pattern : String) :
    List (List String) :=
  (directoryNames t place).flatMap fun names =>
    (wildNames t false pattern (Path.join path (ofNames names))).map (names ++ [·])

section Found

variable (h : t.IsSound) (hpath : t.locate path = .ok place)
  (hplace : t.holdsDirectory place = true)

include h hpath hplace

/-- What a pattern finds below a directory: everything that no dot hides and whose name matches,
in a directory that may be listed and has a path to be followed. -/
theorem mem_foundNames_iff {pattern : String} (hpattern : isHidden pattern = false) :
    names ∈ foundNames t path place pattern ↔
      ∃ init last, names = init ++ [last] ∧ (t.node? (place ++ names)).isSome = true ∧
        IsVisible names ∧ IsListed t place names ∧ nameMatches pattern last = true ∧
        t.strays.byteSize (Path.join path (ofNames init)) ≤ pathLimit := by
  rw [foundNames, List.mem_flatMap]
  constructor
  · rintro ⟨init, hinit, hnames⟩
    obtain ⟨last, hlast, rfl⟩ := List.mem_map.1 hnames
    obtain ⟨hdirectory, hvisible, hlisted⟩ := (mem_directoryNames_iff h hplace).1 hinit
    rw [wildNames_join h hpath (isSome_node?_of_holdsDirectory hdirectory)] at hlast
    split at hlast
    · cases hlast
    · rename_i hsize
      obtain ⟨hlists, hstands, hshown, hmatches⟩ := (mem_matchingAt_iff h hpattern).1 hlast
      rw [List.append_assoc] at hstands
      exact ⟨init, last, rfl, hstands,
        List.forall_mem_append.2 ⟨hvisible, List.forall_mem_singleton.2 hshown⟩,
        isListed_concat_iff.2 ⟨hlisted, hlists⟩, hmatches, Nat.not_lt.1 hsize⟩
  · rintro ⟨init, last, rfl, hstands, hvisible, hlisted, hmatches, hsize⟩
    obtain ⟨hinit, hlast⟩ := List.forall_mem_append.1 hvisible
    obtain ⟨hbefore, hlists⟩ := isListed_concat_iff.1 hlisted
    rw [← List.append_assoc] at hstands
    have hdirectory := holdsDirectory_of_isDirectoryAt (isDirectoryAt_of_listsAt hlists)
    refine ⟨init, (mem_directoryNames_iff h hplace).2 ⟨hdirectory, hinit, hbefore⟩,
      List.mem_map.2 ⟨last, ?_, rfl⟩⟩
    rw [wildNames_join h hpath (isSome_node?_of_holdsDirectory hdirectory),
      if_neg (Nat.not_lt.2 hsize)]
    exact (mem_matchingAt_iff h hpattern).2
      ⟨hlists, hstands, hlast last (List.mem_singleton_self last), hmatches⟩

/-- It is found once. -/
theorem nodup_foundNames (pattern : String) : (foundNames t path place pattern).Nodup := by
  refine List.nodup_flatMap.2 ⟨fun init hinit => ?_, ?_⟩
  · have hdirectory := ((mem_directoryNames_iff h hplace).1 hinit).1
    rw [wildNames_join h hpath (isSome_node?_of_holdsDirectory hdirectory)]
    split
    · exact List.nodup_nil
    · exact ((nodup_listedAt h).filter _).map fun first second hsame => by simpa using hsame
  · refine (nodup_directoryNames h).imp fun {first second} hne names hfirst hsecond => hne ?_
    obtain ⟨last, -, rfl⟩ := List.mem_map.1 hfirst
    obtain ⟨other, -, hsame⟩ := List.mem_map.1 hsecond
    exact (List.append_inj_left' hsame rfl).symm

/-- The steps of a pattern below a directory find the paths through these names. -/
theorem expand_eq {pattern : String} (hpattern : isHidden pattern = false) :
    expand t [.deep, .wild pattern] [path] =
      (foundNames t path place pattern).map fun names => Path.join path (ofNames names) := by
  have hempty := (checkPath_eq_ok_iff.1 (locate_eq_ok_iff.1 hpath).1).2.1
  have hdeep : Step.find t (!([Step.wild pattern] : List Step).isEmpty) path .deep =
      (directoryNames t place).map ofNames := find_deep hempty hpath
  rw [expand, expand, expand, List.flatMap_singleton, hdeep, List.map_map, List.flatMap_map,
    foundNames, List.map_flatMap]
  refine List.flatMap_congr fun init hinit => ?_
  rw [List.map_map]
  refine List.map_congr_left fun last hlast => ?_
  have hmem : init ++ [last] ∈ foundNames t path place pattern :=
    List.mem_flatMap.2 ⟨init, hinit, List.mem_map.2 ⟨last, hlast, rfl⟩⟩
  obtain ⟨-, -, -, hstands, -⟩ := (mem_foundNames_iff h hpath hplace hpattern).1 hmem
  obtain ⟨hnames, hname⟩ := List.forall_mem_append.1 (h.isName_below hstands)
  exact Path.join_join_ofNames hempty hnames (List.forall_mem_singleton.1 hname)

end Found

/-- The names from a place to everything below it whose name matches a pattern, whatever the path is
that leads there. -/
def namesMatching (t : FileTree γ) (place : Location) (pattern : String) : List (List String) :=
  (directoryNames t place).flatMap fun names =>
    (matchingAt t pattern (place ++ names)).map (names ++ [·])

/-- They lead to something that no dot hides, through directories that may be listed. -/
theorem exists_of_mem_namesMatching (h : t.IsSound) (hplace : t.holdsDirectory place = true)
    {pattern : String} (hpattern : isHidden pattern = false)
    (hnames : names ∈ namesMatching t place pattern) :
    ∃ init last, names = init ++ [last] ∧ (t.node? (place ++ names)).isSome = true ∧
      IsVisible names ∧ IsListed t place names ∧ nameMatches pattern last = true := by
  obtain ⟨init, hinit, hmem⟩ := List.mem_flatMap.1 hnames
  obtain ⟨last, hlast, rfl⟩ := List.mem_map.1 hmem
  obtain ⟨-, hvisible, hlisted⟩ := (mem_directoryNames_iff h hplace).1 hinit
  obtain ⟨hlists, hstands, hshown, hmatches⟩ := (mem_matchingAt_iff h hpattern).1 hlast
  rw [List.append_assoc] at hstands
  exact ⟨init, last, rfl, hstands,
    List.forall_mem_append.2 ⟨hvisible, List.forall_mem_singleton.2 hshown⟩,
    isListed_concat_iff.2 ⟨hlisted, hlists⟩, hmatches⟩

/-- Only what is in directories with a path that is too long is not found. -/
theorem filter_foundNames (h : t.IsSound) (hpath : t.locate path = .ok place)
    (hplace : t.holdsDirectory place = true) {pattern : String} {test : List String → Bool}
    (htest : ∀ init last, init ++ [last] ∈ namesMatching t place pattern →
      test (init ++ [last]) = true →
        t.strays.byteSize (Path.join path (ofNames init)) ≤ pathLimit) :
    (foundNames t path place pattern).filter test =
      (namesMatching t place pattern).filter test := by
  rw [foundNames, namesMatching, List.filter_flatMap, List.filter_flatMap]
  refine List.flatMap_congr fun init hinit => ?_
  have hdirectory := ((mem_directoryNames_iff h hplace).1 hinit).1
  rw [wildNames_join h hpath (isSome_node?_of_holdsDirectory hdirectory)]
  split
  · rename_i hsize
    refine Eq.symm (List.filter_eq_nil_iff.2 fun names hnames hkept => ?_)
    obtain ⟨last, hlast, rfl⟩ := List.mem_map.1 hnames
    have hmem : init ++ [last] ∈ namesMatching t place pattern :=
      List.mem_flatMap.2 ⟨init, hinit, List.mem_map.2 ⟨last, hlast, rfl⟩⟩
    exact absurd (htest init last hmem hkept) (Nat.not_le.2 hsize)
  · rfl

/-! ## Order -/

section Order

variable {α β : Type} (key : α → String) (order : SearchOrder)

theorem arrange_perm (found : List α) : (arrange key order found).Perm found := by
  cases order with
  | asListed => exact .refl found
  | byPath => exact List.mergeSort_perm found _

theorem mem_arrange_iff {found : List α} {a : α} : a ∈ arrange key order found ↔ a ∈ found :=
  (arrange_perm key order found).mem_iff

/-- What is found is arranged before or after it is told in another way. -/
theorem arrange_map (f : β → α) (found : List β) :
    arrange key order (found.map f) = (arrange (key ∘ f) order found).map f := by
  cases order with
  | asListed => rfl
  | byPath =>
    refine Eq.symm ?_
    rw [arrange, arrange, sortBy, sortBy]
    exact List.map_mergeSort fun _ _ _ _ => rfl

/-- What is sorted by texts is in their order. -/
theorem pairwise_sortBy (list : List α) :
    (sortBy key list).Pairwise fun first second => key first ≤ key second := by
  have hsorted : (sortBy key list).Pairwise
      fun first second => (!decide (key second < key first)) = true := by
    refine List.pairwise_mergeSort (fun a b c hab hbc => ?_) (fun a b => ?_) list
    · simp only [Bool.not_eq_true', decide_eq_false_iff_not, not_lt] at hab hbc ⊢
      exact le_trans hab hbc
    · simp only [Bool.or_eq_true, Bool.not_eq_true', decide_eq_false_iff_not, not_lt]
      exact le_total _ _
  exact hsorted.imp fun hle => by
    simpa only [Bool.not_eq_true', decide_eq_false_iff_not, not_lt] using hle

/-- Of what is arranged the selected items are in the order in which they are arranged by
themselves, if texts tell them apart. -/
theorem filter_arrange {test : α → Bool} {found : List α}
    (hkey : ∀ a ∈ found, ∀ b ∈ found, test a = true → test b = true → key a = key b → a = b) :
    (arrange key order found).filter test = arrange key order (found.filter test) := by
  cases order with
  | asListed => rfl
  | byPath =>
    refine List.Perm.eq_of_pairwise (fun a b ha hb hab hba => ?_)
      ((pairwise_sortBy key found).filter test) (pairwise_sortBy key (found.filter test)) ?_
    · obtain ⟨ha, htest⟩ := List.mem_filter.1 ha
      obtain ⟨hb, htest'⟩ := List.mem_filter.1 ((List.mergeSort_perm _ _).mem_iff.1 hb)
      exact hkey a ((List.mergeSort_perm _ _).mem_iff.1 ha) b hb htest htest' (le_antisymm hab hba)
    · exact ((List.mergeSort_perm found _).filter test).trans (List.mergeSort_perm _ _).symm

end Order

theorem append_lt_append_iff (before first second : String) :
    before ++ first < before ++ second ↔ first < second := by
  have happend : ∀ first second : String, first < second →
      before ++ first < before ++ second := by
    intro first second hlt
    rw [String.lt_iff_toList_lt] at hlt ⊢
    rw [String.toList_append, String.toList_append]
    exact List.append_left_lt hlt
  refine ⟨fun hlt => ?_, happend first second⟩
  rcases lt_trichotomy first second with hless | rfl | hmore
  · exact hless
  · exact absurd hlt (lt_irrefl _)
  · exact absurd hlt (lt_asymm (happend _ _ hmore))

/-- Paths that lead on from one directory are arranged as the names that they lead through. -/
theorem arrange_append (before : String) (order : SearchOrder) (found : List (List String)) :
    arrange (fun names => before ++ ofNames names) order found = arrange ofNames order found := by
  cases order with
  | asListed => rfl
  | byPath => simp only [arrange, sortBy, append_lt_append_iff]

/-! ## The search -/

/-- A pattern below a directory finds the paths, from the trimmed path of the directory, through
these names, in the order of the search. -/
theorem search_join (h : t.IsSound) (hpath : t.locate path = .ok place)
    (hplace : t.holdsDirectory place = true) (hplain : hasWildcard path = false) {last : String}
    (hlast : hasWildcard last = true) (hdeep : last ≠ "**") (hslash : '/' ∉ last.toList)
    (hshown : isHidden last = false) :
    search t (Path.join path ("**/" ++ last)) =
      .ok ((arrange ofNames t.order (foundNames t (Path.trimmed path) place last)).map
        fun names => Path.join (Path.trimmed path) (ofNames names)) := by
  have htrimmed := locate_trimmed hpath
  obtain ⟨hnull, hempty, -⟩ := checkPath_eq_ok_iff.1 (locate_eq_ok_iff.1 htrimmed).1
  have hpathEmpty := (checkPath_eq_ok_iff.1 (locate_eq_ok_iff.1 hpath).1).2.1
  have hjoin : ∀ names ∈ foundNames t (Path.trimmed path) place last,
      Path.join (Path.trimmed path) (ofNames names) =
        Path.slashed (Path.trimmed path) ++ ofNames names := by
    intro names hfound
    obtain ⟨-, -, -, hstands, -⟩ := (mem_foundNames_iff h htrimmed hplace hshown).1 hfound
    exact Path.join_ofNames hempty (h.isName_below hstands)
  have hwild : hasWildcard (Path.join path ("**/" ++ last)) = true := by
    rw [Path.join_eq hpathEmpty (by simp), hasWildcard, String.toList_append, String.toList_append,
      List.any_append, List.any_append]
    simp
  rw [search, hwild, Bool.not_true, if_neg Bool.false_ne_true,
    ofText_join hpathEmpty hplain hlast hdeep hslash]
  simp only [List.contains_iff_mem, hnull, if_false, expand_eq h htrimmed hplace hshown]
  rw [List.map_congr_left hjoin, arrange_map]
  refine congrArg Except.ok ?_
  rw [show id ∘ (fun names => Path.slashed (Path.trimmed path) ++ ofNames names) =
    fun names => Path.slashed (Path.trimmed path) ++ ofNames names from rfl, arrange_append]
  exact List.map_congr_left fun names hfound =>
    (hjoin names ((mem_arrange_iff _ _).1 hfound)).symm

end Glob
end FeatureCensus
