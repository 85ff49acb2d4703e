import FeatureCensus.Files.FileTree
import FeatureCensus.Proofs.Files.Paths
import Mathlib.Data.List.Nodup

/-!
# Sound file trees

In a file system no place is listed twice, and everything stands by its name in a directory.  So
names lead from a directory to whatever stands there, and the path through them finds it unless
the path is too long.

Main results:

- Theorem {lit}`FileTree.IsSound.follow_eq_ok`: names lead to what stands there.
- Theorem {lit}`FileTree.eq_resolveFrom_of_follow`: names lead nowhere but where their text does.
- Theorem {lit}`FileTree.IsSound.locate_join`: what the path through names finds.
-/

namespace FeatureCensus
namespace FileTree

open FeatureCensus.Path (IsName ofNames)

variable {γ : Type} {t : FileTree γ} {place : Location} {names : List String}

/-! ## Soundness -/

/-- Whether a tree is one of a file system: no place is listed twice, and everything stands by
its name, which is not too long, in a directory. -/
structure IsSound (t : FileTree γ) : Prop where
  distinct : (t.nodes.map (·.1)).Nodup
  named : ∀ entry ∈ t.nodes, ∀ name ∈ entry.1, IsName name ∧ t.strays.byteSize name ≤ nameLimit
  housed : ∀ entry ∈ t.nodes, t.isDirectoryAt entry.1.dropLast = true

theorem isDirectoryAt_iff : t.isDirectoryAt place = true ↔
    t.node? place = some .directory ∨ t.node? place = some .unlisted := by
  unfold isDirectoryAt
  split <;> simp_all

/-- A directory that may be entered is one. -/
theorem holdsDirectory_of_isDirectoryAt (h : t.isDirectoryAt place = true) :
    t.holdsDirectory place = true := by
  rcases isDirectoryAt_iff.1 h with hnode | hnode <;> rw [holdsDirectory, hnode]

theorem isSome_node?_of_holdsDirectory (h : t.holdsDirectory place = true) :
    (t.node? place).isSome = true := by
  unfold holdsDirectory at h
  split at h <;> simp_all

theorem isSome_node?_of_isDirectoryAt (h : t.isDirectoryAt place = true) :
    (t.node? place).isSome = true :=
  isSome_node?_of_holdsDirectory (holdsDirectory_of_isDirectoryAt h)

theorem node?_eq_lookup (h : place ≠ []) : t.node? place = t.nodes.lookup place := by
  rw [node?, if_neg (by simpa using h)]

namespace IsSound

/-- What is listed stands at its place, and nothing else does. -/
theorem mem_nodes_iff (h : t.IsSound) (hne : place ≠ []) {node : FileNode γ} :
    (place, node) ∈ t.nodes ↔ t.node? place = some node := by
  rw [node?_eq_lookup hne]
  refine ⟨fun hmem => ?_, Association.mem_of_lookup⟩
  cases hlookup : t.nodes.lookup place with
  | none =>
    rw [List.lookup_eq_none_iff] at hlookup
    simpa using hlookup _ hmem
  | some other =>
    have hsame := List.inj_on_of_nodup_map h.distinct (Association.mem_of_lookup hlookup) hmem rfl
    rw [(Prod.mk.inj hsame).2]

/-- What stands somewhere has names on the way to it. -/
theorem isName_of_isSome (h : t.IsSound) (hstands : (t.node? place).isSome = true) :
    ∀ name ∈ place, IsName name ∧ t.strays.byteSize name ≤ nameLimit := by
  by_cases hne : place = []
  · simp [hne]
  · obtain ⟨node, hnode⟩ := Option.isSome_iff_exists.1 hstands
    exact h.named _ ((h.mem_nodes_iff hne).2 hnode)

theorem isName_below (h : t.IsSound) (hstands : (t.node? (place ++ names)).isSome = true) :
    ∀ name ∈ names, IsName name :=
  fun name hname => (h.isName_of_isSome hstands name (List.mem_append_right place hname)).1

/-- What stands somewhere stands in a directory. -/
theorem isDirectoryAt_dropLast (h : t.IsSound) (hstands : (t.node? place).isSome = true) :
    t.isDirectoryAt place.dropLast = true := by
  by_cases hne : place = []
  · rw [hne]
    rfl
  · obtain ⟨node, hnode⟩ := Option.isSome_iff_exists.1 hstands
    exact h.housed _ ((h.mem_nodes_iff hne).2 hnode)

/-- Above what stands somewhere there are directories. -/
theorem isDirectoryAt_above (h : t.IsSound) (hne : names ≠ [])
    (hstands : (t.node? (place ++ names)).isSome = true) : t.isDirectoryAt place = true := by
  induction names using List.reverseRecOn with
  | nil => exact absurd rfl hne
  | append_singleton init last ih =>
    have habove := h.isDirectoryAt_dropLast hstands
    rw [← List.append_assoc, List.dropLast_concat] at habove
    by_cases hinit : init = []
    · rwa [hinit, List.append_nil] at habove
    · exact ih hinit (isSome_node?_of_isDirectoryAt habove)

end IsSound

/-! ## Following names -/

theorem enter_eq_ok_iff {name : String} {next : Location} :
    t.enter place name = .ok next ↔
      t.isDirectoryAt place = true ∧ t.strays.byteSize name ≤ nameLimit ∧
        next = Path.resolveName place name := by
  unfold enter
  by_cases hplace : t.isDirectoryAt place = true
  · by_cases hsize : nameLimit < t.strays.byteSize name
    · simp [hplace, hsize, Nat.not_le.2 hsize]
    · simp [hplace, hsize, Nat.not_lt.1 hsize, eq_comm]
  · simp [hplace]

theorem enter_of_isName {name : String} (hdirectory : t.isDirectoryAt place = true)
    (hname : IsName name) (hsize : t.strays.byteSize name ≤ nameLimit) :
    t.enter place name = .ok (place ++ [name]) := by
  rw [enter, hdirectory, if_neg (by simp), if_neg (Nat.not_lt.2 hsize),
    Path.resolveName_of_isName hname]

theorem follow_append (first second : List String) (place : Location) :
    t.follow (first ++ second) place = (t.follow first place).bind (t.follow second) := by
  rw [follow, List.foldlM_append]
  rfl

theorem follow_cons (name : String) (rest : List String) (place : Location) :
    t.follow (name :: rest) place = (t.step place name).bind (t.follow rest) := by
  rw [follow, List.foldlM_cons]
  rfl

theorem follow_singleton (name : String) (place : Location) :
    t.follow [name] place = t.step place name := by
  rw [follow_cons]
  cases t.step place name <;> rfl

theorem eq_resolveName_of_step {name : String} {next : Location}
    (h : t.step place name = .ok next) : next = Path.resolveName place name := by
  unfold step enter at h
  split at h
  · cases h
  · rename_i reached hreached
    split at hreached
    · cases hreached
    · split at hreached
      · cases hreached
      · obtain rfl := Except.ok.inj hreached
        split at h
        · exact (Except.ok.inj h).symm
        · cases h

/-- Names lead nowhere but where their text does. -/
theorem eq_resolveFrom_of_follow {reached : Location} (h : t.follow names place = .ok reached) :
    reached = Path.resolveFrom place names := by
  induction names generalizing place with
  | nil => exact (Except.ok.inj h).symm
  | cons name rest ih =>
    rw [follow_cons] at h
    cases hstep : t.step place name with
    | error fault => rw [hstep] at h; cases h
    | ok next =>
      rw [hstep] at h
      rw [ih h, eq_resolveName_of_step hstep]
      rfl

/-- Names lead from a directory to what stands there. -/
theorem IsSound.follow_eq_ok (h : t.IsSound) (hdirectory : t.isDirectoryAt place = true)
    (hstands : (t.node? (place ++ names)).isSome = true) :
    t.follow names place = .ok (place ++ names) := by
  induction names generalizing place with
  | nil => rw [List.append_nil]; rfl
  | cons name rest ih =>
    have hsplit : place ++ name :: rest = (place ++ [name]) ++ rest := by simp
    rw [hsplit] at hstands ⊢
    obtain ⟨hname, hsize⟩ := h.isName_of_isSome hstands name (by simp)
    have hnext : t.step place name = .ok (place ++ [name]) := by
      have hthere : (t.node? (place ++ [name])).isSome = true := by
        by_cases hrest : rest = []
        · rwa [hrest, List.append_nil] at hstands
        · exact isSome_node?_of_isDirectoryAt (h.isDirectoryAt_above hrest hstands)
      rw [step, enter_of_isName hdirectory hname hsize]
      simp only [hthere, if_true]
    rw [follow_cons, hnext]
    by_cases hrest : rest = []
    · rw [hrest, List.append_nil]
      rfl
    · exact ih (h.isDirectoryAt_above hrest hstands) hstands

theorem isSome_of_step {name : String} {reached : Location} (h : t.step place name = .ok reached) :
    (t.node? reached).isSome = true := by
  rw [step] at h
  cases henter : t.enter place name with
  | error fault => rw [henter] at h; cases h
  | ok next =>
    rw [henter] at h
    dsimp only at h
    split at h
    · obtain rfl := Except.ok.inj h
      assumption
    · cases h

/-- Where names lead to something stands. -/
theorem isSome_of_follow {reached : Location} (hne : names ≠ [])
    (h : t.follow names place = .ok reached) :
    (t.node? reached).isSome = true := by
  obtain ⟨init, last, rfl⟩ := (List.eq_nil_or_concat' names).resolve_left hne
  rw [follow_append] at h
  cases hinit : t.follow init place with
  | error fault => rw [hinit] at h; cases h
  | ok mid =>
    rw [hinit] at h
    change t.follow [last] mid = .ok reached at h
    rw [follow_cons] at h
    cases hstep : t.step mid last with
    | error fault => rw [hstep] at h; cases h
    | ok next =>
      rw [hstep] at h
      obtain rfl : next = reached := Except.ok.inj h
      exact isSome_of_step hstep

theorem isDirectoryAt_of_step {name : String} {next : Location}
    (h : t.step place name = .ok next) :
    t.isDirectoryAt place = true := by
  rw [step] at h
  cases henter : t.enter place name with
  | error fault => rw [henter] at h; cases h
  | ok entered => exact (enter_eq_ok_iff.1 henter).1

/-- Names only lead on from a directory. -/
theorem isDirectoryAt_of_follow {reached : Location} (hne : names ≠ [])
    (h : t.follow names place = .ok reached) :
    t.isDirectoryAt place = true := by
  obtain ⟨name, later, rfl⟩ := List.exists_cons_of_ne_nil hne
  rw [follow_cons] at h
  cases hstep : t.step place name with
  | error fault => rw [hstep] at h; cases h
  | ok next => exact isDirectoryAt_of_step hstep

/-- An empty component and a dot lead from a directory back to it. -/
theorem step_self {name : String} (hname : name = "" ∨ name = ".")
    (hdirectory : t.isDirectoryAt place = true) : t.step place name = .ok place := by
  have hthere := isSome_node?_of_isDirectoryAt hdirectory
  rw [step, enter, hdirectory, if_neg (by simp)]
  rcases hname with rfl | rfl
  · rw [if_neg (by simp)]
    simp only [Path.resolveName, beq_self_eq_true, Bool.true_or, if_true, hthere]
  · rw [if_neg (by simp [nameLimit])]
    simp only [Path.resolveName, beq_self_eq_true, Bool.or_true, if_true, hthere]

theorem follow_empty (hdirectory : t.isDirectoryAt place = true) :
    t.follow [""] place = .ok place := by
  rw [follow_cons, step_self (.inl rfl) hdirectory]
  rfl

/-- Dots lead nowhere, however many there are. -/
theorem follow_replicate_dot (hdirectory : t.isDirectoryAt place = true) (k : Nat) :
    t.follow (List.replicate k "." ++ names) place = t.follow names place := by
  induction k with
  | zero => rfl
  | succ k ih =>
    rw [List.replicate_succ, List.cons_append, follow_cons, step_self (.inr rfl) hdirectory]
    exact ih

theorem eq_of_follow_empty {reached : Location} (h : t.follow [""] place = .ok reached) :
    reached = place := by
  rw [eq_resolveFrom_of_follow h]
  rfl

/-! ## Finding paths -/

theorem checkPath_eq_ok_iff {path : String} :
    t.checkPath path = .ok () ↔
      '\x00' ∉ path.toList ∧ path ≠ "" ∧ t.strays.byteSize path ≤ pathLimit := by
  unfold checkPath
  by_cases hnull : '\x00' ∈ path.toList
  · simp [hnull]
  · by_cases hempty : path = ""
    · simp [hempty]
    · by_cases hsize : pathLimit < t.strays.byteSize path
      · simp [hnull, hempty, hsize]
      · simp [hnull, hempty, hsize, Nat.not_lt.1 hsize]

theorem checkPath_of_long {path : String} (hnull : '\x00' ∉ path.toList) (hempty : path ≠ "")
    (hsize : pathLimit < t.strays.byteSize path) :
    t.checkPath path = .error (.refused .nameTooLong path) := by
  simp [checkPath, hnull, hempty, hsize]

/-- A path without a character that no path can hold is followed or refused. -/
theorem locate_ne_embeddedNull {path : String} (hnull : '\x00' ∉ path.toList) :
    t.locate path ≠ .error .embeddedNull := by
  intro hlocate
  rw [locate, checkPath, if_neg (by simpa using hnull)] at hlocate
  split at hlocate
  · rename_i error hcheck
    obtain rfl := Except.error.inj hlocate
    split at hcheck
    · cases hcheck
    · split at hcheck <;> cases hcheck
  · split at hlocate <;> cases hlocate

/-- A path is found if it can be followed and its components lead somewhere. -/
theorem locate_eq_ok_iff {path : String} :
    t.locate path = .ok place ↔
      t.checkPath path = .ok () ∧
        t.follow (Path.components path) (Path.origin path) = .ok place := by
  unfold locate
  cases t.checkPath path with
  | error error => simp
  | ok done => cases t.follow (Path.components path) (Path.origin path) <;> simp

/-- Something stands where a path leads. -/
theorem isSome_of_locate {path : String} (h : t.locate path = .ok place) :
    (t.node? place).isSome = true :=
  isSome_of_follow (Path.components_ne_nil path) (locate_eq_ok_iff.1 h).2

theorem origin_slashed {path : String} (hpath : path ≠ "") (rest : String) :
    Path.origin (Path.slashed path ++ rest) = Path.origin path := by
  obtain ⟨c, cs, hcs⟩ := List.exists_cons_of_ne_nil
    (fun hnil => hpath (String.toList_eq_nil_iff.1 hnil))
  have hhead : (Path.slashed path ++ rest).toList.head? = path.toList.head? := by
    by_cases hlast : path.toList.getLast? = some '/'
    · rw [Path.slashed_of_getLast? hlast, String.toList_append, hcs]
      rfl
    · rw [Path.slashed_of_ne hlast, String.toList_append, String.toList_append, hcs]
      rfl
  rw [Path.origin, Path.origin, Path.isAbsolute, Path.isAbsolute, hhead]

/-- From a directory that a path finds, the names that lead on lead to what stands there. -/
theorem IsSound.follow_join (h : t.IsSound) {path : String} (hpath : t.locate path = .ok place)
    (hdirectory : t.isDirectoryAt place = true)
    (hstands : (t.node? (place ++ names)).isSome = true) :
    t.follow (Path.components (Path.join path (ofNames names)))
      (Path.origin (Path.join path (ofNames names))) = .ok (place ++ names) := by
  obtain ⟨hcheck, hfollow⟩ := locate_eq_ok_iff.1 hpath
  have hempty := (checkPath_eq_ok_iff.1 hcheck).2.1
  have hnames := h.isName_below hstands
  obtain ⟨trunk, htrunk, hcomponents⟩ := Path.exists_trunk path
  have hplace : t.follow trunk (Path.origin path) = .ok place := by
    rcases htrunk with htrunk | htrunk
    · rwa [htrunk] at hfollow
    · rw [htrunk, follow_append] at hfollow
      cases hreached : t.follow trunk (Path.origin path) with
      | error fault => rw [hreached] at hfollow; cases hfollow
      | ok reached =>
        rw [hreached] at hfollow
        rw [eq_of_follow_empty hfollow]
  rw [Path.join_ofNames hempty hnames, origin_slashed hempty, hcomponents, follow_append, hplace]
  by_cases hne : names = []
  · rw [hne, List.append_nil]
    exact follow_empty hdirectory
  · rw [Path.components_ofNames hne fun name hname => (hnames name hname).noSlash]
    exact h.follow_eq_ok hdirectory hstands

/-- A path that finds something leads there by its text. -/
theorem resolve_of_locate {path : String} (h : t.locate path = .ok place) :
    Path.resolve path = place :=
  (eq_resolveFrom_of_follow (locate_eq_ok_iff.1 h).2).symm

/-- A path that finds something leads there through names. -/
theorem IsSound.isName_of_mem_resolve (h : t.IsSound) {path : String}
    (hpath : t.locate path = .ok place) : ∀ name ∈ Path.resolve path, IsName name := by
  rw [resolve_of_locate hpath]
  exact fun name hname => (h.isName_of_isSome (isSome_of_locate hpath) name hname).1

theorem IsSound.resolve_join (h : t.IsSound) {path : String} (hpath : t.locate path = .ok place)
    (hdirectory : t.isDirectoryAt place = true)
    (hstands : (t.node? (place ++ names)).isSome = true) :
    Path.resolve (Path.join path (ofNames names)) = place ++ names :=
  (eq_resolveFrom_of_follow (h.follow_join hpath hdirectory hstands)).symm

/-- From a directory that a path finds, the path through names finds what stands there, unless it
is too long to be followed. -/
theorem IsSound.locate_join (h : t.IsSound) {path : String} (hpath : t.locate path = .ok place)
    (hdirectory : t.isDirectoryAt place = true)
    (hstands : (t.node? (place ++ names)).isSome = true) :
    t.locate (Path.join path (ofNames names)) =
      if pathLimit < t.strays.byteSize (Path.join path (ofNames names)) then
        .error (.refused .nameTooLong (Path.join path (ofNames names)))
      else .ok (place ++ names) := by
  obtain ⟨hnull, hempty, -⟩ := checkPath_eq_ok_iff.1 (locate_eq_ok_iff.1 hpath).1
  have hnames := h.isName_below hstands
  have hjoined := Path.join_ofNames hempty hnames
  have hjoinedNull : '\x00' ∉ (Path.join path (ofNames names)).toList := by
    rw [hjoined, String.toList_append, List.mem_append, not_or]
    refine ⟨Path.not_mem_slashed (by decide) hnull, fun hmem => ?_⟩
    rcases Path.mem_ofNames hmem with hslash | ⟨name, hname, hmem⟩
    · cases hslash
    · exact (hnames name hname).noNull hmem
  have hjoinedEmpty : Path.join path (ofNames names) ≠ "" := by
    rw [hjoined, Ne, String.append_eq_empty_iff]
    exact fun hboth => Path.slashed_ne_empty path hboth.1
  split
  · rename_i hsize
    rw [locate, checkPath_of_long hjoinedNull hjoinedEmpty hsize]
  · rename_i hsize
    exact locate_eq_ok_iff.2
      ⟨checkPath_eq_ok_iff.2 ⟨hjoinedNull, hjoinedEmpty, Nat.not_lt.1 hsize⟩,
        h.follow_join hpath hdirectory hstands⟩

end FileTree
end FeatureCensus
