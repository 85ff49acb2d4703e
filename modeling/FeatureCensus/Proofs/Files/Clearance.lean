import FeatureCensus.Proofs.Files.SoundTrees
import FeatureCensus.Proofs.Files.Ways

/-!
# Paths that lead up

A path that leads up comes to where its text says only if it can be followed as far as it leads up;
a path that never leads up has nothing to be followed so far.  What is missing on the way of such a
path stands above the place that it comes to, and the path exists if something stands at that place.

Main results:

- Theorem {lit}`FileTree.Clears.join`: a path may lead on from one that can be followed so far.
- Theorem {lit}`FileTree.IsOnWay.of_parent`: what is missing on the way of the path above another
  one is missing on the way of that one.
- Theorem {lit}`FileTree.IsSound.exists_iff`: when a path exists that can be followed so far.
-/

namespace FeatureCensus
namespace FileTree

open FeatureCensus.Path (IsStraight isPlain)

variable {γ : Type} {t : FileTree γ} {place reached : Location} {names : List String}
  {path other : String} {cs : List Char}

/-- Names that lead somewhere do so step by step. -/
theorem follow_append_eq_ok {first second : List String} :
    t.follow (first ++ second) place = .ok reached ↔
      ∃ between, t.follow first place = .ok between ∧ t.follow second between = .ok reached := by
  rw [follow_append]
  cases t.follow first place with
  | error fault => simp [Except.bind]
  | ok between => simp [Except.bind]

/-! ## Following a path as far as it leads up -/

/-- Whether a path can be followed as far as it leads up. -/
def Clears (t : FileTree γ) (path : String) : Prop :=
  ∀ names, names ++ [".."] <+: Path.plain path →
    ∃ place, t.follow (names ++ [".."]) (Path.origin path) = .ok place

/-- A path that never leads up has nothing to be followed so far. -/
theorem clears_of_isStraight (t : FileTree γ) (h : IsStraight path) : t.Clears path := by
  intro names hnames
  refine absurd (hnames.subset ?_) (Path.isStraight_iff.1 h)
  simp

example : (empty : FileTree Unit).Clears "../b" := by
  rintro names ⟨more, hmore⟩
  have hplain : Path.plain "../b" = ["..", "b"] := by decide +kernel
  rw [hplain] at hmore
  cases names with
  | nil => exact ⟨[], by decide +kernel⟩
  | cons first rest =>
    have hrest : rest ++ [".."] ++ more = ["b"] := (List.cons.inj hmore).2
    have hmem : ".." ∈ rest ++ [".."] ++ more := by simp
    rw [hrest] at hmem
    simp at hmem

namespace Clears

theorem of_begins (h : t.Clears other) (horigin : Path.origin path = Path.origin other)
    (hplain : Path.plain path <+: Path.plain other) : t.Clears path := by
  intro names hnames
  rw [horigin]
  exact h names (hnames.trans hplain)

/-- A path may lead on from one that can be followed as far as it leads up. -/
theorem join {rest : String} (h : t.Clears path) (hrest : Path.isAbsolute rest = false)
    (hstraight : IsStraight rest) : t.Clears (Path.join path rest) := by
  intro names hnames
  rw [Path.origin_join path hrest]
  rw [Path.plain_join path hrest] at hnames
  rcases List.prefix_or_prefix_of_prefix hnames (List.prefix_append _ _) with hbegins | hbegins
  · exact h names hbegins
  · obtain ⟨more, hmore⟩ := hbegins
    by_cases hnone : more = []
    · rw [hnone, List.append_nil] at hmore
      exact h names (hmore ▸ List.prefix_rfl)
    · -- Otherwise the path leads up in what it leads on through.
      rw [← hmore, List.prefix_append_right_inj] at hnames
      have hlast : more.getLast? = some ".." := by
        rw [← List.getLast?_append_of_ne_nil (Path.plain path) hnone, hmore, List.getLast?_concat]
      exact absurd (hnames.subset (List.mem_of_getLast? hlast)) (Path.isStraight_iff.1 hstraight)

end Clears

/-- Where a path leads up from there is a directory. -/
theorem Clears.isDirectoryAt_resolve (h : t.Clears other)
    (horigin : Path.origin path = Path.origin other) {more : List String}
    (hplain : Path.plain path ++ more = Path.plain other) (hup : ".." ∈ more) :
    t.isDirectoryAt (Path.resolve path) = true := by
  obtain ⟨before, after, rfl⟩ := List.append_of_mem hup
  have hbegins : Path.plain path ++ before ++ [".."] <+: Path.plain other := by
    rw [← hplain]
    simp
  obtain ⟨last, hlast⟩ := h _ hbegins
  rw [List.append_assoc, follow_append_eq_ok] at hlast
  obtain ⟨between, hbetween, hrest⟩ := hlast
  rw [Path.resolve_eq, horigin, ← eq_resolveFrom_of_follow hbetween]
  exact isDirectoryAt_of_follow (by simp) hrest

/-- The plain components of a path are those as far as it leads up and those that lead on. -/
theorem exists_ascent (path : String) :
    ∃ up down, Path.plain path = up ++ down ∧ ".." ∉ down ∧
      (up = [] ∨ ∃ names, up = names ++ [".."]) := by
  by_cases hup : ".." ∈ Path.plain path
  · obtain ⟨after, before, hsplit, hlast⟩ :=
      List.eq_append_cons_of_mem (List.mem_reverse.2 hup)
    refine ⟨before.reverse ++ [".."], after.reverse, ?_, by simpa using hlast, .inr ⟨_, rfl⟩⟩
    rw [← List.reverse_inj, hsplit]
    simp
  · exact ⟨[], _, rfl, hup, .inl rfl⟩

/-- Where a path comes to from where it leads up for the last time. -/
theorem Clears.exists_ascent (h : t.Clears path) :
    ∃ up down between, Path.plain path = up ++ down ∧
      t.follow up (Path.origin path) = .ok between ∧ Path.resolve path = between ++ down := by
  obtain ⟨up, down, hplain, hdown, hup⟩ := FileTree.exists_ascent path
  have hfollow : ∃ between, t.follow up (Path.origin path) = .ok between := by
    rcases hup with rfl | ⟨names, rfl⟩
    · exact ⟨_, rfl⟩
    · exact h names (hplain ▸ List.prefix_append _ _)
  obtain ⟨between, hbetween⟩ := hfollow
  have hnames : ∀ name ∈ down, isPlain name = true := by
    intro name hname
    have hmem : name ∈ Path.plain path := hplain ▸ List.mem_append_right up hname
    exact (List.mem_filter.1 hmem).2
  refine ⟨up, down, between, hplain, hbetween, ?_⟩
  rw [Path.resolve_eq, hplain, Path.resolveFrom_append, ← eq_resolveFrom_of_follow hbetween]
  exact Path.resolveFrom_plain hnames hdown between

/-! ## Places on the way -/

/-- Whether a place is on the way of a path in a tree of a file system, and no directory there yet,
if the path can be followed as far as it leads up. -/
def IsOnWay (t : FileTree γ) (path : String) (place : Location) : Prop :=
  t.IsSound → t.Clears path → t.holdsDirectory place = false ∧ place <+: Path.resolve path

theorem isOnWay_resolve (h : t.holdsDirectory (Path.resolve path) = false) :
    t.IsOnWay path (Path.resolve path) :=
  fun _ _ => ⟨h, List.prefix_rfl⟩

theorem IsSound.isDirectoryAt_of_prefix (h : t.IsSound) (hplace : place <+: reached)
    (hreached : t.isDirectoryAt reached = true) : t.isDirectoryAt place = true := by
  obtain ⟨more, rfl⟩ := hplace
  by_cases hmore : more = []
  · rwa [hmore, List.append_nil] at hreached
  · exact h.isDirectoryAt_above hmore (isSome_node?_of_isDirectoryAt hreached)

theorem IsOnWay.of_begins (h : t.IsOnWay path place)
    (horigin : Path.origin path = Path.origin other)
    (hplain : Path.plain path <+: Path.plain other) : t.IsOnWay other place := by
  intro hsound hclears
  obtain ⟨hnew, hplace⟩ := h hsound (hclears.of_begins horigin hplain)
  obtain ⟨more, hmore⟩ := hplain
  by_cases hup : ".." ∈ more
  · -- The path above comes to a directory, so that nothing is missing on its way.
    have hdirectory := hclears.isDirectoryAt_resolve horigin hmore hup
    have hthere :=
      holdsDirectory_of_isDirectoryAt (hsound.isDirectoryAt_of_prefix hplace hdirectory)
    rw [hnew] at hthere
    cases hthere
  · have hnames : ∀ name ∈ more, isPlain name = true := by
      intro name hname
      have hmem : name ∈ Path.plain other := hmore ▸ List.mem_append_right _ hname
      exact (List.mem_filter.1 hmem).2
    refine ⟨hnew, hplace.trans ?_⟩
    rw [Path.resolve_eq other, ← hmore, Path.resolveFrom_append, ← horigin, ← Path.resolve_eq,
      Path.resolveFrom_plain hnames hup]
    exact List.prefix_append _ _

/-- What is missing on the way of the path above another one is missing on the way of that one. -/
theorem IsOnWay.of_parent
    (h : t.IsOnWay (String.ofList (Path.parentAndName cs).1) place) :
    t.IsOnWay (String.ofList cs) place :=
  h.of_begins (Path.origin_parent cs) (Path.plain_parent cs)

theorem IsOnWay.of_split (h : t.IsOnWay (String.ofList (Path.split cs).1) place) :
    t.IsOnWay (String.ofList cs) place :=
  h.of_begins (Path.origin_split cs) ⟨_, (Path.plain_split cs).symm⟩

/-! ## Existing paths -/

theorem step_of_not_isPlain {name : String} (hname : isPlain name = false)
    (hplace : t.isDirectoryAt place = true) : t.step place name = .ok place := by
  refine step_self ?_ hplace
  by_contra hneither
  rw [not_or] at hneither
  simp [isPlain, hneither] at hname

/-- Components lead where the plain ones lead, if the last one is plain. -/
theorem follow_of_filter (hlast : ∀ last, names.getLast? = some last → isPlain last = true)
    (h : t.follow (names.filter isPlain) place = .ok reached) :
    t.follow names place = .ok reached := by
  induction names generalizing place with
  | nil => exact h
  | cons name rest ih =>
    have hrest : ∀ last, rest.getLast? = some last → isPlain last = true := by
      intro last hlater
      refine hlast last ?_
      rw [List.getLast?_cons, hlater]
      rfl
    rw [follow_cons]
    cases hname : isPlain name with
    | false =>
      -- Something plain follows, and it leads on from a directory only.
      rw [List.filter_cons_of_neg (by simp [hname])] at h
      have hmore : rest.filter isPlain ≠ [] := by
        cases hend : rest.getLast? with
        | none =>
          rw [List.getLast?_eq_none_iff.1 hend] at hlast
          exact absurd (hlast name rfl) (by simp [hname])
        | some last =>
          have hmem := List.mem_filter.2 ⟨List.mem_of_getLast? hend, hrest last hend⟩
          exact List.ne_nil_of_mem hmem
      rw [step_of_not_isPlain hname (isDirectoryAt_of_follow hmore h)]
      exact ih hrest h
    | true =>
      rw [List.filter_cons_of_pos hname, follow_cons] at h
      cases hstep : t.step place name with
      | error fault => rw [hstep] at h; cases h
      | ok next =>
        rw [hstep] at h
        exact ih hrest h

/-- The plain components of a path lead to where it comes to, if something stands there. -/
theorem IsSound.follow_plain (h : t.IsSound) (hclears : t.Clears path)
    (hstands : (t.node? (Path.resolve path)).isSome = true) :
    t.follow (Path.plain path) (Path.origin path) = .ok (Path.resolve path) := by
  obtain ⟨up, down, between, hplain, hbetween, hresolve⟩ := hclears.exists_ascent
  rw [hplain, hresolve, follow_append_eq_ok]
  refine ⟨between, hbetween, ?_⟩
  by_cases hdown : down = []
  · rw [hdown, List.append_nil]
    rfl
  · rw [hresolve] at hstands
    exact h.follow_eq_ok (h.isDirectoryAt_above hdown hstands) hstands

/-- A path with a plain last component that can be followed as far as it leads up exists if
something stands where it comes to. -/
theorem IsSound.exists_iff (h : t.IsSound) {init : List String} {last : String}
    (hpath : Path.components path = init ++ [last]) (hlast : isPlain last = true)
    (hclears : t.Clears path) :
    t.exists? path = true ↔
      t.checkPath path = .ok () ∧ (t.node? (Path.resolve path)).isSome = true := by
  rw [exists_eq_true_iff]
  constructor
  · rintro ⟨place, hplace⟩
    rw [resolve_of_locate hplace]
    exact ⟨(locate_eq_ok_iff.1 hplace).1, isSome_of_locate hplace⟩
  · rintro ⟨hcheck, hstands⟩
    refine ⟨Path.resolve path, locate_eq_ok_iff.2 ⟨hcheck, ?_⟩⟩
    refine follow_of_filter ?_ (h.follow_plain hclears hstands)
    intro other hother
    rw [hpath, List.getLast?_concat] at hother
    rwa [← Option.some.inj hother]

end FileTree
end FeatureCensus
