import FeatureCensus.Proofs.Corpus.Handovers
import FeatureCensus.Proofs.Corpus.Naming
import Mathlib.Algebra.Order.BigOperators.Group.List
import Mathlib.Algebra.Order.Group.Nat

/-!
# Staying inside the base directory

The full name of a repository is a text that a search page carries, and the places of its copy are
made from it.  The copy, the directory of the owner and all runs of version control are strictly
inside every base directory for some full names only: the owner has to be a name of an entry, and
the own name has to be relative, must never lead out of the base directory and must not come back to
it.  The usual full names are such, but an own name that begins with a slash is not, nor is one that
leads up too far, and nothing looks at a full name before its places are used.

Main results:

- Theorem {lit}`Path.isBelow_of_staysBelow`: names that stay below come to a place inside.
- Theorem {lit}`Path.not_isBelow_of_not_staysBelow`: other names do not.
- Theorem {lit}`Corpus.encloses_iff_isContained`: the repositories that stay inside every base
  directory.
- Theorem {lit}`Corpus.not_encloses_doubleSlash`: a repository that does not.
- Theorem {lit}`Corpus.runsInside_visitAll`: where all discovered repositories are such that they
  stay inside, version control runs inside the base directory only.
-/

namespace FeatureCensus

variable {σ : Type}

namespace Path

/-! ## Places inside a directory -/

/-- Whether a place is strictly inside a directory. -/
def IsBelow (base place : Location) : Prop :=
  base <+: place ∧ place ≠ base

instance (base place : Location) : Decidable (IsBelow base place) :=
  inferInstanceAs (Decidable (_ ∧ _))

/-- Whether a path leads to a place strictly inside the directory that another one leads to. -/
def IsInside (base path : String) : Prop :=
  IsBelow (resolve base) (resolve path)

instance (base path : String) : Decidable (IsInside base path) :=
  inferInstanceAs (Decidable (IsBelow _ _))

theorem isBelow_append {names : List String} (h : names ≠ []) (base : Location) :
    IsBelow base (base ++ names) := by
  refine ⟨List.prefix_append base names, ?_⟩
  intro heq
  exact h (List.append_right_eq_self.mp heq)

theorem not_isBelow_self (base : Location) : ¬ IsBelow base base :=
  fun h => h.2 rfl

/-- The directory above is not inside a directory. -/
theorem not_isBelow_dropLast (base : Location) : ¬ IsBelow base base.dropLast := by
  rintro ⟨hbegins, hne⟩
  exact hne (hbegins.eq_of_length_le (by simp)).symm

/-! ## Ways that stay inside -/

/-- Whether names that lead on from some depth below a directory never lead out of it and come to
a place inside it. -/
def staysBelow : Nat → List String → Bool
  | depth, [] => decide (0 < depth)
  | depth, name :: rest =>
    if !isPlain name then staysBelow depth rest
    else if name == ".." then decide (0 < depth) && staysBelow (depth - 1) rest
    else staysBelow (depth + 1) rest

theorem staysBelow_of_not_isPlain {name : String} (h : isPlain name = false) (depth : Nat)
    (rest : List String) : staysBelow depth (name :: rest) = staysBelow depth rest := by
  simp [staysBelow, h]

theorem staysBelow_up (depth : Nat) (rest : List String) :
    staysBelow depth (".." :: rest) = (decide (0 < depth) && staysBelow (depth - 1) rest) := by
  have hplain : isPlain ".." = true := by decide
  simp [staysBelow, hplain]

theorem staysBelow_of_isPlain {name : String} (h : isPlain name = true) (hup : name ≠ "..")
    (depth : Nat) (rest : List String) :
    staysBelow depth (name :: rest) = staysBelow (depth + 1) rest := by
  simp [staysBelow, h, hup]

theorem resolveFrom_cons (place : Location) (name : String) (rest : List String) :
    resolveFrom place (name :: rest) = resolveFrom (resolveName place name) rest := rfl

theorem resolveName_up (place : Location) : resolveName place ".." = place.dropLast := by
  rw [resolveName, if_neg (by decide), if_pos (by decide)]

/-- Names that stay below a directory come to a place inside it, whatever directory that is. -/
theorem isBelow_of_staysBelow {names rest : List String}
    (h : staysBelow names.length rest = true) (base : Location) :
    IsBelow base (resolveFrom (base ++ names) rest) := by
  induction rest generalizing names with
  | nil =>
    have hpos : 0 < names.length := by simpa [staysBelow] using h
    exact isBelow_append (List.ne_nil_of_length_pos hpos) base
  | cons name rest ih =>
    rw [resolveFrom_cons]
    by_cases hplain : isPlain name = true
    · by_cases hup : name = ".."
      · subst hup
        rw [staysBelow_up, Bool.and_eq_true, decide_eq_true_eq] at h
        obtain ⟨hpos, hrest⟩ := h
        have hne : names ≠ [] := List.ne_nil_of_length_pos hpos
        rw [resolveName_up, List.dropLast_append_of_ne_nil hne]
        apply ih
        rwa [List.length_dropLast]
      · rw [staysBelow_of_isPlain hplain hup] at h
        rw [resolveName_of_isPlain hplain hup, List.append_assoc]
        apply ih
        rwa [List.length_append]
    · have hplain : isPlain name = false := by simpa using hplain
      rw [staysBelow_of_not_isPlain hplain] at h
      rw [resolveName_of_not_isPlain hplain]
      exact ih h

/-- Into a directory at the root nothing leads from outside but its name. -/
theorem not_prefix_resolveFrom {c : String} {place : Location} {rest : List String}
    (hplace : ¬ [c] <+: place) (hrest : c ∉ rest) : ¬ [c] <+: resolveFrom place rest := by
  induction rest generalizing place with
  | nil => exact hplace
  | cons name rest ih =>
    rw [List.mem_cons, not_or] at hrest
    obtain ⟨hname, hrest⟩ := hrest
    rw [resolveFrom_cons]
    refine ih ?_ hrest
    unfold resolveName
    split
    · exact hplace
    · split
      · intro hbegins
        exact hplace (hbegins.trans (List.dropLast_prefix place))
      · intro hbegins
        cases place with
        | nil => simp [hname] at hbegins
        | cons first more =>
          apply hplace
          simpa using hbegins

/-- Names that do not stay below a directory do not come to a place inside it, unless they name
the directory itself. -/
theorem not_isBelow_of_not_staysBelow {c : String} {names rest : List String}
    (h : staysBelow names.length rest = false) (hrest : c ∉ rest) :
    ¬ IsBelow [c] (resolveFrom ([c] ++ names) rest) := by
  induction rest generalizing names with
  | nil =>
    have hempty : names = [] := by simpa [staysBelow] using h
    subst hempty
    exact not_isBelow_self [c]
  | cons name rest ih =>
    rw [List.mem_cons, not_or] at hrest
    obtain ⟨-, hrest⟩ := hrest
    rw [resolveFrom_cons]
    by_cases hplain : isPlain name = true
    · by_cases hup : name = ".."
      · subst hup
        rw [staysBelow_up] at h
        rw [resolveName_up]
        by_cases hne : names = []
        · subst hne
          intro hbelow
          exact not_prefix_resolveFrom (by simp) hrest hbelow.1
        · have hpos : 0 < names.length := List.length_pos_iff.mpr hne
          rw [List.dropLast_append_of_ne_nil hne]
          refine ih ?_ hrest
          rw [List.length_dropLast]
          simpa [hpos] using h
      · rw [staysBelow_of_isPlain hplain hup] at h
        rw [resolveName_of_isPlain hplain hup, List.append_assoc]
        refine ih ?_ hrest
        rwa [List.length_append]
    · have hplain : isPlain name = false := by simpa using hplain
      rw [staysBelow_of_not_isPlain hplain] at h
      rw [resolveName_of_not_isPlain hplain]
      exact ih h hrest

/-- There are always further names. -/
theorem exists_isPart_not_mem (names : List String) : ∃ name, IsPart name ∧ name ∉ names := by
  let name := String.ofList (List.replicate ((names.map String.length).sum + 3) 'a')
  have hlength : name.length = (names.map String.length).sum + 3 := by
    simp [name]
  refine ⟨name, ⟨?_, ?_, ?_, ?_⟩, ?_⟩
  · intro hempty
    rw [hempty, String.length_empty] at hlength
    omega
  · intro hself
    have hone : ".".length = 1 := by decide
    rw [hself, hone] at hlength
    omega
  · intro hparent
    have htwo : "..".length = 2 := by decide
    rw [hparent, htwo] at hlength
    omega
  · simp [name]
  · intro hmem
    have hle := List.le_sum_of_mem (List.mem_map_of_mem (f := String.length) hmem)
    omega

theorem resolve_slash {name : String} (h : IsPart name) : resolve ("/" ++ name) = [name] := by
  have hcomponents : components ("/" ++ name) = ["", name] := by
    have hslash := components_append_slash "" name
    rw [String.empty_append, h.components] at hslash
    exact hslash
  have horigin : origin ("/" ++ name) = [] := by
    rw [origin, isAbsolute, if_pos (by simp)]
  have hempty : isPlain "" = false := by decide
  rw [resolve, hcomponents, horigin, resolveFrom_cons, resolveFrom_cons,
    resolveName_of_not_isPlain hempty, resolveName_of_isPlain h.isPlain h.ne_parent]
  rfl

end Path

/-! ## Repositories -/

namespace Repo

variable {repo : Repo}

/-- Whether the name of a repository leads nowhere but to places inside any base directory: the
owner can be the name of an entry, and the own name leads on from there without leading out. -/
structure IsContained (repo : Repo) : Prop where
  owner : Path.IsPart repo.owner
  relative : Path.isAbsolute repo.name = false
  below : Path.staysBelow 1 (Path.components repo.name) = true

instance (repo : Repo) : Decidable repo.IsContained :=
  decidable_of_iff (Path.IsPart repo.owner ∧ Path.isAbsolute repo.name = false ∧
      Path.staysBelow 1 (Path.components repo.name) = true)
    ⟨fun ⟨howner, hrelative, hbelow⟩ => ⟨howner, hrelative, hbelow⟩,
      fun h => ⟨h.owner, h.relative, h.below⟩⟩

end Repo

/-! ## Corpora -/

namespace Corpus

variable {corpus : Corpus} {repo : Repo}

theorem resolve_pathTo_of_relative (corpus : Corpus) (h : Path.isAbsolute repo.name = false) :
    Path.resolve (corpus.pathTo repo) =
      Path.resolveFrom (Path.resolve (corpus.ownerDirectory repo)) (Path.components repo.name) :=
  Path.resolve_join_eq _ h

/-- The directory of an owner is inside the base directory exactly if the owner can be the name of
an entry. -/
theorem isInside_ownerDirectory_iff (corpus : Corpus) (repo : Repo) :
    Path.IsInside corpus.base (corpus.ownerDirectory repo) ↔ Path.IsPart repo.owner := by
  rw [Path.IsInside, resolve_ownerDirectory_eq]
  constructor
  · intro hinside
    refine ⟨?_, ?_, ?_, repo.noSlash_owner⟩
    · intro hempty
      rw [hempty, Path.resolveName_of_not_isPlain rfl] at hinside
      exact Path.not_isBelow_self _ hinside
    · intro hself
      rw [hself, Path.resolveName_of_not_isPlain rfl] at hinside
      exact Path.not_isBelow_self _ hinside
    · intro hparent
      rw [hparent, Path.resolveName_up] at hinside
      exact Path.not_isBelow_dropLast _ hinside
  · intro howner
    rw [Path.resolveName_of_isPlain howner.isPlain howner.ne_parent]
    exact Path.isBelow_append (List.cons_ne_nil _ _) _

/-- The copy of a contained repository is inside the base directory. -/
theorem isInside_pathTo (corpus : Corpus) (h : repo.IsContained) :
    Path.IsInside corpus.base (corpus.pathTo repo) := by
  rw [Path.IsInside, resolve_pathTo_of_relative corpus h.relative, resolve_ownerDirectory_eq,
    Path.resolveName_of_isPlain h.owner.isPlain h.owner.ne_parent]
  have hbelow : Path.staysBelow [repo.owner].length (Path.components repo.name) = true := h.below
  exact Path.isBelow_of_staysBelow hbelow _

/-- Where a relative name does not stay below, the copy is outside a base directory that is not
named on the way. -/
theorem exists_not_isInside_pathTo (howner : Path.IsPart repo.owner)
    (hrelative : Path.isAbsolute repo.name = false)
    (hbelow : Path.staysBelow 1 (Path.components repo.name) = false) :
    ∃ corpus : Corpus, ¬ Path.IsInside corpus.base (corpus.pathTo repo) := by
  obtain ⟨name, hpart, hnew⟩ := Path.exists_isPart_not_mem (Path.components repo.name)
  refine ⟨{ base := "/" ++ name }, ?_⟩
  rw [Path.IsInside, resolve_pathTo_of_relative _ hrelative, resolve_ownerDirectory_eq,
    Path.resolveName_of_isPlain howner.isPlain howner.ne_parent, Path.resolve_slash hpart]
  have hleaves : Path.staysBelow [repo.owner].length (Path.components repo.name) = false := hbelow
  exact Path.not_isBelow_of_not_staysBelow hleaves hnew

/-- Whether everything that a corpus does about a repository is strictly inside the base directory:
the local copy, the directory of the owner, the directories in which version control runs and the
target of the clone. -/
structure Encloses (corpus : Corpus) (repo : Repo) : Prop where
  copy : Path.IsInside corpus.base (corpus.pathTo repo)
  ownerDirectory : Path.IsInside corpus.base (corpus.ownerDirectory repo)
  target : Path.IsInside corpus.base
    ((Git.Command.clone repo.cloneAddress repo.name).target (corpus.ownerDirectory repo))
  runs : ∀ {σ : Type} (s : Situation σ) (arguments : List Json) (directory : String),
    .git arguments directory ∈ (Operation.mk repo s).runs corpus →
      Path.IsInside corpus.base directory

/-- What a corpus does about a contained repository is inside the base directory. -/
theorem encloses_of_isContained {repo : Repo} (corpus : Corpus) (h : repo.IsContained) :
    corpus.Encloses repo where
  copy := corpus.isInside_pathTo h
  ownerDirectory := (corpus.isInside_ownerDirectory_iff repo).mpr h.owner
  target := corpus.isInside_pathTo h
  runs := by
    intro σ s arguments directory hrun
    rcases Operation.eq_of_mem_runs hrun with heq | heq
    · obtain ⟨-, rfl⟩ := Event.git.inj heq
      exact corpus.isInside_pathTo h
    · obtain ⟨-, rfl⟩ := Event.git.inj heq
      exact (corpus.isInside_ownerDirectory_iff repo).mpr h.owner

/-- The repositories about which every corpus, whatever its base directory, does everything
strictly inside that directory are the contained ones. -/
theorem encloses_iff_isContained (repo : Repo) :
    (∀ corpus : Corpus, corpus.Encloses repo) ↔ repo.IsContained := by
  constructor
  · intro hencloses
    have howner : Path.IsPart repo.owner :=
      (isInside_ownerDirectory_iff { base := "" } repo).mp (hencloses _).ownerDirectory
    have hrelative : Path.isAbsolute repo.name = false := by
      by_contra habsolute
      rw [Bool.not_eq_false] at habsolute
      have hcopy := (hencloses { base := repo.name }).copy
      rw [pathTo, Path.join_of_absolute habsolute] at hcopy
      exact Path.not_isBelow_self _ hcopy
    refine ⟨howner, hrelative, ?_⟩
    by_contra hleaves
    rw [Bool.not_eq_true] at hleaves
    obtain ⟨corpus, houtside⟩ := exists_not_isInside_pathTo howner hrelative hleaves
    exact houtside (hencloses corpus).copy
  · intro hcontained corpus
    exact corpus.encloses_of_isContained hcontained

/-- An own name that begins with a slash is a place of its own. -/
theorem not_encloses_doubleSlash :
    let corpus : Corpus := { base := "b" }
    let repo := Repo.of "o//n" "u"
    corpus.pathTo repo = "/n" ∧ ¬ corpus.Encloses repo := by
  intro corpus repo
  have hpath : corpus.pathTo repo = "/n" := by decide +kernel
  refine ⟨hpath, ?_⟩
  intro hencloses
  have hinside := hencloses.copy
  rw [hpath] at hinside
  revert hinside
  decide +kernel

end Corpus

/-! ## Discovered repositories -/

/-- Whether between two situations version control runs inside a directory only. -/
def Situation.RunsInside (base : String) (s t : Situation σ) : Prop :=
  ∃ events, Situation.Adds Event.isGit events s t ∧
    ∀ arguments directory, .git arguments directory ∈ events → Path.IsInside base directory

namespace Situation.RunsInside

variable {base : String}

instance : IsPreorder (Situation σ) (Situation.RunsInside base) where
  refl s := ⟨[], s.adds_self _, by simp⟩
  trans s t u hst htu := by
    obtain ⟨before, hbefore, hinside⟩ := hst
    obtain ⟨later, hlater, hinside'⟩ := htu
    refine ⟨before ++ later, hbefore.trans hlater, ?_⟩
    intro arguments directory hmem
    rcases List.mem_append.mp hmem with hmem | hmem
    · exact hinside arguments directory hmem
    · exact hinside' arguments directory hmem

/-- Where version control does not run it runs nowhere else. -/
theorem of_adds_nil {s t : Situation σ} (h : Situation.Adds Event.isGit [] s t) :
    s.RunsInside base t :=
  ⟨[], h, by simp⟩

theorem log (level : Level) (message : String) :
    Action.Respects (RunsInside base) (Action.log level message : Action σ Unit) :=
  fun s => of_adds_nil (s.adds_record Event.isGit (.log level message))

theorem requestPage (source : Source) (page : Nat) :
    Action.Respects (RunsInside base) (Discovery.requestPage source page : Action σ Unit) := by
  unfold Discovery.requestPage
  refine .bind (log _ _) fun _ => .bind ?_ fun _ => ?_
  · intro s
    exact of_adds_nil (s.adds_record Event.isGit (.request _ _ page _))
  · intro s
    exact of_adds_nil (s.adds_self Event.isGit)

end Situation.RunsInside

namespace Corpus

variable {repo : Repo} {localOnly : Bool} {visit : String → Action σ Bool}

/-- Making sure of the copy of a contained repository runs version control inside the base
directory. -/
theorem runsInside_provide (corpus : Corpus) (h : repo.IsContained) (localOnly : Bool) :
    Action.Respects (Situation.RunsInside corpus.base)
      (corpus.provide localOnly repo : Action σ Bool) := by
  unfold provide
  split
  · exact .pure true
  · intro s
    let o : Operation σ := ⟨repo, s⟩
    have hinside : s.RunsInside corpus.base (o.finish corpus) :=
      ⟨o.runs corpus, corpus.adds_runs o, (corpus.encloses_of_isContained h).runs s⟩
    have hfinish : o.finish corpus = .endOf ((corpus.ensureLocal repo).run s) := rfl
    rw [hfinish] at hinside
    cases hrun : (corpus.ensureLocal repo).run s <;> rw [hrun] at hinside <;> exact hinside

theorem runsInside_handle (corpus : Corpus) {found : Found}
    (hcontained : ∀ repo, Repo.ofListed? found.listed = some repo → repo.IsContained)
    (hvisit : ∀ path, Action.Respects (Situation.RunsInside corpus.base) (visit path)) :
    Action.Respects (Situation.RunsInside corpus.base) (corpus.handle localOnly visit found) := by
  cases hrepo : Repo.ofListed? found.listed with
  | none =>
    rw [handle, hrepo]
    exact .throw _
  | some repo =>
    rw [handle, hrepo]
    refine .bind (.log _ _) fun _ => ?_
    refine .bind (corpus.runsInside_provide (hcontained repo hrepo) localOnly) fun available => ?_
    cases available with
    | true => exact hvisit _
    | false =>
      cases corpus.continueOnFailure with
      | true => exact .bind (.log _ _) fun _ => .pure true
      | false => exact .bind (.log _ _) fun _ => .pure false

/-- Where all discovered repositories are contained, version control runs inside the base directory
only, as far as the visitor runs it nowhere else. -/
theorem runsInside_visitAll (corpus : Corpus) (source : Source) (s : Situation σ)
    (hcontained : ∀ repo ∈ Discovery.repos (Discovery.steps source s.world.answers),
      repo.IsContained)
    (hvisit : ∀ path, Action.Respects (Situation.RunsInside corpus.base) (visit path)) :
    s.RunsInside corpus.base (.endOf ((corpus.visitAll source localOnly visit).run s)) := by
  have hrespects : Action.Respects (Situation.RunsInside corpus.base) (Discovery.pursue source
      (corpus.handle localOnly visit) (Discovery.steps source s.world.answers)) := by
    refine Discovery.respects_pursue (.requestPage source) _ ?_
    intro found hfound
    refine corpus.runsInside_handle ?_ hvisit
    intro repo hrepo
    refine hcontained repo (List.mem_filterMap.mpr ⟨_, hfound, ?_⟩)
    exact hrepo
  exact Action.respects_endOf hrespects s

end Corpus
end FeatureCensus
