import FeatureCensus.Proofs.Corpus.Histories

/-!
# The paths of copies

The path of a copy is the base directory joined with two more parts, the owner of the repository
and its own name, and a clone writes to its own name joined to the directory of the owner, in which
it runs.  Joining several parts at once is joining them one after the other, whichever of them are
empty, absolute or end with a slash, so a clone writes to the path of the copy.  The path is made of
the base directory and the full name alone.  Where full names consist of two parts it is the base
directory followed by the full name, so that no two of them share a path.

Main results:

- Theorem {lit}`Path.joinAll_cons`: parts are joined one after the other.
- Theorem {lit}`Operation.target_of_mem_runs`: version control works on the path of the copy.
- Theorem {lit}`Corpus.pathTo_of_hasTwoParts`: the path is the base directory and the full name.
- Theorem {lit}`Corpus.pathTo_names_copies`: the path of a copy is where its clone writes to,
  depends on the full name and tells it.
-/

namespace FeatureCensus

variable {σ : Type}

/-! ## Joining several parts -/

namespace Path

variable {path rest last : String} {parts : List String}

/-- What another part follows when it is joined to a path: the path with a slash at its end, or
nothing if the path is empty. -/
def opened (path : String) : String :=
  if path = "" then "" else slashed path

/-- The parts from the last absolute one on. -/
def fromLastAbsolute : List String → List String
  | [] => []
  | part :: rest => if rest.any isAbsolute then fromLastAbsolute rest else part :: rest

/-- The parts one after the other, with one slash after each but the last that is not empty. -/
def linked : List String → String
  | [] => ""
  | [last] => last
  | part :: rest => opened part ++ linked rest

/-- Several parts joined: those before the last absolute one do not matter, and the others are
linked by slashes. -/
def joinAll (parts : List String) : String :=
  linked (fromLastAbsolute parts)

theorem opened_of_ne (h : path ≠ "") : opened path = slashed path := if_neg h

/-- What is open can be followed without a further slash. -/
theorem opened_opened_append (path rest : String) :
    opened (opened path ++ rest) = opened path ++ opened rest := by
  by_cases hpath : path = ""
  · have hempty : opened path = "" := if_pos hpath
    rw [hempty, String.empty_append, String.empty_append]
  · have hne : slashed path ++ rest ≠ "" := by
      rw [Ne, String.append_eq_empty_iff, not_and_or]
      exact .inl (slashed_ne_empty path)
    rw [opened_of_ne hpath, opened_of_ne hne]
    by_cases hrest : rest = ""
    · have hempty : opened rest = "" := if_pos hrest
      rw [hempty, hrest, String.append_empty, slashed_of_getLast? (getLast?_slashed path)]
    · have hnil : rest.toList ≠ [] := fun hnil => hrest (String.toList_eq_nil_iff.mp hnil)
      have hlast : (slashed path ++ rest).toList.getLast? = rest.toList.getLast? := by
        rw [String.toList_append, List.getLast?_append_of_ne_nil _ hnil]
      rw [opened_of_ne hrest]
      by_cases hslash : rest.toList.getLast? = some '/'
      · rw [slashed_of_getLast? hslash, slashed_of_getLast? (hlast.trans hslash)]
      · rw [slashed_of_ne hslash, slashed_of_ne (by rwa [hlast]), String.append_assoc]

theorem join_of_absolute (h : isAbsolute rest = true) (path : String) : join path rest = rest := by
  have hhead : (rest.toList.head? == some '/') = true := h
  rw [join, joinChars, if_pos hhead, String.ofList_toList]

/-- A relative part follows what it is joined to. -/
theorem join_of_relative (h : isAbsolute rest = false) (path : String) :
    join path rest = opened path ++ rest := by
  by_cases hpath : path = ""
  · have hhead : (rest.toList.head? == some '/') = false := h
    have hempty : opened path = "" := if_pos hpath
    rw [hempty, hpath, join, joinChars, hhead, if_neg Bool.false_ne_true]
    simp
  · rw [join_eq hpath (head?_ne_of_isAbsolute h), opened_of_ne hpath]

theorem linked_concat (h : parts ≠ []) (last : String) :
    linked (parts ++ [last]) = opened (linked parts) ++ last := by
  induction parts with
  | nil => exact absurd rfl h
  | cons part rest ih =>
    cases rest with
    | nil => rfl
    | cons next more =>
      have hrest := ih (List.cons_ne_nil next more)
      calc linked (part :: next :: more ++ [last])
          = opened part ++ linked (next :: more ++ [last]) := rfl
        _ = opened part ++ opened (linked (next :: more)) ++ last := by
          rw [hrest, String.append_assoc]
        _ = opened (linked (part :: next :: more)) ++ last := by
          rw [← opened_opened_append]
          rfl

theorem fromLastAbsolute_ne_nil (h : parts ≠ []) : fromLastAbsolute parts ≠ [] := by
  induction parts with
  | nil => exact h
  | cons part rest ih =>
    rw [fromLastAbsolute]
    split
    · rename_i hany
      refine ih ?_
      rintro rfl
      cases hany
    · exact List.cons_ne_nil part rest

theorem fromLastAbsolute_concat_of_absolute (h : isAbsolute last = true) (parts : List String) :
    fromLastAbsolute (parts ++ [last]) = [last] := by
  induction parts with
  | nil => rfl
  | cons part rest ih =>
    have hany : (rest ++ [last]).any isAbsolute = true := by simp [h]
    rw [List.cons_append, fromLastAbsolute, if_pos hany, ih]

theorem fromLastAbsolute_concat_of_relative (h : isAbsolute last = false) (hne : parts ≠ []) :
    fromLastAbsolute (parts ++ [last]) = fromLastAbsolute parts ++ [last] := by
  induction parts with
  | nil => exact absurd rfl hne
  | cons part rest ih =>
    have hany : (rest ++ [last]).any isAbsolute = rest.any isAbsolute := by simp [h]
    rw [List.cons_append, fromLastAbsolute, fromLastAbsolute, hany]
    split
    · rename_i habsolute
      refine ih ?_
      rintro rfl
      cases habsolute
    · rfl

/-- The last one of several parts is joined to all the others. -/
theorem joinAll_concat (h : parts ≠ []) (last : String) :
    joinAll (parts ++ [last]) = join (joinAll parts) last := by
  cases hlast : isAbsolute last with
  | true =>
    rw [join_of_absolute hlast, joinAll, fromLastAbsolute_concat_of_absolute hlast]
    rfl
  | false =>
    rw [join_of_relative hlast, joinAll, fromLastAbsolute_concat_of_relative hlast h,
      linked_concat (fromLastAbsolute_ne_nil h)]
    rfl

/-- Several parts are joined one after the other. -/
theorem joinAll_cons (first : String) (rest : List String) :
    joinAll (first :: rest) = rest.foldl join first := by
  induction rest using List.reverseRecOn with
  | nil => rfl
  | append_singleton rest last ih =>
    rw [List.foldl_append, ← ih, ← List.cons_append, joinAll_concat (List.cons_ne_nil first rest)]
    rfl

end Path

/-! ## Full names of two parts -/

namespace Repo

variable {repo other : Repo}

/-- Whether the full name of a repository consists of two parts with a slash between them. -/
structure HasTwoParts (repo : Repo) : Prop where
  fullName_eq : repo.fullName = repo.owner ++ "/" ++ repo.name
  owner_ne : repo.owner ≠ ""
  name_ne : repo.name ≠ ""
  noSlash : '/' ∉ repo.name.toList

instance (repo : Repo) : Decidable repo.HasTwoParts :=
  decidable_of_iff (repo.fullName = repo.owner ++ "/" ++ repo.name ∧ repo.owner ≠ "" ∧
      repo.name ≠ "" ∧ '/' ∉ repo.name.toList)
    ⟨fun ⟨hname, howner, hown, hslash⟩ => ⟨hname, howner, hown, hslash⟩,
      fun h => ⟨h.fullName_eq, h.owner_ne, h.name_ne, h.noSlash⟩⟩

theorem IsNamed.hasTwoParts (h : repo.IsNamed) : repo.HasTwoParts :=
  ⟨h.fullName_eq, h.owner.ne_empty, h.name.ne_empty, h.name.noSlash⟩

namespace HasTwoParts

theorem isAbsolute_name (h : repo.HasTwoParts) : Path.isAbsolute repo.name = false := by
  rw [Path.isAbsolute, beq_eq_false_iff_ne]
  intro hslash
  exact h.noSlash (List.mem_of_mem_head? hslash)

/-- The full name has its two parts as components. -/
theorem components_fullName (h : repo.HasTwoParts) :
    Path.components repo.fullName = [repo.owner, repo.name] := by
  rw [h.fullName_eq, Path.components_append_slash,
    Path.components_of_noSlash repo.noSlash_owner, Path.components_of_noSlash h.noSlash]
  rfl

end HasTwoParts
end Repo

/-! ## Paths -/

namespace Corpus

variable {corpus : Corpus} {repo other : Repo}

theorem pathTo_eq_joinAll (corpus : Corpus) (repo : Repo) :
    corpus.pathTo repo = Path.joinAll [corpus.base, repo.owner, repo.name] := by
  rw [Path.joinAll_cons]
  rfl

theorem ownerDirectory_eq (corpus : Corpus) (repo : Repo) :
    corpus.ownerDirectory repo = Path.opened corpus.base ++ repo.owner :=
  Path.join_of_relative repo.isAbsolute_owner _

/-- The path of a copy is the base directory followed by the full name, if that consists of two
parts. -/
theorem pathTo_of_hasTwoParts (corpus : Corpus) (h : repo.HasTwoParts) :
    corpus.pathTo repo = Path.opened corpus.base ++ repo.fullName := by
  have howner : Path.opened repo.owner = repo.owner ++ "/" := by
    rw [Path.opened_of_ne h.owner_ne, Path.slashed_of_ne]
    intro hlast
    exact repo.noSlash_owner (List.mem_of_mem_getLast? hlast)
  rw [pathTo, Path.join_of_relative h.isAbsolute_name, ownerDirectory_eq,
    Path.opened_opened_append, howner, h.fullName_eq, String.append_assoc]

theorem pathTo_inj (h : repo.HasTwoParts) (hother : other.HasTwoParts) :
    corpus.pathTo repo = corpus.pathTo other ↔ repo.fullName = other.fullName := by
  rw [corpus.pathTo_of_hasTwoParts h, corpus.pathTo_of_hasTwoParts hother,
    String.append_right_inj]

theorem pathTo_ne_ownerDirectory (h : repo.HasTwoParts) (other : Repo) :
    corpus.pathTo repo ≠ corpus.ownerDirectory other := by
  rw [corpus.pathTo_of_hasTwoParts h, corpus.ownerDirectory_eq other, Ne, String.append_right_inj]
  intro hequal
  apply other.noSlash_owner
  rw [← hequal, h.fullName_eq]
  simp

theorem resolve_pathTo_ne_ownerDirectory (h : repo.IsNamed) (hother : other.IsNamed) :
    Path.resolve (corpus.pathTo repo) ≠ Path.resolve (corpus.ownerDirectory other) := by
  rw [corpus.resolve_pathTo h, corpus.resolve_ownerDirectory hother, Ne,
    List.append_cancel_left_eq]
  intro hnames
  cases (List.cons.inj hnames).2

end Corpus

/-! ## Runs of version control -/

namespace Operation

variable {corpus : Corpus} {o : Operation σ} {event : Event}

/-- Version control runs for nothing but an update or a clone. -/
theorem eq_of_mem_runs (h : event ∈ o.runs corpus) :
    event = o.pull corpus ∨ event = o.clone corpus := by
  cases o.course corpus with
  | pulled _ ran =>
    rw [runs, ran.runs.filter_eventsSince, List.mem_singleton] at h
    exact .inl h
  | unmade _ _ result =>
    have hfinish : (o.finish corpus).eventsSince o.start = [] := by
      rw [finish, result]
      simp [Situation.endOf, Situation.eventsSince]
    rw [runs, hfinish] at h
    cases h
  | cloned _ _ ran =>
    rw [runs, ran.runs.filter_eventsSince, List.mem_singleton] at h
    exact .inr h

/-- Version control works on the path of the copy: an update in it, and a clone writes to it. -/
theorem target_of_mem_runs (h : event ∈ o.runs corpus) :
    ∃ (command : Git.Command) (directory : String),
      event = .git command.arguments directory ∧
        command.target directory = corpus.pathTo o.repo := by
  rcases eq_of_mem_runs h with hpull | hclone
  · exact ⟨.pull, corpus.pathTo o.repo, hpull, rfl⟩
  · exact ⟨o.cloneCommand, corpus.ownerDirectory o.repo, hclone, rfl⟩

end Operation

namespace Corpus

/-- The path of a copy is where its clone writes to, whatever the full name is, and where version
control works at all.  It depends on the full name only, and among full names of two parts it tells
them apart and is not the directory of an owner.  Where the parts are names of entries the same
holds of the places. -/
theorem pathTo_names_copies (corpus : Corpus) :
    (∀ repo : Repo,
      corpus.pathTo repo = Path.joinAll [corpus.base, repo.owner, repo.name] ∧
      (Git.Command.clone repo.cloneAddress repo.name).target (corpus.ownerDirectory repo) =
        corpus.pathTo repo ∧
      ∀ {σ : Type} (s : Situation σ), ∀ event ∈ (Operation.mk repo s).runs corpus,
        ∃ (command : Git.Command) (directory : String),
          event = .git command.arguments directory ∧
            command.target directory = corpus.pathTo repo) ∧
    (∀ repo other : Repo, repo.fullName = other.fullName →
      corpus.pathTo repo = corpus.pathTo other) ∧
    (∀ repo other : Repo, repo.HasTwoParts → other.HasTwoParts →
      (corpus.pathTo repo = corpus.pathTo other → repo.fullName = other.fullName) ∧
        corpus.pathTo repo ≠ corpus.ownerDirectory other) ∧
    ∀ repo other : Repo, repo.IsNamed → other.IsNamed →
      (Path.resolve (corpus.pathTo repo) = Path.resolve (corpus.pathTo other) →
        repo.fullName = other.fullName) ∧
      Path.resolve (corpus.pathTo repo) ≠ Path.resolve (corpus.ownerDirectory other) := by
  refine ⟨?_, ?_, ?_, ?_⟩
  · intro repo
    refine ⟨corpus.pathTo_eq_joinAll repo, rfl, ?_⟩
    intro σ s event hevent
    exact Operation.target_of_mem_runs (o := ⟨repo, s⟩) hevent
  · intro repo other hfull
    exact pathTo_congr hfull
  · intro repo other h hother
    exact ⟨(pathTo_inj h hother).mp, pathTo_ne_ownerDirectory h other⟩
  · intro repo other h hother
    exact ⟨(resolve_pathTo_inj h hother).mp, resolve_pathTo_ne_ownerDirectory h hother⟩

/-- Two owners with repositories of the same name, below a base directory that ends with a slash. -/
theorem pathTo_names_copies_sameNames :
    let corpus : Corpus := { base := "/corpus/" }
    let repo := Repo.of "alice/one" "https://example.org/alice/one.git"
    let other := Repo.of "bob/one" "https://example.org/bob/one.git"
    repo.HasTwoParts ∧ other.HasTwoParts ∧ repo.IsNamed ∧ other.IsNamed ∧
      corpus.pathTo repo = "/corpus/alice/one" ∧
      (Git.Command.clone repo.cloneAddress repo.name).target (corpus.ownerDirectory repo) =
        corpus.pathTo repo ∧
      corpus.pathTo repo ≠ corpus.pathTo other ∧
      corpus.pathTo repo ≠ corpus.ownerDirectory other ∧
      Path.resolve (corpus.pathTo repo) ≠ Path.resolve (corpus.pathTo other) := by
  intro corpus repo other
  have hrepo : repo.IsNamed := by decide +kernel
  have hother : other.IsNamed := by decide +kernel
  have hne : repo.fullName ≠ other.fullName := by decide
  obtain ⟨hall, -, hparts, hplaces⟩ := corpus.pathTo_names_copies
  obtain ⟨hinjective, howner⟩ := hparts repo other hrepo.hasTwoParts hother.hasTwoParts
  refine ⟨hrepo.hasTwoParts, hother.hasTwoParts, hrepo, hother, by decide +kernel,
    (hall repo).2.1, ?_, howner, ?_⟩
  · intro hsame
    exact hne (hinjective hsame)
  · intro hsame
    exact hne ((hplaces repo other hrepo hother).1 hsame)

end Corpus
end FeatureCensus
